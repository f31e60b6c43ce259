import RDPBlocker.Foundation.History
import RDPBlocker.Program.EventData
import RDPBlocker.Refinement.LoginPolicy

/-! What is read from an event, and which events end a thread. -/
namespace RDPBlocker
open Foundation
variable {B : Boost}

/-- A `Data` element with a `Name`: its attributes in their order, its text, and its children. -/
structure DataElement where
  attributes : List (String × String)
  name : String
  text : String
  children : List (String × PTree)
  distinct : (attributes.map Prod.fst).Nodup
  named : ("Name", name) ∈ attributes

namespace DataElement

/-- The child of `EventData` that the element is read as. -/
def child (e : DataElement) : String × PTree :=
  ("Data", .node e.text
    (("<xmlattr>", .node "" (e.attributes.map fun a => (a.1, .node a.2 []))) :: e.children))

/-- The values of all attributes. -/
def values (e : DataElement) : List String := e.attributes.map Prod.snd

theorem name_mem_values (e : DataElement) : e.name ∈ e.values :=
  List.mem_map_of_mem e.named

theorem writeAttributes_child (e : DataElement) (attr : EventAttr) :
    writeAttributes attr e.child =
      .ok (e.values.foldl (fun attr key => attr.insert key e.text) attr) := by
  have hfind : e.child.2.find "<xmlattr>" =
      some (.node "" (e.attributes.map fun a => (a.1, .node a.2 []))) := rfl
  rw [writeAttributes_of_some hfind, values, List.foldl_map]
  change Except.ok ((e.attributes.map fun a => (a.1, PTree.node a.2 [])).foldl _ attr) = _
  rw [List.foldl_map]
  rfl

end DataElement

theorem lookup_foldl_insert (keys : List String) (value : String) (attr : EventAttr)
    (key : String) :
    (keys.foldl (fun attr key => attr.insert key value) attr).lookup key =
      if key ∈ keys then some value else attr.lookup key := by
  induction keys using List.reverseRecOn with
  | nil => rfl
  | append_singleton keys k ih =>
    rw [List.foldl_concat]
    by_cases hk : key = k
    · subst hk
      simp
    · rw [AList.lookup_insert_ne hk, ih]
      simp [hk]

/-- The last element that has the key among the values of its attributes. -/
def lastCarrier (elements : List DataElement) (key : String) : Option DataElement :=
  lastOf (fun e => decide (key ∈ e.values)) elements

/-- What decoding writes for one element. -/
def DataElement.write (attr : EventAttr) (e : DataElement) : EventAttr :=
  e.values.foldl (fun attr key => attr.insert key e.text) attr

theorem foldlM_writeAttributes_child (elements : List DataElement) (attr : EventAttr) :
    (elements.map DataElement.child).foldlM writeAttributes attr =
      .ok (elements.foldl DataElement.write attr) := by
  induction elements generalizing attr with
  | nil => rfl
  | cons e elements ih =>
    rw [List.map_cons, List.foldlM_cons, e.writeAttributes_child]
    exact ih _

/-- The last element that carries a key decides. -/
theorem lookup_foldl_write (elements : List DataElement) (key : String) :
    (elements.foldl DataElement.write ∅).lookup key =
      (lastCarrier elements key).map DataElement.text := by
  induction elements using List.reverseRecOn with
  | nil => rfl
  | append_singleton elements e ih =>
    rw [List.foldl_concat, DataElement.write, lookup_foldl_insert, ih]
    unfold lastCarrier
    by_cases hkey : key ∈ e.values
    · rw [if_pos hkey, lastOf_concat_of_pos elements (by simpa using hkey)]
      rfl
    · rw [if_neg hkey, lastOf_concat_of_neg elements (by simpa using hkey)]

theorem mem_foldl_write {elements : List DataElement} {key : String} :
    key ∈ elements.foldl DataElement.write ∅ ↔ ∃ e ∈ elements, key ∈ e.values := by
  rw [← not_iff_not, ← AList.lookup_eq_none, lookup_foldl_write, Option.map_eq_none_iff,
    lastCarrier, lastOf_eq_none]
  simp only [decide_eq_true_eq, not_exists, not_and]

/-- Decoding succeeds, its keys are the names, and each is mapped to the text of its element. -/
def ExtractsNamed (elements : List DataElement)
    (result : Except PTreeException (Bool × EventAttr)) : Prop :=
  ∃ attr, result = .ok (true, attr) ∧
    (∀ key, key ∈ attr ↔ ∃ e ∈ elements, e.name = key) ∧
    ∀ e ∈ elements, attr.lookup e.name = some e.text

/-- Whatever decoding takes as a key is a name, and it last takes it from an element with the text
of the one so named. -/
def NamesDecide (elements : List DataElement) : Prop :=
  (∀ e ∈ elements, ∀ key ∈ e.values, ∃ named ∈ elements, named.name = key) ∧
    ∀ e ∈ elements, ∀ last, lastCarrier elements e.name = some last → last.text = e.text

/-- Decoding extracts exactly the named fields if and only if no further attribute has a value
that is no name, or that is one and comes with another text after the element so named. -/
theorem extracts_named_iff {readXml : String → Option PTree} {xmlData data : String} {pt : PTree}
    {elements : List DataElement} (hpt : readXml xmlData = some pt)
    (hdata : HasEventData pt (.node data (elements.map DataElement.child))) :
    ExtractsNamed elements (eventDataToMap readXml xmlData ∅) ↔ NamesDecide elements := by
  have hresult : eventDataToMap readXml xmlData ∅ =
      .ok (true, elements.foldl DataElement.write ∅) := by
    rw [eventDataToMap_eq hpt hdata]
    change ((elements.map DataElement.child).foldlM writeAttributes ∅).map _ = _
    rw [foldlM_writeAttributes_child]
    rfl
  rw [hresult]
  constructor
  · rintro ⟨attr, hattr, hkeys, htexts⟩
    cases hattr
    refine ⟨fun e he key hkey => ?_, fun e he last hlast => ?_⟩
    · exact (hkeys key).mp (mem_foldl_write.mpr ⟨e, he, hkey⟩)
    · have htext := htexts e he
      rw [lookup_foldl_write, hlast] at htext
      exact Option.some.inj htext
  · rintro ⟨hnames, htexts⟩
    refine ⟨_, rfl, fun key => ?_, fun e he => ?_⟩
    · rw [mem_foldl_write]
      constructor
      · rintro ⟨e, he, hkey⟩
        exact hnames e he key hkey
      · rintro ⟨e, he, rfl⟩
        exact ⟨e, he, e.name_mem_values⟩
    · have hmem : e.name ∈ elements.foldl DataElement.write ∅ :=
        mem_foldl_write.mpr ⟨e, he, e.name_mem_values⟩
      rw [← AList.lookup_isSome, lookup_foldl_write, Option.isSome_map,
        Option.isSome_iff_exists] at hmem
      obtain ⟨last, hlast⟩ := hmem
      rw [lookup_foldl_write, hlast, Option.map_some, htexts e he last hlast]

/-- `read_xml` on the one text `text`. -/
def readSample (text : String) (eventData : List (String × PTree)) (data : String) :
    Option PTree :=
  if data = text then
    some (.node "" [("Event", .node "" [("EventData", .node "" eventData)])])
  else none

theorem readSample_self (text : String) (eventData : List (String × PTree)) :
    readSample text eventData text =
      some (.node "" [("Event", .node "" [("EventData", .node "" eventData)])]) := if_pos rfl

theorem hasEventData_sample (eventData : List (String × PTree)) :
    HasEventData (.node "" [("Event", .node "" [("EventData", .node "" eventData)])])
      (.node "" eventData) := ⟨_, rfl, rfl⟩

def ipAddressElement : DataElement where
  attributes := [("Name", "IpAddress")]
  name := "IpAddress"
  text := "1.2.3.4"
  children := []
  distinct := by decide
  named := by decide

def subjectElement : DataElement where
  attributes := [("Name", "Subject"), ("Source", "IpAddress")]
  name := "Subject"
  text := "none"
  children := []
  distinct := by decide
  named := by decide

def logonTypeElement : DataElement where
  attributes := [("Type", "LogonType"), ("Name", "LogonType")]
  name := "LogonType"
  text := "3"
  children := []
  distinct := by decide
  named := by decide

/-- The further attributes do no harm before the element with the address. -/
theorem extracts_named_iff_addressLast :
    let text := "<Event><EventData><Data Name=\"Subject\" Source=\"IpAddress\">none</Data>" ++
      "<Data Type=\"LogonType\" Name=\"LogonType\">3</Data>" ++
      "<Data Name=\"IpAddress\">1.2.3.4</Data></EventData></Event>"
    let elements := [subjectElement, logonTypeElement, ipAddressElement]
    NamesDecide elements ∧
      ExtractsNamed elements
        (eventDataToMap (readSample text (elements.map DataElement.child)) text ∅) := by
  intro text elements
  have hnames : NamesDecide elements := by
    refine ⟨by decide, fun e he last hlast => ?_⟩
    rcases List.mem_cons.mp he with rfl | he
    · cases hlast
      rfl
    · rcases List.mem_pair.mp he with rfl | rfl <;> cases hlast <;> rfl
  exact ⟨hnames, (extracts_named_iff (readSample_self _ _)
    (hasEventData_sample (elements.map DataElement.child))).mpr hnames⟩

/-- A further attribute with the value `IpAddress` replaces the address of the event. -/
theorem further_attribute_replaces_ipAddress :
    let text := "<Event><EventData><Data Name=\"IpAddress\">1.2.3.4</Data>" ++
      "<Data Name=\"Subject\" Source=\"IpAddress\">none</Data></EventData></Event>"
    let elements := [ipAddressElement, subjectElement]
    let result := eventDataToMap (readSample text (elements.map DataElement.child)) text ∅
    (elements.map DataElement.name).Nodup ∧
      (∃ attr, result = .ok (true, attr) ∧ attr.get "IpAddress" = "none") ∧
      ¬ ExtractsNamed elements result := by
  intro text elements result
  have hresult : result = .ok (true, elements.foldl DataElement.write ∅) := by
    change eventDataToMap _ _ _ = _
    rw [eventDataToMap_eq (readSample_self _ _) (hasEventData_sample _)]
    rfl
  refine ⟨by decide, ⟨_, hresult, by decide⟩, ?_⟩
  rw [hresult]
  rintro ⟨attr, hattr, -, htexts⟩
  cases hattr
  exact absurd (htexts ipAddressElement List.mem_cons_self) (by decide)

variable (readXml : String → Option PTree) {g : ApplicationConfig B}

theorem authFailedThread_snoc (g : ApplicationConfig B) (events : List AuthFailedEvent)
    (e : AuthFailedEvent) : authFailedThread readXml g (events ++ [e]) =
      ((authFailedThread readXml g events).stepEvent readXml g e).1 :=
  Mealy.final_snoc _ _ _ _

theorem authSucceedThread_snoc (g : ApplicationConfig B) (events : List AuthSucceedEvent)
    (e : AuthSucceedEvent) : authSucceedThread readXml g (events ++ [e]) =
      ((authSucceedThread readXml g events).stepEvent readXml e).1 :=
  Mealy.final_snoc _ _ _ _

/-- The map of an event; that of one that is not decodable is not read. -/
def decode (xmlData : String) : EventAttr :=
  match eventDataToMap readXml xmlData ∅ with
  | .ok (_, eventAttr) => eventAttr
  | .error _ => ∅

def AuthFailedEvent.input (e : AuthFailedEvent) : AuthFailedInput :=
  ⟨e.now, e.randomDelay, decode readXml e.eventXmlData⟩

def AuthSucceedEvent.input (e : AuthSucceedEvent) : AuthSucceedInput :=
  ⟨e.randomDelay, decode readXml e.eventXmlData⟩

theorem AuthFailedState.stepEvent_of_decodable (s : AuthFailedState) {e : AuthFailedEvent}
    (he : Decodable readXml e.eventXmlData) :
    s.stepEvent readXml g e = s.step g (e.input readXml) := by
  obtain ⟨⟨status, attr⟩, hattr⟩ := (eventDataToMap_returns_iff readXml e.eventXmlData ∅).mpr he
  have hinput : e.input readXml = ⟨e.now, e.randomDelay, attr⟩ := by
    unfold AuthFailedEvent.input decode
    rw [hattr]
  unfold AuthFailedState.stepEvent
  by_cases hs : s.alive = true
  · rw [if_pos hs, hattr, hinput]
  · rw [if_neg hs, AuthFailedState.step_of_not_alive hs]

theorem AuthFailedState.decodable_of_alive {s : AuthFailedState} {e : AuthFailedEvent}
    (h : (s.stepEvent readXml g e).1.alive = true) : Decodable readXml e.eventXmlData := by
  by_contra hnot
  unfold AuthFailedState.stepEvent at h
  by_cases hs : s.alive = true
  · rw [if_pos hs] at h
    cases hmap : eventDataToMap readXml e.eventXmlData ∅ with
    | error err =>
      rw [hmap] at h
      cases h
    | ok result => exact hnot ((eventDataToMap_returns_iff readXml _ ∅).mp ⟨result, hmap⟩)
  · rw [if_neg hs] at h
    exact hs h

/-- The failed-login thread survives a text that can be decoded, when the search for its address
does not throw. -/
theorem AuthFailedState.alive_stepEvent (s : AuthFailedState) (e : AuthFailedEvent) :
    (s.stepEvent readXml g e).1.alive = true ↔ s.alive = true ∧
      Decodable readXml e.eventXmlData ∧ WhitelistReturns g (e.input readXml).ipAddress := by
  by_cases he : Decodable readXml e.eventXmlData
  · rw [AuthFailedState.stepEvent_of_decodable readXml s he, AuthFailedState.alive_step,
      and_iff_right he]
  · exact iff_of_false (fun h => he (AuthFailedState.decodable_of_alive readXml h))
      fun h => he h.2.1

theorem alive_authFailedThread (g : ApplicationConfig B) (events : List AuthFailedEvent) :
    (authFailedThread readXml g events).alive = true ↔ ∀ e ∈ events,
      Decodable readXml e.eventXmlData ∧ WhitelistReturns g (e.input readXml).ipAddress := by
  induction events using List.reverseRecOn with
  | nil => simp [authFailedThread]
  | append_singleton events e ih =>
    rw [authFailedThread_snoc, AuthFailedState.alive_stepEvent, ih, List.forall_mem_append,
      List.forall_mem_singleton]

theorem AuthSucceedState.stepEvent_of_decodable (s : AuthSucceedState B) {e : AuthSucceedEvent}
    (he : Decodable readXml e.eventXmlData) :
    s.stepEvent readXml e = s.step (e.input readXml) := by
  obtain ⟨⟨status, attr⟩, hattr⟩ := (eventDataToMap_returns_iff readXml e.eventXmlData ∅).mpr he
  have hinput : e.input readXml = ⟨e.randomDelay, attr⟩ := by
    unfold AuthSucceedEvent.input decode
    rw [hattr]
  unfold AuthSucceedState.stepEvent
  by_cases hs : s.alive = true
  · rw [if_pos hs, hattr, hinput]
  · rw [if_neg hs, AuthSucceedState.step_of_not_alive hs]

theorem authSucceedThread_of_decodable {events : List AuthSucceedEvent}
    (h : ∀ e ∈ events, Decodable readXml e.eventXmlData) :
    authSucceedThread readXml g events =
      authSucceedState g (events.map (AuthSucceedEvent.input readXml)) := by
  induction events using List.reverseRecOn with
  | nil => rfl
  | append_singleton events e ih =>
    rw [List.forall_mem_append, List.forall_mem_singleton] at h
    rw [authSucceedThread_snoc, List.map_append, List.map_singleton, authSucceedState_snoc, ih h.1,
      AuthSucceedState.stepEvent_of_decodable readXml _ h.2]

theorem AuthSucceedState.of_alive_stepEvent {s : AuthSucceedState B} {e : AuthSucceedEvent}
    (h : (s.stepEvent readXml e).1.alive = true) :
    s.alive = true ∧ Decodable readXml e.eventXmlData := by
  rw [← eventDataToMap_returns_iff readXml e.eventXmlData ∅]
  unfold AuthSucceedState.stepEvent at h
  by_cases hs : s.alive = true
  · rw [if_pos hs] at h
    cases hmap : eventDataToMap readXml e.eventXmlData ∅ with
    | error err =>
      rw [hmap] at h
      cases h
    | ok result => exact ⟨hs, result, rfl⟩
  · rw [if_neg hs] at h
    exact absurd h hs

theorem decodable_of_alive {events : List AuthSucceedEvent}
    (h : (authSucceedThread readXml g events).alive = true) :
    ∀ e ∈ events, Decodable readXml e.eventXmlData := by
  induction events using List.reverseRecOn with
  | nil => simp
  | append_singleton events e ih =>
    rw [authSucceedThread_snoc] at h
    obtain ⟨halive, he⟩ := AuthSucceedState.of_alive_stepEvent readXml h
    rw [List.forall_mem_append, List.forall_mem_singleton]
    exact ⟨ih halive, he⟩

/-- Decoding an event returns exactly where it is decodable. A thread ends by an event that is not,
and otherwise only where the iteration of a decoded one throws: by a search for the white list in an
address, by a record that is no expression, or by a search for a record in a name. -/
theorem strange_events_iff (g : ApplicationConfig B) :
    (∀ xmlData attr, (∃ result, eventDataToMap readXml xmlData attr = .ok result) ↔
        Decodable readXml xmlData) ∧
      (∀ events, (authFailedThread readXml g events).alive = true ↔ ∀ e ∈ events,
        Decodable readXml e.eventXmlData ∧ WhitelistReturns g (e.input readXml).ipAddress) ∧
      ∀ events, (authSucceedThread readXml g events).alive = true ↔
        (∀ e ∈ events, Decodable readXml e.eventXmlData) ∧
          AtEach (fun past i => RecordAccepted g (logins past) i ∧ SearchesReturn g (logins past) i)
            (events.map (AuthSucceedEvent.input readXml)) := by
  refine ⟨eventDataToMap_returns_iff readXml, alive_authFailedThread readXml g, fun events => ?_⟩
  change _ ↔ _ ∧ LoginsReturn g (events.map (AuthSucceedEvent.input readXml))
  rw [← alive_authSucceedState_iff]
  constructor
  · intro h
    have hdecodable := decodable_of_alive readXml h
    rw [authSucceedThread_of_decodable readXml hdecodable] at h
    exact ⟨hdecodable, h⟩
  · rintro ⟨hdecodable, h⟩
    rw [authSucceedThread_of_decodable readXml hdecodable]
    exact h

/-- A text that is no XML, and a comment inside `EventData`, are not decoded, and each of the two
events ends both threads. -/
theorem comment_ends_threads :
    let text := "<Event><EventData><!--note--></EventData></Event>"
    let readXml := readSample text [("<xmlcomment>", .node "note" [])]
    eventDataToMap readXml "not XML" ∅ = .error .xmlParserError ∧
      eventDataToMap readXml text ∅ = .error (.badPath "<xmlattr>") ∧
      ∀ strange ∈ ["not XML", text],
        (authFailedThread readXml ({} : ApplicationConfig Boost.plain)
          [⟨0, 0, strange⟩]).alive = false ∧
        (authSucceedThread readXml ({} : ApplicationConfig Boost.plain)
          [⟨0, strange⟩]).alive = false := by
  intro text readXml
  have hnotXml : eventDataToMap readXml "not XML" ∅ = .error .xmlParserError := by
    have hthrows : readXml "not XML" = none := if_neg (by decide)
    unfold eventDataToMap readXmlFromString
    rw [hthrows]
    rfl
  have hcomment : eventDataToMap readXml text ∅ = .error (.badPath "<xmlattr>") := by
    rw [eventDataToMap_eq (readSample_self _ _) (hasEventData_sample _)]
    rfl
  refine ⟨hnotXml, hcomment, fun strange hstrange => ?_⟩
  have hnot : ¬ Decodable readXml strange := by
    rw [← eventDataToMap_returns_iff readXml strange ∅]
    rintro ⟨result, hresult⟩
    rcases List.mem_pair.mp hstrange with rfl | rfl
    · cases hnotXml.symm.trans hresult
    · cases hcomment.symm.trans hresult
  constructor
  · rw [Bool.eq_false_iff]
    exact fun h => hnot ((alive_authFailedThread readXml _ _).mp h _ List.mem_cons_self).1
  · rw [Bool.eq_false_iff]
    exact fun h => hnot (decodable_of_alive readXml h _ List.mem_cons_self)

end RDPBlocker
