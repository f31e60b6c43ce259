import RDPBlocker.Program.AuthFailed
import RDPBlocker.Program.AuthSucceed

/-! Decoding an event, and the two threads on the texts that the queue gives them. -/
namespace RDPBlocker
open Foundation
variable {B : Boost}

/-- `boost::property_tree::ptree`: the data of a node, and its children with their keys. -/
inductive PTree
  | node (data : String) (children : List (String × PTree))

inductive PTreeException
  | xmlParserError
  | badPath (path : String)
deriving DecidableEq, Repr

namespace PTree

def data : PTree → String
  | node data _ => data

def children : PTree → List (String × PTree)
  | node _ children => children

/-- The first child with the key. -/
def find (t : PTree) (key : String) : Option PTree :=
  (t.children.find? fun child => child.1 = key).map Prod.snd

def walk : PTree → List String → Option PTree
  | t, [] => some t
  | t, key :: keys =>
    match t.find key with
    | some child => child.walk keys
    | none => none

/-- The keys of a path; the empty path has none. -/
def pathKeys (path : String) : List String :=
  if path = "" then [] else (path.toList.splitOn '.').map String.ofList

def getChild (t : PTree) (path : String) : Except PTreeException PTree :=
  match t.walk (pathKeys path) with
  | some child => .ok child
  | none => .error (.badPath path)

end PTree

/-- `read_xml_from_string`; `readXml` is `read_xml`, and `none` where it throws. -/
def readXmlFromString (readXml : String → Option PTree) (data : String) :
    Except PTreeException PTree :=
  match readXml data with
  | some pt => .ok pt
  | none => .error .xmlParserError

/-- The body of the loop over the children of `EventData`. -/
def writeAttributes (attr : EventAttr) (attrName : String × PTree) :
    Except PTreeException EventAttr := do
  let mapValue := attrName.2.data
  let attributes ← attrName.2.getChild "<xmlattr>"
  return attributes.children.foldl
    (fun attr attrValue => attr.insert attrValue.2.data mapValue) attr

/-- The result, and the map that `attr` refers to. -/
def eventDataToMap (readXml : String → Option PTree) (xmlData : String) (attr : EventAttr) :
    Except PTreeException (Bool × EventAttr) := do
  let pt ← readXmlFromString readXml xmlData
  let subDataPt ← pt.getChild "Event.EventData"
  let root ← subDataPt.getChild ""
  let attr ← root.children.foldlM writeAttributes attr
  return (true, attr)

/-- The tree has an `Event.EventData` node, and it is `eventData`. -/
def HasEventData (pt eventData : PTree) : Prop :=
  ∃ event, pt.find "Event" = some event ∧ event.find "EventData" = some eventData

/-- The text is XML, it has an `Event.EventData` node, and each child of that has attributes. -/
def Decodable (readXml : String → Option PTree) (xmlData : String) : Prop :=
  ∃ pt eventData, readXml xmlData = some pt ∧ HasEventData pt eventData ∧
    ∀ child ∈ eventData.children, ∃ attributes, child.2.find "<xmlattr>" = some attributes

theorem getChild_xmlattr (t : PTree) : t.getChild "<xmlattr>" =
    match t.find "<xmlattr>" with
      | some attributes => .ok attributes
      | none => .error (.badPath "<xmlattr>") := by
  have hkeys : PTree.pathKeys "<xmlattr>" = ["<xmlattr>"] := by decide
  unfold PTree.getChild
  rw [hkeys]
  unfold PTree.walk
  cases t.find "<xmlattr>" <;> rfl

theorem getChild_eventData {pt eventData : PTree} :
    pt.getChild "Event.EventData" = .ok eventData ↔ HasEventData pt eventData := by
  have hkeys : PTree.pathKeys "Event.EventData" = ["Event", "EventData"] := by decide
  unfold PTree.getChild HasEventData
  rw [hkeys]
  cases hevent : pt.find "Event" with
  | none => simp [PTree.walk, hevent]
  | some event => cases hdata : event.find "EventData" <;> simp [PTree.walk, hevent, hdata]

theorem writeAttributes_of_some {child : String × PTree} {attributes : PTree}
    (h : child.2.find "<xmlattr>" = some attributes) (attr : EventAttr) :
    writeAttributes attr child = .ok (attributes.children.foldl
      (fun attr attrValue => attr.insert attrValue.2.data child.2.data) attr) := by
  unfold writeAttributes
  rw [getChild_xmlattr, h]
  rfl

theorem writeAttributes_of_none {child : String × PTree}
    (h : child.2.find "<xmlattr>" = none) (attr : EventAttr) :
    writeAttributes attr child = .error (.badPath "<xmlattr>") := by
  unfold writeAttributes
  rw [getChild_xmlattr, h]
  rfl

theorem foldlM_writeAttributes_returns (children : List (String × PTree)) (attr : EventAttr) :
    (∃ attr', children.foldlM writeAttributes attr = .ok attr') ↔
      ∀ child ∈ children, ∃ attributes, child.2.find "<xmlattr>" = some attributes := by
  refine foldlM_returns_iff (fun attr child => ?_) children attr
  cases h : child.2.find "<xmlattr>" with
  | none =>
    rw [writeAttributes_of_none h]
    simp
  | some attributes =>
    rw [writeAttributes_of_some h]
    simp

/-- Where the node is found, only the loop over its children is left. -/
theorem eventDataToMap_eq {readXml : String → Option PTree} {xmlData : String}
    {pt eventData : PTree} (hpt : readXml xmlData = some pt) (h : HasEventData pt eventData)
    (attr : EventAttr) : eventDataToMap readXml xmlData attr =
      (eventData.children.foldlM writeAttributes attr).map fun attr => (true, attr) := by
  unfold eventDataToMap readXmlFromString
  rw [hpt]
  change (pt.getChild "Event.EventData" >>= _) = _
  rw [getChild_eventData.mpr h]
  change (eventData.children.foldlM writeAttributes attr >>= fun attr => .ok (true, attr)) = _
  cases eventData.children.foldlM writeAttributes attr <;> rfl

theorem hasEventData_of_returns {readXml : String → Option PTree} {xmlData : String}
    {attr : EventAttr} {result : Bool × EventAttr}
    (h : eventDataToMap readXml xmlData attr = .ok result) :
    ∃ pt eventData, readXml xmlData = some pt ∧ HasEventData pt eventData := by
  unfold eventDataToMap readXmlFromString at h
  cases hpt : readXml xmlData with
  | none =>
    rw [hpt] at h
    cases h
  | some pt =>
    rw [hpt] at h
    change (pt.getChild "Event.EventData" >>= _) = _ at h
    cases hdata : pt.getChild "Event.EventData" with
    | error e =>
      rw [hdata] at h
      cases h
    | ok eventData => exact ⟨pt, eventData, rfl, getChild_eventData.mp hdata⟩

theorem eventDataToMap_returns_iff (readXml : String → Option PTree) (xmlData : String)
    (attr : EventAttr) :
    (∃ result, eventDataToMap readXml xmlData attr = .ok result) ↔ Decodable readXml xmlData := by
  constructor
  · intro h
    obtain ⟨result, hresult⟩ := h
    obtain ⟨pt, eventData, hpt, hdata⟩ := hasEventData_of_returns hresult
    rw [eventDataToMap_eq hpt hdata] at hresult
    refine ⟨pt, eventData, hpt, hdata, (foldlM_writeAttributes_returns _ attr).mp ?_⟩
    cases hloop : eventData.children.foldlM writeAttributes attr with
    | error e =>
      rw [hloop] at hresult
      cases hresult
    | ok attr' => exact ⟨attr', rfl⟩
  · intro h
    obtain ⟨pt, eventData, hpt, hdata, hchildren⟩ := h
    obtain ⟨attr', hloop⟩ := (foldlM_writeAttributes_returns _ attr).mpr hchildren
    refine ⟨(true, attr'), ?_⟩
    rw [eventDataToMap_eq hpt hdata, hloop]
    rfl

/-- What one iteration reads: the clock, the random delay it would draw, and the event. -/
structure AuthFailedEvent where
  now : ℤ
  randomDelay : ℤ
  eventXmlData : String

structure AuthSucceedEvent where
  randomDelay : ℤ
  eventXmlData : String

variable (readXml : String → Option PTree)

/-- One iteration of `process_rdp_auth_failed_event`, from the text that `Pop` gives. What is thrown
leaves the loop and ends the process. -/
def AuthFailedState.stepEvent (g : ApplicationConfig B) (s : AuthFailedState)
    (e : AuthFailedEvent) : AuthFailedState × Option BlockRequest :=
  if s.alive = true then
    match eventDataToMap readXml e.eventXmlData ∅ with
    | .ok (_, eventAttr) => s.step g ⟨e.now, e.randomDelay, eventAttr⟩
    | .error _ => (⟨deleteExpireRemoteAddress e.now s.remoteAddressMap, false⟩, none)
  else (s, none)

def authFailedThread (g : ApplicationConfig B) (events : List AuthFailedEvent) :
    AuthFailedState :=
  Mealy.final (AuthFailedState.stepEvent readXml g) ⟨∅, true⟩ events

/-- One iteration of `process_rdp_auth_succeed_event`, from the text that `Pop` gives. -/
def AuthSucceedState.stepEvent (s : AuthSucceedState B) (e : AuthSucceedEvent) :
    AuthSucceedState B × Option BlockRequest :=
  if s.alive = true then
    match eventDataToMap readXml e.eventXmlData ∅ with
    | .ok (_, eventAttr) => s.step ⟨e.randomDelay, eventAttr⟩
    | .error _ => (⟨s.gConfig, false⟩, none)
  else (s, none)

def authSucceedThread (g : ApplicationConfig B) (events : List AuthSucceedEvent) :
    AuthSucceedState B :=
  Mealy.final (AuthSucceedState.stepEvent readXml) ⟨g, true⟩ events

end RDPBlocker
