import RDPBlocker.Foundation.History
import RDPBlocker.Program.AuthSucceed
import RDPBlocker.Spec.LoginPolicy

/-! The succeeded-login thread carries out the login policy of its configuration: the bind
table is the policy's records, and the requests are its rejections. -/
namespace RDPBlocker
open Foundation Spec
variable {B : Boost} {g : ApplicationConfig B}

/-- The policy that a configuration states. A name is bound by taking it as the expression. -/
def loginPolicy (g : ApplicationConfig B) : LoginPolicy String String String where
  white := g.mWorkstationNameConfig.isWhiteName
  block := g.mWorkstationNameConfig.isBlockName
  checkBind := g.mWorkstationNameConfig.mCheckBind
  autoBind := g.mWorkstationNameConfig.mAutoBind
  configured user := g.mWorkstationNameConfig.mBindTable.lookup user
  bindTo := id
  allows e name := decide (B.regexSearch e name = some true)

def AuthSucceedInput.login (i : AuthSucceedInput) : Login String String where
  relevant := decide (i.logonType = "3" ∧ i.ipAddress ≠ "-" ∧ i.ipAddress ≠ "")
  user := i.userName
  name := i.workstationName

def ApplicationConfig.withBindTable (g : ApplicationConfig B)
    (table : AList fun _ : String => String) : ApplicationConfig B :=
  { g with mWorkstationNameConfig := { g.mWorkstationNameConfig with mBindTable := table } }

/-- `c` is `g` with the records of the policy after the history as its bind table. -/
def Records (g : ApplicationConfig B) (history : List (Login String String))
    (c : ApplicationConfig B) : Prop :=
  ∃ table, c = g.withBindTable table ∧
    ∀ user, table.lookup user = (loginPolicy g).record history user

/-- What a rejection of the login leads to. -/
def rejection (g : ApplicationConfig B) (i : AuthSucceedInput) :
    Except MatchException (Option BlockRequest) :=
  blockRemoteAddressesWhenLoginSucceed g i.randomDelay i.ipAddress

/-- How the thread decides on a login by the record of its user. -/
def decisionOn (g : ApplicationConfig B) (i : AuthSucceedInput) :
    Option String → Except MatchException (Option BlockRequest)
  | none => rejection g i
  | some e =>
    match regexIsMatchString B e i.workstationName with
    | .error err => .error err
    | .ok true => .ok none
    | .ok false => rejection g i

/-- How the thread decides on a login after a history. -/
def decision (g : ApplicationConfig B) (history : List (Login String String))
    (i : AuthSucceedInput) : Except MatchException (Option BlockRequest) :=
  if (loginPolicy g).Checks i.login then
    decisionOn g i ((loginPolicy g).record (history ++ [i.login]) i.userName)
  else if i.login.relevant = true ∧ (loginPolicy g).white i.workstationName = false ∧
      (loginPolicy g).block i.workstationName = true then rejection g i
  else .ok none

/-- Where the records are looked up for the login, the record of its user is an expression. -/
def RecordAccepted (g : ApplicationConfig B) (history : List (Login String String))
    (i : AuthSucceedInput) : Prop :=
  (loginPolicy g).Checks i.login → ∀ e,
    (loginPolicy g).record (history ++ [i.login]) i.userName = some e → B.regexAccepts e = true

/-- No search at the login gets too complex: neither the one for the record in its name, nor, where
it is rejected, those for the white list in its address. -/
structure SearchesReturn (g : ApplicationConfig B) (history : List (Login String String))
    (i : AuthSucceedInput) : Prop where
  name : (loginPolicy g).Checks i.login → ∀ e,
    (loginPolicy g).record (history ++ [i.login]) i.userName = some e →
      ∃ found, B.regexSearch e i.workstationName = some found
  address : (loginPolicy g).Rejects history i.login → WhitelistReturns g i.ipAddress

/-- Nothing throws at the login. -/
def LoginReturns (g : ApplicationConfig B) (history : List (Login String String))
    (i : AuthSucceedInput) : Prop :=
  RecordAccepted g history i ∧ SearchesReturn g history i

theorem Records.start (g : ApplicationConfig B) : Records g [] g :=
  ⟨g.mWorkstationNameConfig.mBindTable, rfl, fun _ => (Option.or_none).symm⟩

theorem relevant_login {i : AuthSucceedInput} :
    i.login.relevant = true ↔ i.logonType = "3" ∧ i.ipAddress ≠ "-" ∧ i.ipAddress ≠ "" := by
  unfold AuthSucceedInput.login
  exact decide_eq_true_iff

/-- The first two checks of an iteration are those of relevance. -/
theorem process_of_irrelevant (c : ApplicationConfig B) {i : AuthSucceedInput}
    (hi : i.login.relevant = false) : processRdpAuthSucceedEvent c i = (c, .ok none) := by
  have hrel := mt relevant_login.mpr (Bool.eq_false_iff.mp hi)
  unfold processRdpAuthSucceedEvent
  by_cases ht : i.logonType = "3"
  · have hip : i.ipAddress = "-" ∨ i.ipAddress = "" := by
      by_contra hne
      exact hrel ⟨ht, fun h => hne (Or.inl h), fun h => hne (Or.inr h)⟩
    simp [ht, hip]
  · simp [ht]

/-- A login that the records are not looked up for leaves the configuration alone. -/
theorem process_of_not_checks (table : AList fun _ : String => String)
    (history : List (Login String String)) {i : AuthSucceedInput}
    (hi : ¬ (loginPolicy g).Checks i.login) :
    processRdpAuthSucceedEvent (g.withBindTable table) i =
      (g.withBindTable table, decision g history i) := by
  unfold decision
  rw [if_neg hi]
  cases hrel : i.login.relevant with
  | false =>
    rw [process_of_irrelevant _ hrel]
    simp
  | true =>
    obtain ⟨ht, hdash, hempty⟩ := relevant_login.mp hrel
    unfold processRdpAuthSucceedEvent
    simp only [ht, hdash, hempty, ne_eq, not_true_eq_false, or_self, if_false, true_and]
    change (if (loginPolicy g).white i.workstationName = true then _
      else if (loginPolicy g).block i.workstationName = true then
        (g.withBindTable table, rejection g i)
      else if (loginPolicy g).checkBind = false then _ else _) = _
    cases hw : (loginPolicy g).white i.workstationName with
    | true => rfl
    | false =>
      cases hb : (loginPolicy g).block i.workstationName with
      | true => rfl
      | false =>
        have hcheck : (loginPolicy g).checkBind = false := by
          by_contra hc
          exact hi ⟨hrel, hw, hb, Bool.not_eq_false _ ▸ hc⟩
        rw [hcheck]
        rfl

/-- The table after a login that is checked against it. -/
def boundTable (g : ApplicationConfig B) (table : AList fun _ : String => String)
    (i : AuthSucceedInput) : AList fun _ : String => String :=
  if (table.lookup i.userName).isSome = false ∧ (loginPolicy g).autoBind = true then
    table.insert i.userName i.workstationName
  else table

theorem bind_withBindTable (table : AList fun _ : String => String) (i : AuthSucceedInput) :
    (if (g.withBindTable table).mWorkstationNameConfig.existsBindRecord i.userName = false then
      if (g.withBindTable table).mWorkstationNameConfig.mAutoBind = true then
        (g.withBindTable table).createBindRecord i.userName i.workstationName
      else g.withBindTable table
    else g.withBindTable table) = g.withBindTable (boundTable g table i) := by
  change (if (table.lookup i.userName).isSome = false then
    if (loginPolicy g).autoBind = true then
      g.withBindTable (table.insert i.userName i.workstationName)
    else g.withBindTable table
  else g.withBindTable table) = _
  unfold boundTable
  rw [ite_and, apply_ite g.withBindTable, apply_ite g.withBindTable]

theorem checkBindRecord_of_none {c : ApplicationConfig B} {username : String}
    (h : c.mWorkstationNameConfig.mBindTable.lookup username = none) (workstationName : String) :
    c.mWorkstationNameConfig.checkBindRecord B username workstationName = .ok false := by
  unfold ApplicationWorkstationNameConfig.checkBindRecord
  rw [h]

theorem checkBindRecord_of_some {c : ApplicationConfig B} {username e : String}
    (h : c.mWorkstationNameConfig.mBindTable.lookup username = some e) (workstationName : String) :
    c.mWorkstationNameConfig.checkBindRecord B username workstationName =
      regexIsMatchString B e workstationName := by
  unfold ApplicationWorkstationNameConfig.checkBindRecord
  rw [h]

theorem process_of_checks (table : AList fun _ : String => String) {i : AuthSucceedInput}
    (hi : (loginPolicy g).Checks i.login) :
    processRdpAuthSucceedEvent (g.withBindTable table) i =
      (g.withBindTable (boundTable g table i),
        decisionOn g i ((boundTable g table i).lookup i.userName)) := by
  obtain ⟨hrel, hw, hb, hcheck⟩ := hi
  obtain ⟨ht, hdash, hempty⟩ := relevant_login.mp hrel
  have hwhite : ¬ (g.withBindTable table).mWorkstationNameConfig.isWhiteName
      i.workstationName = true := Bool.eq_false_iff.mp hw
  have hblock : ¬ (g.withBindTable table).mWorkstationNameConfig.isBlockName
      i.workstationName = true := Bool.eq_false_iff.mp hb
  have hbind : ¬ (g.withBindTable table).mWorkstationNameConfig.mCheckBind = false := by
    rw [Bool.not_eq_false]
    exact hcheck
  unfold processRdpAuthSucceedEvent
  simp only [ht, hdash, hempty, ne_eq, not_true_eq_false, or_self, if_false]
  rw [if_neg hwhite, if_neg hblock, if_neg hbind, bind_withBindTable]
  generalize boundTable g table i = bound
  cases hl : bound.lookup i.userName with
  | none =>
    have hc := checkBindRecord_of_none (c := g.withBindTable bound) hl i.workstationName
    rw [hc]
    rfl
  | some e =>
    have hc := checkBindRecord_of_some (c := g.withBindTable bound) hl i.workstationName
    rw [hc]
    unfold decisionOn
    dsimp only
    rcases regexIsMatchString B e i.workstationName with err | _ | _ <;> rfl

/-- The table keeps the records of the policy. -/
theorem lookup_boundTable {history : List (Login String String)}
    {table : AList fun _ : String => String} {i : AuthSucceedInput}
    (ht : ∀ user, table.lookup user = (loginPolicy g).record history user)
    (hi : (loginPolicy g).Checks i.login) (user : String) :
    (boundTable g table i).lookup user =
      (loginPolicy g).record (history ++ [i.login]) user := by
  rw [LoginPolicy.record_snoc, ← ht]
  unfold boundTable
  by_cases huser : user = i.userName
  · subst huser
    cases hl : table.lookup i.userName with
    | some e => simp [hl]
    | none =>
      have hbinds : (i.login.user = i.userName ∧ (loginPolicy g).Binds i.login) ↔
          (loginPolicy g).autoBind = true := ⟨fun h => h.2.2, fun h => ⟨rfl, hi, h⟩⟩
      by_cases ha : (loginPolicy g).autoBind = true
      · rw [if_pos ⟨rfl, ha⟩, if_pos (hbinds.mpr ha), AList.lookup_insert]
        rfl
      · rw [if_neg (fun h => ha h.2), if_neg (mt hbinds.mp ha), hl]
        rfl
  · have hne : ¬ (i.login.user = user ∧ (loginPolicy g).Binds i.login) :=
      fun h => huser h.1.symm
    rw [if_neg hne, Option.or_none]
    split_ifs
    · exact AList.lookup_insert_ne huser
    · rfl

/-- One iteration carries the policy from one history to the next, and decides as it says. -/
theorem Records.process {history : List (Login String String)} {c : ApplicationConfig B}
    (hc : Records g history c) (i : AuthSucceedInput) :
    Records g (history ++ [i.login]) (processRdpAuthSucceedEvent c i).1 ∧
      (processRdpAuthSucceedEvent c i).2 = decision g history i := by
  obtain ⟨table, rfl, ht⟩ := hc
  by_cases hi : (loginPolicy g).Checks i.login
  · rw [process_of_checks table hi]
    refine ⟨⟨_, rfl, lookup_boundTable ht hi⟩, ?_⟩
    unfold decision
    rw [if_pos hi, ← lookup_boundTable ht hi]
  · rw [process_of_not_checks table history hi]
    refine ⟨⟨table, rfl, fun user => ?_⟩, rfl⟩
    have hbinds : ¬ (i.login.user = user ∧ (loginPolicy g).Binds i.login) := fun h => hi h.2.1
    rw [(loginPolicy g).record_snoc_eq hbinds]
    exact ht user

/-- The logins of a run. -/
def logins (events : List AuthSucceedInput) : List (Login String String) :=
  events.map AuthSucceedInput.login

theorem logins_snoc (events : List AuthSucceedInput) (i : AuthSucceedInput) :
    logins (events ++ [i]) = logins events ++ [i.login] := List.map_append

theorem rejection_isOk_iff {i : AuthSucceedInput} :
    (rejection g i).isOk = true ↔ WhitelistReturns g i.ipAddress := by
  unfold rejection blockRemoteAddressesWhenLoginSucceed WhitelistReturns
  cases isVaildIpAddress B i.ipAddress with
  | false => exact iff_of_true rfl fun h => absurd h Bool.false_ne_true
  | true =>
    rcases g.mIpConfig.isWhiteAddress i.ipAddress with err | _ | _ <;>
      simp [Except.isOk, Except.toBool]

theorem eq_ok_some_of_join {ε α : Type*} {x : Except ε (Option α)} {a : α}
    (h : x.toOption.join = some a) : x = .ok (some a) := by
  cases x with
  | error err => cases h
  | ok y => exact congrArg Except.ok h

/-- A login that the records are looked up for is rejected by its record. -/
theorem rejects_iff_of_checks {history : List (Login String String)} {i : AuthSucceedInput}
    (hi : (loginPolicy g).Checks i.login) : (loginPolicy g).Rejects history i.login ↔
      ∀ e, (loginPolicy g).record (history ++ [i.login]) i.userName = some e →
        (loginPolicy g).allows e i.workstationName = false := by
  obtain ⟨hrel, hw, hb, hcheck⟩ := hi
  constructor
  · intro h
    obtain ⟨_, _, hblock | ⟨_, hrec⟩⟩ := h
    · exact absurd (hb.symm.trans hblock) Bool.false_ne_true
    · exact hrec
  · exact fun h => ⟨hrel, hw, Or.inr ⟨hcheck, h⟩⟩

/-- Any other login is rejected for its name only. -/
theorem rejects_iff_of_not_checks {history : List (Login String String)} {i : AuthSucceedInput}
    (hi : ¬ (loginPolicy g).Checks i.login) : (loginPolicy g).Rejects history i.login ↔
      i.login.relevant = true ∧ (loginPolicy g).white i.workstationName = false ∧
        (loginPolicy g).block i.workstationName = true := by
  constructor
  · intro h
    obtain ⟨hrel, hw, hb | ⟨hcheck, _⟩⟩ := h
    · exact ⟨hrel, hw, hb⟩
    · refine ⟨hrel, hw, ?_⟩
      by_contra hb
      exact hi ⟨hrel, hw, Bool.eq_false_iff.mpr hb, hcheck⟩
  · exact fun h => ⟨h.1, h.2.1, Or.inl h.2.2⟩

/-- Where the records are looked up for the login, matching its name does not throw. -/
def NameReturns (g : ApplicationConfig B) (history : List (Login String String))
    (i : AuthSucceedInput) : Prop :=
  (loginPolicy g).Checks i.login → ∀ e,
    (loginPolicy g).record (history ++ [i.login]) i.userName = some e →
      ∃ found, regexIsMatchString B e i.workstationName = .ok found

section Decision
variable {history : List (Login String String)} {i : AuthSucceedInput}

theorem loginReturns_iff : LoginReturns g history i ↔ NameReturns g history i ∧
    ((loginPolicy g).Rejects history i.login → WhitelistReturns g i.ipAddress) := by
  unfold NameReturns
  simp only [regexIsMatchString_eq_ok, exists_and_left]
  constructor
  · intro h
    exact ⟨fun hi e he => ⟨h.1 hi e he, h.2.name hi e he⟩, h.2.address⟩
  · intro h
    exact ⟨fun hi e he => (h.1 hi e he).1, fun hi e he => (h.1 hi e he).2, h.2⟩

/-- The thread carries out the rejections, and lets the other logins through. -/
theorem decision_of_nameReturns (hname : NameReturns g history i) :
    ((loginPolicy g).Rejects history i.login ∧ decision g history i = rejection g i) ∨
      ¬ (loginPolicy g).Rejects history i.login ∧ decision g history i = .ok none := by
  unfold decision
  by_cases hi : (loginPolicy g).Checks i.login
  · rw [if_pos hi, rejects_iff_of_checks hi]
    unfold decisionOn
    cases hrec : (loginPolicy g).record (history ++ [i.login]) i.userName with
    | none =>
      refine Or.inl ⟨fun e he => ?_, rfl⟩
      cases he
    | some e =>
      obtain ⟨found, hm⟩ := hname hi e hrec
      have hallows : (loginPolicy g).allows e i.workstationName = found := by
        change decide (B.regexSearch e i.workstationName = some true) = found
        rw [(regexIsMatchString_eq_ok.mp hm).2]
        cases found <;> rfl
      dsimp only
      rw [hm]
      cases found with
      | true =>
        refine Or.inr ⟨fun h => ?_, rfl⟩
        exact Bool.false_ne_true ((h e rfl).symm.trans hallows)
      | false =>
        refine Or.inl ⟨fun e' he => ?_, rfl⟩
        cases he
        exact hallows
  · rw [if_neg hi, rejects_iff_of_not_checks hi]
    split_ifs with h
    · exact Or.inl ⟨h, rfl⟩
    · exact Or.inr ⟨h, rfl⟩

theorem decision_of_not_nameReturns (hname : ¬ NameReturns g history i) :
    ∃ err, decision g history i = .error err := by
  unfold NameReturns at hname
  push Not at hname
  obtain ⟨hi, e, hrec, hm⟩ := hname
  unfold decision
  rw [if_pos hi, hrec]
  unfold decisionOn
  dsimp only
  cases herr : regexIsMatchString B e i.workstationName with
  | ok found => exact absurd herr (hm found)
  | error err => exact ⟨err, rfl⟩

/-- The iteration returns exactly when nothing throws at its login. -/
theorem decision_isOk_iff : (decision g history i).isOk = true ↔ LoginReturns g history i := by
  rw [loginReturns_iff]
  by_cases hname : NameReturns g history i
  · rw [and_iff_right hname]
    rcases decision_of_nameReturns hname with ⟨hrej, hd⟩ | ⟨hrej, hd⟩
    · rw [hd, rejection_isOk_iff]
      exact ⟨fun h _ => h, fun h => h hrej⟩
    · rw [hd]
      exact iff_of_true rfl fun h => absurd h hrej
  · obtain ⟨err, hd⟩ := decision_of_not_nameReturns hname
    rw [hd]
    exact iff_of_false Bool.false_ne_true fun h => hname h.1

/-- What the thread requests, it requests as a rejection of the policy. -/
theorem decision_eq_some {request : BlockRequest}
    (hd : decision g history i = .ok (some request)) :
    (loginPolicy g).Rejects history i.login ∧ rejection g i = .ok (some request) := by
  by_cases hname : NameReturns g history i
  · rcases decision_of_nameReturns hname with ⟨hrej, heq⟩ | ⟨_, heq⟩
    · exact ⟨hrej, heq.symm.trans hd⟩
    · cases heq.symm.trans hd
  · obtain ⟨err, heq⟩ := decision_of_not_nameReturns hname
    cases heq.symm.trans hd

end Decision

/-- The decision on a login depends on the logins of its user. -/
theorem decision_filter (history : List (Login String String)) (i : AuthSucceedInput) :
    decision g (history.filter fun l => decide (l.user = i.userName)) i = decision g history i := by
  unfold decision
  rw [LoginPolicy.record_append, LoginPolicy.record_append, LoginPolicy.record_filter]

/-- A rejection becomes a request when the address is valid and not whitelisted. -/
theorem rejection_eq_some {i : AuthSucceedInput} {request : BlockRequest} :
    rejection g i = .ok (some request) ↔ isVaildIpAddress B i.ipAddress = true ∧
      g.mIpConfig.isWhiteAddress i.ipAddress = .ok false ∧
        request = ⟨i.ipAddress, g.mBlock.blockTime i.randomDelay⟩ := by
  unfold rejection blockRemoteAddressesWhenLoginSucceed
  cases isVaildIpAddress B i.ipAddress with
  | false => simp
  | true =>
    rcases g.mIpConfig.isWhiteAddress i.ipAddress with err | _ | _ <;> simp [eq_comm]

theorem AuthSucceedState.step_of_alive {s : AuthSucceedState B} (hs : s.alive = true)
    (i : AuthSucceedInput) :
    s.step i =
      let result := processRdpAuthSucceedEvent s.gConfig i
      (⟨result.1, result.2.isOk⟩, result.2.toOption.join) := by
  unfold AuthSucceedState.step
  rw [if_pos hs]
  rcases processRdpAuthSucceedEvent s.gConfig i with ⟨c, err | request⟩ <;> rfl

theorem AuthSucceedState.step_of_not_alive {s : AuthSucceedState B} (hs : ¬ s.alive = true)
    (i : AuthSucceedInput) : s.step i = (s, none) := if_neg hs

/-- A step of the living thread, as the policy sees it. -/
theorem Records.step {history : List (Login String String)} {s : AuthSucceedState B}
    (hc : Records g history s.gConfig) (hs : s.alive = true) (i : AuthSucceedInput) :
    Records g (history ++ [i.login]) (s.step i).1.gConfig ∧
      (s.step i).1.alive = (decision g history i).isOk ∧
      (s.step i).2 = (decision g history i).toOption.join := by
  obtain ⟨hrec, hdec⟩ := hc.process i
  rw [AuthSucceedState.step_of_alive hs]
  exact ⟨hrec, by rw [← hdec], by rw [← hdec]⟩

theorem authSucceedState_snoc (g : ApplicationConfig B) (events : List AuthSucceedInput)
    (i : AuthSucceedInput) :
    authSucceedState g (events ++ [i]) = ((authSucceedState g events).step i).1 :=
  Mealy.final_snoc _ _ _ _

theorem authSucceedTrace_snoc (g : ApplicationConfig B) (events : List AuthSucceedInput)
    (i : AuthSucceedInput) :
    authSucceedTrace g (events ++ [i]) = authSucceedTrace g events ++
      [Mealy.transition AuthSucceedState.step (authSucceedState g events) i] :=
  Mealy.trace_snoc _ _ _ _

theorem alive_of_snoc {events : List AuthSucceedInput} {i : AuthSucceedInput}
    (h : (authSucceedState g (events ++ [i])).alive = true) :
    (authSucceedState g events).alive = true := by
  by_contra hn
  rw [authSucceedState_snoc, AuthSucceedState.step_of_not_alive hn] at h
  exact hn h

/-- While the thread lives, its configuration carries the policy. -/
theorem records_authSucceedState {events : List AuthSucceedInput}
    (halive : (authSucceedState g events).alive = true) :
    Records g (logins events) (authSucceedState g events).gConfig := by
  induction events using List.reverseRecOn with
  | nil => exact Records.start g
  | append_singleton events i ih =>
    have hpast := alive_of_snoc halive
    rw [authSucceedState_snoc, logins_snoc]
    exact ((ih hpast).step hpast i).1

/-- The thread survives an event when nothing throws at it. -/
theorem alive_snoc_iff {events : List AuthSucceedInput} {i : AuthSucceedInput}
    (halive : (authSucceedState g events).alive = true) :
    (authSucceedState g (events ++ [i])).alive = true ↔ LoginReturns g (logins events) i := by
  rw [authSucceedState_snoc, ((records_authSucceedState halive).step halive i).2.1,
    decision_isOk_iff]

/-- Nothing throws at any event of the run. -/
def LoginsReturn (g : ApplicationConfig B) (events : List AuthSucceedInput) : Prop :=
  AtEach (fun past i => LoginReturns g (logins past) i) events

/-- The thread lives exactly as long as nothing throws at its events. -/
theorem alive_authSucceedState_iff {events : List AuthSucceedInput} :
    (authSucceedState g events).alive = true ↔ LoginsReturn g events := by
  unfold LoginsReturn
  induction events using List.reverseRecOn with
  | nil => exact iff_of_true rfl (atEach_nil _)
  | append_singleton events i ih =>
    rw [atEach_concat, ← ih]
    constructor
    · intro h
      have halive := alive_of_snoc h
      exact ⟨halive, (alive_snoc_iff halive).mp h⟩
    · intro h
      exact (alive_snoc_iff h.1).mpr h.2

/-- Where no search gets too complex, none at a login does. -/
theorem searchesReturn_of_total (hB : ∀ p s, ∃ found, B.regexSearch p s = some found)
    (history : List (Login String String)) (i : AuthSucceedInput) : SearchesReturn g history i := by
  refine ⟨fun _ e _ => hB e i.workstationName, fun _ _ => ?_⟩
  have hmatch : ∀ expression ∈ g.mIpConfig.mWhitelist, regexIsMatch expression i.ipAddress =
      .ok ((B.regexSearch expression.expression i.ipAddress).getD false) := by
    intro expression _
    obtain ⟨found, hfound⟩ := hB expression.expression i.ipAddress
    rw [regexIsMatch_eq_ok, hfound]
    rfl
  exact ⟨_, anyM_eq_ok hmatch⟩

theorem Boost.NeverThrows.loginReturns (hB : B.NeverThrows)
    (history : List (Login String String)) (i : AuthSucceedInput) : LoginReturns g history i :=
  ⟨fun _ e _ => (hB e).1, searchesReturn_of_total (fun p => (hB p).2) history i⟩

theorem Boost.NeverThrows.alive_authSucceedState (hB : B.NeverThrows)
    (events : List AuthSucceedInput) : (authSucceedState g events).alive = true :=
  alive_authSucceedState_iff.mpr fun past i _ _ => hB.loginReturns (logins past) i

theorem Boost.NeverThrows.decision_of_rejects (hB : B.NeverThrows)
    {history : List (Login String String)} {i : AuthSucceedInput}
    (hrej : (loginPolicy g).Rejects history i.login) : decision g history i = rejection g i := by
  have hname : NameReturns g history i := (loginReturns_iff.mp (hB.loginReturns history i)).1
  rcases decision_of_nameReturns hname with ⟨_, hd⟩ | ⟨hnot, _⟩
  · exact hd
  · exact absurd hrej hnot

/-- What the living thread requests at an event is the policy's decision. -/
theorem request_of_alive {events : List AuthSucceedInput}
    (halive : (authSucceedState g events).alive = true) (i : AuthSucceedInput) :
    ((authSucceedState g events).step i).2 = (decision g (logins events) i).toOption.join :=
  ((records_authSucceedState halive).step halive i).2.2

/-- Every request is a rejection, also when the run ends in an exception later. -/
theorem rejects_of_request {events : List AuthSucceedInput} {i : AuthSucceedInput}
    {request : BlockRequest} (hr : ((authSucceedState g events).step i).2 = some request) :
    (loginPolicy g).Rejects (logins events) i.login ∧ rejection g i = .ok (some request) := by
  by_cases halive : (authSucceedState g events).alive = true
  · rw [request_of_alive halive] at hr
    exact decision_eq_some (eq_ok_some_of_join hr)
  · rw [AuthSucceedState.step_of_not_alive halive] at hr
    cases hr

end RDPBlocker
