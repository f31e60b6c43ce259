import RDPBlocker.Refinement.LoginPolicy

/-! Over whole runs, the succeeded-login thread implements the documented policy. -/
namespace RDPBlocker
open Foundation Spec
variable {B : Boost} {g : ApplicationConfig B}

/-- The event binds its user to its workstation, unless the user has a record. -/
def BindsUser (g : ApplicationConfig B) (user : String) (i : AuthSucceedInput) : Prop :=
  i.userName = user ∧ i.logonType = "3" ∧ i.ipAddress ≠ "" ∧ i.ipAddress ≠ "-" ∧
    i.workstationName ∉ g.mWorkstationNameConfig.mWhitelist ∧
    i.workstationName ∉ g.mWorkstationNameConfig.mBlocklist

instance (g : ApplicationConfig B) (user : String) (i : AuthSucceedInput) :
    Decidable (BindsUser g user i) := inferInstanceAs (Decidable (_ ∧ _ ∧ _ ∧ _ ∧ _ ∧ _))

/-- The workstation of the first event of a run that binds the user. -/
def firstWorkstation (g : ApplicationConfig B) (events : List AuthSucceedInput) (user : String) :
    Option String :=
  if g.mWorkstationNameConfig.mCheckBind = true ∧ g.mWorkstationNameConfig.mAutoBind = true then
    (events.find? fun i => decide (BindsUser g user i)).map (·.workstationName)
  else none

/-- The record of a user that a run has to end with. -/
def documentedRecord (g : ApplicationConfig B) (events : List AuthSucceedInput) (user : String) :
    Option String :=
  match g.mWorkstationNameConfig.mBindTable.lookup user with
  | some configured => some configured
  | none => firstWorkstation g events user

/-- The event leads to a block task when it comes after the events before it. -/
def CreatesTask (g : ApplicationConfig B) (past : List AuthSucceedInput) (i : AuthSucceedInput) :
    Prop :=
  ∃ request, ((authSucceedState g past).step i).2 = some request ∧ 0 < request.blockTime

structure ImplementsPolicy (g : ApplicationConfig B) (events : List AuthSucceedInput) : Prop where
  table : ∀ user, (authSucceedState g events).gConfig.mWorkstationNameConfig.mBindTable.lookup user =
    documentedRecord g events user
  blocks : ∀ past i later, events = past ++ i :: later → (CreatesTask g past i ↔
    i.logonType = "3" ∧ i.ipAddress ≠ "" ∧ i.ipAddress ≠ "-" ∧
      isVaildIpAddress B i.ipAddress = true ∧ g.mIpConfig.isWhiteAddress i.ipAddress = .ok false ∧
      i.workstationName ∉ g.mWorkstationNameConfig.mWhitelist ∧
      (i.workstationName ∈ g.mWorkstationNameConfig.mBlocklist ∨
        g.mWorkstationNameConfig.mCheckBind = true ∧
          ∀ e, documentedRecord g (past ++ [i]) i.userName = some e →
            B.regexSearch e i.workstationName = some false))
  separate : ∀ user,
    ((authSucceedTrace g events).filter (·.input.userName = user)).map
        (fun x => (x.input, x.output)) =
      (authSucceedTrace g (events.filter (·.userName = user))).map (fun x => (x.input, x.output))

theorem binds_iff {user : String} {i : AuthSucceedInput} :
    (i.login.user = user ∧ (loginPolicy g).Binds i.login) ↔
      BindsUser g user i ∧ g.mWorkstationNameConfig.mCheckBind = true ∧
        g.mWorkstationNameConfig.mAutoBind = true := by
  have hw : (loginPolicy g).white i.login.name = false ↔
      i.workstationName ∉ g.mWorkstationNameConfig.mWhitelist := decide_eq_false_iff_not
  have hb : (loginPolicy g).block i.login.name = false ↔
      i.workstationName ∉ g.mWorkstationNameConfig.mBlocklist := decide_eq_false_iff_not
  unfold LoginPolicy.Binds LoginPolicy.Checks BindsUser
  rw [relevant_login, hw, hb]
  change (i.userName = user ∧ (_ ∧ _ ∧ _ ∧ g.mWorkstationNameConfig.mCheckBind = true) ∧
    g.mWorkstationNameConfig.mAutoBind = true) ↔ _
  tauto

theorem firstBinding_logins (events : List AuthSucceedInput) (user : String) :
    (loginPolicy g).firstBinding (logins events) user = firstWorkstation g events user := by
  unfold LoginPolicy.firstBinding logins firstWorkstation
  rw [List.find?_map, Option.map_map]
  split_ifs with h
  · congr 2
    funext i
    exact decide_eq_decide.mpr (binds_iff.trans ⟨fun hi => hi.1, fun hi => ⟨hi, h⟩⟩)
  · have hnone : (events.find? ((fun l => decide (l.user = user ∧ (loginPolicy g).Binds l)) ∘
        AuthSucceedInput.login)) = none := by
      rw [List.find?_eq_none]
      intro i _ hi
      exact h (binds_iff.mp (of_decide_eq_true hi)).2
    rw [hnone]
    rfl

/-- The records of the policy are the documented ones. -/
theorem record_logins (events : List AuthSucceedInput) (user : String) :
    (loginPolicy g).record (logins events) user = documentedRecord g events user := by
  unfold LoginPolicy.record documentedRecord
  rw [firstBinding_logins]
  change (g.mWorkstationNameConfig.mBindTable.lookup user).or
    ((firstWorkstation g events user).map id) = _
  rw [Option.map_id_fun, id]
  cases g.mWorkstationNameConfig.mBindTable.lookup user <;> rfl

theorem lookup_bindTable {events : List AuthSucceedInput}
    (halive : (authSucceedState g events).alive = true) (user : String) :
    (authSucceedState g events).gConfig.mWorkstationNameConfig.mBindTable.lookup user =
      documentedRecord g events user := by
  obtain ⟨table, heq, htable⟩ := records_authSucceedState halive
  rw [heq, ← record_logins]
  exact htable user

theorem rejects_iff (hB : B.NeverThrows) {past : List AuthSucceedInput} {i : AuthSucceedInput} :
    (loginPolicy g).Rejects (logins past) i.login ↔
      i.logonType = "3" ∧ i.ipAddress ≠ "" ∧ i.ipAddress ≠ "-" ∧
        i.workstationName ∉ g.mWorkstationNameConfig.mWhitelist ∧
        (i.workstationName ∈ g.mWorkstationNameConfig.mBlocklist ∨
          g.mWorkstationNameConfig.mCheckBind = true ∧
            ∀ e, documentedRecord g (past ++ [i]) i.userName = some e →
              B.regexSearch e i.workstationName = some false) := by
  have hw : (loginPolicy g).white i.login.name = false ↔
      i.workstationName ∉ g.mWorkstationNameConfig.mWhitelist := decide_eq_false_iff_not
  have hb : (loginPolicy g).block i.login.name = true ↔
      i.workstationName ∈ g.mWorkstationNameConfig.mBlocklist := decide_eq_true_iff
  have hallows : ∀ e, (loginPolicy g).allows e i.login.name = false ↔
      B.regexSearch e i.workstationName = some false := by
    intro e
    change decide (B.regexSearch e i.workstationName = some true) = false ↔ _
    obtain ⟨found, hfound⟩ := (hB e).2 i.workstationName
    rw [hfound]
    cases found <;> decide
  unfold LoginPolicy.Rejects
  simp only [hallows]
  rw [relevant_login, hw, hb, ← logins_snoc, record_logins]
  change ((_ ∧ _ ∧ _) ∧ _ ∧ (_ ∨ g.mWorkstationNameConfig.mCheckBind = true ∧
    ∀ e, documentedRecord g (past ++ [i]) i.userName = some e →
      B.regexSearch e i.workstationName = some false)) ↔ _
  tauto

/-- A request has a positive block time when the draw makes it so. -/
theorem createsTask_iff (hB : B.NeverThrows) {past : List AuthSucceedInput}
    {i : AuthSucceedInput} (hpos : 0 < g.mBlock.blockTime i.randomDelay) :
    CreatesTask g past i ↔ (loginPolicy g).Rejects (logins past) i.login ∧
      isVaildIpAddress B i.ipAddress = true ∧
        g.mIpConfig.isWhiteAddress i.ipAddress = .ok false := by
  unfold CreatesTask
  constructor
  · intro h
    obtain ⟨request, hr, _⟩ := h
    obtain ⟨hrej, hsome⟩ := rejects_of_request hr
    obtain ⟨hv, hw, _⟩ := rejection_eq_some.mp hsome
    exact ⟨hrej, hv, hw⟩
  · intro h
    obtain ⟨hrej, hv, hw⟩ := h
    refine ⟨⟨i.ipAddress, g.mBlock.blockTime i.randomDelay⟩, ?_, hpos⟩
    have hd := hB.decision_of_rejects hrej
    rw [rejection_eq_some.mpr ⟨hv, hw, rfl⟩] at hd
    rw [request_of_alive (hB.alive_authSucceedState past), hd]
    rfl

/-- The decisions for one user are the same with all events of other users deleted. -/
theorem trace_filter_userName (hB : B.NeverThrows) (events : List AuthSucceedInput)
    (user : String) :
    ((authSucceedTrace g events).filter (·.input.userName = user)).map
        (fun x => (x.input, x.output)) =
      (authSucceedTrace g (events.filter (·.userName = user))).map
        (fun x => (x.input, x.output)) := by
  refine Mealy.map_trace_filter AuthSucceedState.step ⟨g, true⟩
    (fun i => decide (i.userName = user)) (fun x => (x.input, x.output))
    fun before i after _ hi => Prod.ext rfl ?_
  have hown : logins (before.filter fun j => decide (j.userName = user)) =
      (logins before).filter fun l => decide (l.user = i.userName) := by
    unfold logins
    rw [of_decide_eq_true hi, List.filter_map]
    rfl
  change ((authSucceedState g before).step i).2 =
    ((authSucceedState g (before.filter fun j => decide (j.userName = user))).step i).2
  rw [request_of_alive (hB.alive_authSucceedState _),
    request_of_alive (hB.alive_authSucceedState _), hown, decision_filter]

/-- When matching never throws, every run implements the documented policy. -/
theorem logins_implement_policy (hB : B.NeverThrows) (g : ApplicationConfig B)
    (events : List AuthSucceedInput)
    (hpos : ∀ i ∈ events, 0 < g.mBlock.blockTime i.randomDelay) : ImplementsPolicy g events := by
  constructor
  · exact lookup_bindTable (hB.alive_authSucceedState events)
  · intro past i later hsplit
    have hi : i ∈ events := by
      rw [hsplit]
      exact List.mem_append_right _ List.mem_cons_self
    rw [createsTask_iff hB (hpos i hi), rejects_iff hB]
    tauto
  · exact trace_filter_userName hB events

/-- Literal search that takes every expression. -/
def Boost.literal : Boost := { Boost.plain with regexAccepts := fun _ => true }

theorem Boost.literal_neverThrows : Boost.literal.NeverThrows := fun _ => ⟨rfl, fun _ => ⟨_, rfl⟩⟩

/-- A login over the network. -/
def loginOf (user workstation address : String) : AuthSucceedInput :=
  ⟨0, (((∅ : EventAttr).insert "LogonType" "3").insert "TargetUserName" user).insert
    "WorkstationName" workstation |>.insert "IpAddress" address⟩

theorem logins_implement_policy_literal :
    ImplementsPolicy ({} : ApplicationConfig Boost.literal)
      [loginOf "alice" "PC1" "1.2.3.4", loginOf "bob" "PC2" "1.2.3.5",
        loginOf "alice" "PC2" "1.2.3.5"] :=
  logins_implement_policy Boost.literal_neverThrows {} _ (by decide)

end RDPBlocker
