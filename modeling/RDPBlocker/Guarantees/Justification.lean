import RDPBlocker.Program.System
import RDPBlocker.Refinement.LoginPolicy

/-! Every rule goes back to one event of its own that justifies it. -/
namespace RDPBlocker
open Foundation Spec
variable {B : Boost} {g : ApplicationConfig B} {T : Type*} [AddGroupWithOne T] [LinearOrder T]

/-- The events of the succeeded-login thread. -/
def loginEvents (g : ApplicationConfig B) (actions : List (SystemAction T)) :
    List AuthSucceedInput :=
  threadEvents g.mWorkstationNameConfig.mEnableCheck SystemAction.login? actions

/-- The address may be blocked because of the action: an event that a thread processes after the
actions before it. -/
def Justifies (mode : RemoveMode) (s : System B T) (past : List (SystemAction T))
    (a : SystemAction T) (address : String) : Prop :=
  isVaildIpAddress B address = true ∧
    (∀ expression ∈ s.gConfig.mIpConfig.mWhitelist, regexIsMatch expression address = .ok false) ∧
    match a with
    | .authFailed i _ => (s.run mode past).FailBanRuns ∧ address = i.ipAddress ∧
        (∀ st, (s.run mode past).remoteAddressMap.lookup address = some st →
          st.isBlocked i.now = false) ∧
        ∃ st, (s.run mode (past ++ [a])).remoteAddressMap.lookup address = some st ∧
          s.gConfig.mFailBan.mThreshold ≤ st.getCount
    | .authSucceed i _ => (s.run mode past).NameCheckRuns ∧ address = i.ipAddress ∧
        i.logonType = "3" ∧
        (loginPolicy s.gConfig).Rejects (logins (loginEvents s.gConfig past)) i.login
    | .io _ => False

namespace System

/-- One login, seen by the policy, whether or not the thread runs. -/
theorem records_step_authSucceed {mode : RemoveMode} {s : System B T}
    {actions : List (SystemAction T)} (hs : Records g (logins (loginEvents g actions)) s.gConfig)
    (halive : s.io.alive = true) (i : AuthSucceedInput) (letters : RandomLetters) :
    Records g (logins (loginEvents g (actions ++ [.authSucceed i letters])))
      (s.step mode (.authSucceed i letters)).gConfig := by
  have hsame : s.gConfig.mWorkstationNameConfig.mEnableCheck =
      g.mWorkstationNameConfig.mEnableCheck := by
    obtain ⟨table, heq, _⟩ := hs
    rw [heq]
    rfl
  by_cases henable : g.mWorkstationNameConfig.mEnableCheck = true
  · have hruns : s.NameCheckRuns := ⟨halive, hsame.trans henable⟩
    have hsnoc : loginEvents g (actions ++ [.authSucceed i letters]) = loginEvents g actions ++ [i] :=
      threadEvents_snoc_of_some henable actions rfl
    have hprocess := (hs.process i).1
    rw [hsnoc, logins_snoc]
    rw [step_authSucceed hruns, gConfig_finish]
    exact hprocess
  · have hidle : ¬ s.NameCheckRuns := fun hr => henable (hsame.symm.trans hr.2)
    rw [step_authSucceed_idle hidle]
    unfold loginEvents at hs ⊢
    rw [threadEvents_disabled henable] at hs ⊢
    exact hs

/-- While the process lives, the configuration carries the login policy. -/
theorem records_run (mode : RemoveMode) {s : System B T} {actions : List (SystemAction T)}
    (halive : (s.run mode actions).io.alive = true) :
    Records s.gConfig (logins (loginEvents s.gConfig actions)) (s.run mode actions).gConfig := by
  induction actions using List.reverseRecOn with
  | nil =>
    unfold loginEvents
    rw [threadEvents_nil]
    exact Records.start s.gConfig
  | append_singleton actions a ih =>
    rw [run_snoc] at halive ⊢
    have hpast := ih (alive_of_step halive)
    cases a with
    | authFailed i letters =>
      unfold loginEvents at hpast ⊢
      rw [threadEvents_snoc_of_none _ _ rfl]
      by_cases h : (s.run mode actions).FailBanRuns
      · rw [step_authFailed h, gConfig_finish]
        exact hpast
      · rw [step_authFailed_idle h]
        exact hpast
    | authSucceed i letters =>
      exact records_step_authSucceed hpast (alive_of_step halive) i letters
    | io step =>
      unfold loginEvents at hpast ⊢
      rw [threadEvents_snoc_of_none _ _ rfl]
      exact hpast

/-- A request of the failed-login thread comes from a failure that reaches the threshold while
the record is not blocked. -/
theorem authFailed_justifies {mode : RemoveMode} {s : System B T} {past : List (SystemAction T)}
    {i : AuthFailedInput} {letters : RandomLetters} {r : BlockRequest}
    (hr : (s.run mode past).request (.authFailed i letters) = some r) :
    Justifies mode s past (.authFailed i letters) r.remoteAddress := by
  by_cases h : (s.run mode past).FailBanRuns
  · have hreq : (processRdpAuthFailedEvent (s.run mode past).gConfig
        (s.run mode past).remoteAddressMap i).2.toOption.join = some r :=
      (if_pos h).symm.trans hr
    obtain ⟨hA, haddr, hresult⟩ := request_process hreq
    obtain ⟨table, hg, _⟩ := records_run mode h.1
    have hlookup := lookup_process hA (s.run mode past).remoteAddressMap i
    rw [if_pos rfl] at hlookup
    unfold failureResult at hresult hlookup
    dsimp only at hresult hlookup
    split_ifs at hresult hlookup with hc
    obtain ⟨hcount, hblocked⟩ := hc
    have hwhite := isWhiteAddress_eq_false.mp hA.2
    have hfailBan : (s.run mode past).gConfig.mFailBan = s.gConfig.mFailBan := by
      rw [hg]
      rfl
    rw [hg] at hwhite
    rw [hfailBan] at hcount
    rw [haddr]
    refine ⟨hA.1, hwhite, h, rfl, fun st hst => ?_, ?_⟩
    · by_contra hb
      have hsurv : survives i.now st = true := by
        unfold survives
        rw [(Bool.not_eq_false _).mp hb]
        rfl
      rw [hst, Option.filter_some_pos hsurv] at hblocked
      exact hb hblocked
    · rw [run_snoc, step_authFailed h, remoteAddressMap_finish]
      exact ⟨_, hlookup, hcount⟩
  · cases (if_neg h).symm.trans hr

theorem authSucceed_justifies {mode : RemoveMode} {s : System B T} {past : List (SystemAction T)}
    {i : AuthSucceedInput} {letters : RandomLetters} {r : BlockRequest}
    (hr : (s.run mode past).request (.authSucceed i letters) = some r) :
    Justifies mode s past (.authSucceed i letters) r.remoteAddress := by
  by_cases h : (s.run mode past).NameCheckRuns
  · have hreq : (processRdpAuthSucceedEvent (s.run mode past).gConfig i).2.toOption.join = some r :=
      (if_pos h).symm.trans hr
    rw [((records_run mode h.1).process i).2] at hreq
    obtain ⟨hrej, hsome⟩ := decision_eq_some (eq_ok_some_of_join hreq)
    obtain ⟨hv, hw, rfl⟩ := rejection_eq_some.mp hsome
    exact ⟨hv, isWhiteAddress_eq_false.mp hw, h, rfl, (relevant_login.mp hrej.1).1, hrej⟩
  · cases (if_neg h).symm.trans hr

/-- Every task goes back to the one action that created it. -/
theorem task_origin (mode : RemoveMode) (g : ApplicationConfig B) (now : T)
    (present : List FirewallRule) {actions : List (SystemAction T)}
    {task : BlockRemoteAddressTask T}
    (ht : task ∈ ((start g now present).run mode actions).io.tasks) :
    ∃ past a later, actions = past ++ a :: later ∧
      ((start g now present).run mode past).io.tasks.length = task.id ∧
      Justifies mode (start g now present) past a task.blockAddress := by
  induction actions using List.reverseRecOn with
  | nil => cases ht
  | append_singleton actions a ih =>
    have hold : task ∈ ((start g now present).run mode actions).io.tasks →
        ∃ past b later, actions ++ [a] = past ++ b :: later ∧
          ((start g now present).run mode past).io.tasks.length = task.id ∧
          Justifies mode (start g now present) past b task.blockAddress := by
      intro h
      obtain ⟨past, b, later, hsplit, hid, hjust⟩ := ih h
      exact ⟨past, b, later ++ [a], by rw [hsplit, List.append_assoc, List.cons_append], hid, hjust⟩
    rw [run_snoc] at ht
    rcases tasks_step mode ((start g now present).run mode actions) a with
      heq | ⟨r, new, hr, hid, haddr, heq⟩
    · rw [heq] at ht
      exact hold ht
    · rw [heq] at ht
      rcases List.mem_append.mp ht with ht | ht
      · exact hold ht
      · rw [List.mem_singleton.mp ht, haddr]
        refine ⟨actions, a, [], rfl, hid.symm, ?_⟩
        cases a with
        | authFailed i letters => exact authFailed_justifies hr
        | authSucceed i letters => exact authSucceed_justifies hr
        | io step => cases hr

end System

/-- However the three threads interleave and whatever the firewall answers, the rules ever added
go back to distinct events, each of which justifies its rule. -/
theorem every_rule_is_justified (mode : RemoveMode) (g : ApplicationConfig B) (now : T)
    (present : List FirewallRule) (actions : List (SystemAction T)) :
    ∃ origin : Fin ((System.start g now present).run mode actions).io.rules.added.length →
        Fin actions.length,
      Function.Injective origin ∧ ∀ k, Justifies mode (System.start g now present)
        (actions.take (origin k)) (actions.get (origin k))
        (((System.start g now present).run mode actions).io.rules.added.get k).remoteAddresses := by
  have hi := System.invariant_run mode g now present actions
  obtain ⟨tasks, hrules, hsub⟩ := hi.added
  have hnodup : tasks.Nodup := (nodup_blockedTasks hi.nodup_executed).sublist hsub
  have hcreated : ∀ k, tasks.get k ∈
      ((System.start g now present).run mode actions).io.tasks := by
    intro k
    have hblock := mem_blockedTasks.mp (hsub.subset (tasks.get_mem k))
    exact hi.mem_tasks (Or.inl (List.mem_append_left _ (List.mem_append_left _ hblock)))
  have horigin : ∀ k, ∃ n : Fin actions.length,
      ((System.start g now present).run mode (actions.take n)).io.tasks.length =
          (tasks.get k).id ∧
        Justifies mode (System.start g now present) (actions.take n) (actions.get n)
          (tasks.get k).blockAddress := by
    intro k
    obtain ⟨past, a, later, hsplit, hid, hjust⟩ :=
      System.task_origin mode g now present (hcreated k)
    refine ⟨⟨past.length, by simp [hsplit]⟩, ?_⟩
    have htake : actions.take past.length = past := by simp [hsplit]
    have hget : actions.get ⟨past.length, by simp [hsplit]⟩ = a := by simp [hsplit]
    rw [htake, hget]
    exact ⟨hid, hjust⟩
  choose origin hid hjust using horigin
  have hlength : ((System.start g now present).run mode actions).io.rules.added.length =
      tasks.length := by rw [hrules, List.length_map]
  refine ⟨fun k => origin (k.cast hlength), fun k l hkl => ?_, fun k => ?_⟩
  · have hids := hid (k.cast hlength)
    dsimp only at hkl
    rw [hkl, hid (l.cast hlength)] at hids
    have htask := hi.eq_of_id_eq (hcreated _) (hcreated _) hids
    have hval : (k.cast hlength).val = (l.cast hlength).val :=
      congrArg Fin.val (hnodup.injective_get htask.symm)
    exact Fin.ext hval
  · have hget : (((System.start g now present).run mode actions).io.rules.added.get k) =
        (tasks.get (k.cast hlength)).rule := by
      simp [hrules]
    rw [hget]
    exact hjust (k.cast hlength)

end RDPBlocker
