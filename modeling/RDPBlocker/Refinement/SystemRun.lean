import RDPBlocker.Foundation.Mealy
import RDPBlocker.Guarantees.FirewallCalls
import RDPBlocker.Guarantees.Restart
import RDPBlocker.Refinement.LoginPolicy

/-! Along any run of the system the configuration changes in its bind table only, and the rules of
the machine are what the handlers that have run made of them, whichever of their calls failed. -/
namespace RDPBlocker
open Foundation
variable {B : Boost} {T : Type*}

theorem processRdpAuthSucceedEvent_withBindTable (g : ApplicationConfig B)
    (table : AList fun _ : String => String) (i : AuthSucceedInput) :
    ∃ table', (processRdpAuthSucceedEvent (g.withBindTable table) i).1 =
      g.withBindTable table' := by
  by_cases hi : (loginPolicy g).Checks i.login
  · rw [process_of_checks table hi]
    exact ⟨_, rfl⟩
  · rw [process_of_not_checks table [] hi]
    exact ⟨table, rfl⟩

def Handler.task : Handler T → BlockRemoteAddressTask T
  | .block task | .unblock task => task

/-- A handler that has run, with the results of its calls. -/
abbrev HandlerRun (T : Type*) := Handler T × ComResults

/-- A block handler with these results adds its rule. -/
def adds (hr : ComResults) : Bool :=
  hr .createPolicy && hr .getRules && hr .createRule && ruleCalls.all hr

/-- An unblock handler with these results removes its rule. -/
def removes (hr : ComResults) : Bool := hr .createPolicy && hr .getRules && hr .remove

theorem adds_iff {hr : ComResults} : adds hr = true ↔ hr .createPolicy = true ∧
    hr .getRules = true ∧ hr .createRule = true ∧ ∀ c ∈ ruleCalls, hr c = true := by
  unfold adds
  simp only [Bool.and_eq_true, List.all_eq_true, and_assoc]

theorem removes_iff {hr : ComResults} : removes hr = true ↔
    hr .createPolicy = true ∧ hr .getRules = true ∧ hr .remove = true := by
  unfold removes
  simp only [Bool.and_eq_true, and_assoc]

/-- What is left of the rules after a handler. -/
def HandlerRun.apply (mode : RemoveMode) (rules : FirewallRules) : HandlerRun T → FirewallRules
  | (.block task, hr) => if adds hr = true then rules.add task.rule else rules
  | (.unblock task, hr) => if removes hr = true then rules.remove mode task.ruleName else rules

/-- Only the rules of the result are looked at; a handler that ends the process leaves them. -/
theorem Handler.exec_apply (mode : RemoveMode) (hr : ComResults) (rules : FirewallRules)
    (h : Handler T) : h.exec mode hr rules = .ok (HandlerRun.apply mode rules (h, hr)) ∨
      (∃ e, h.exec mode hr rules = .error e) ∧ HandlerRun.apply mode rules (h, hr) = rules := by
  cases h with
  | unblock task =>
    refine Or.inl (congrArg Except.ok ?_)
    simp only [deleteRuleByName, getFireWallPolicy, getFireWallRules, HandlerRun.apply,
      removes_iff]
    by_cases hpolicy : hr .createPolicy = true
    · by_cases hrules : hr .getRules = true
      · simp [hpolicy, hrules]
      · simp [hpolicy, hrules]
    · simp [hpolicy]
  | block task =>
    simp only [Handler.exec, HandlerRun.apply, adds_iff]
    by_cases hpolicy : hr .createPolicy = true
    · by_cases hrules : hr .getRules = true
      · by_cases hrule : hr .createRule = true
        · rw [blockInboundIP_of_rule hpolicy hrules hrule]
          simp only [hpolicy, hrules, hrule, true_and]
          exact Or.inl rfl
        · rw [blockInboundIP_of_no_rule hpolicy hrules (Bool.not_eq_true _ ▸ hrule),
            if_neg fun h => hrule h.2.2.1]
          exact Or.inr ⟨⟨_, rfl⟩, rfl⟩
      · rw [blockInboundIP_of_unavailable (Or.inr (Bool.not_eq_true _ ▸ hrules)),
          if_neg fun h => hrules h.2.1]
        exact Or.inl rfl
    · rw [blockInboundIP_of_unavailable (Or.inl (Bool.not_eq_true _ ▸ hpolicy)),
        if_neg fun h => hpolicy h.1]
      exact Or.inl rfl

theorem IoState.rules_runHandler {mode : RemoveMode} {hr : ComResults} {s : IoState T}
    {h : Handler T} {loop : EventLoop T (Handler T)} (hn : s.loop.next? = some (h, loop)) :
    (s.runHandler mode hr).rules = HandlerRun.apply mode s.rules (h, hr) ∧
      (s.runHandler mode hr).executed = s.executed ++ [h] := by
  have hran : loop.ran.map Prod.snd = s.executed ++ [h] := by
    obtain ⟨rest, -, rfl⟩ := EventLoop.next?_eq_some hn
    exact List.map_append
  unfold IoState.runHandler
  rw [hn]
  dsimp only
  rcases h.exec_apply mode hr s.rules with hexec | ⟨⟨e, hexec⟩, happly⟩
  · rw [hexec]
    exact ⟨rfl, hran⟩
  · rw [hexec]
    exact ⟨happly.symm, hran⟩

namespace System

/-- The handler that the action runs. -/
def handles (s : System B T) : SystemAction T → Option (HandlerRun T)
  | .io (.run hr) => if s.io.alive = true then s.io.loop.next?.map fun x => (x.1, hr) else none
  | _ => none

variable [AddGroupWithOne T] [LinearOrder T]

/-- The handlers that a run runs, oldest first. -/
def handled (mode : RemoveMode) (s : System B T) (actions : List (SystemAction T)) :
    List (HandlerRun T) :=
  (Mealy.trace (fun s a => (s.step mode a, s.handles a)) s actions).filterMap (·.output)

theorem handled_snoc (mode : RemoveMode) (s : System B T) (actions : List (SystemAction T))
    (a : SystemAction T) : s.handled mode (actions ++ [a]) =
      s.handled mode actions ++ ((s.run mode actions).handles a).toList := by
  unfold handled
  rw [Mealy.trace_snoc, List.filterMap_append]
  rfl

/-- The results of a handler are those of its action. -/
theorem run_mem_of_handled {mode : RemoveMode} {s : System B T} {actions : List (SystemAction T)}
    {x : HandlerRun T} (hx : x ∈ s.handled mode actions) :
    SystemAction.io (.run x.2) ∈ actions := by
  induction actions using List.reverseRecOn with
  | nil => cases hx
  | append_singleton actions a ih =>
    rw [handled_snoc] at hx
    rcases List.mem_append.mp hx with hx | hx
    · exact List.mem_append_left _ (ih hx)
    · apply List.mem_append_right
      rw [List.mem_singleton]
      rw [Option.mem_toList] at hx
      unfold handles at hx
      split at hx
      · split_ifs at hx
        obtain ⟨y, -, rfl⟩ := Option.map_eq_some_iff.mp hx
        rfl
      · cases hx

variable {mode : RemoveMode} {s : System B T}

omit [LinearOrder T] in
theorem rules_submit (letters : RandomLetters) (request : Option BlockRequest) (s : System B T) :
    (submit letters request s).io.rules = s.io.rules ∧
      (submit letters request s).io.executed = s.io.executed := by
  cases request with
  | none => exact ⟨rfl, rfl⟩
  | some r =>
    change (createBlockRemoteAddressTasks _ _ _ _ s.io).rules = _ ∧
      (createBlockRemoteAddressTasks _ _ _ _ s.io).executed = _
    by_cases hpos : 0 < r.blockTime
    · rw [createBlockRemoteAddressTasks_of_pos s.io hpos]
      exact ⟨rfl, rfl⟩
    · rw [createBlockRemoteAddressTasks_of_not_pos s.io hpos]
      exact ⟨rfl, rfl⟩

omit [LinearOrder T] in
theorem rules_finish (letters : RandomLetters)
    (result : Except MatchException (Option BlockRequest)) (s : System B T) :
    (finish letters result s).io.rules = s.io.rules ∧
      (finish letters result s).io.executed = s.io.executed := by
  cases result with
  | ok request => exact rules_submit letters request s
  | error err => exact ⟨rfl, rfl⟩

/-- A step changes the rules by the handler that it runs. -/
theorem rules_step (mode : RemoveMode) (s : System B T) (a : SystemAction T) :
    (s.step mode a).io.rules =
        (s.handles a).toList.foldl (HandlerRun.apply mode) s.io.rules ∧
      (s.step mode a).io.executed = s.io.executed ++ (s.handles a).toList.map Prod.fst := by
  have hsame : ∀ {io : IoState T}, io.rules = s.io.rules ∧ io.executed = s.io.executed →
      io.rules = ([] : List (HandlerRun T)).foldl (HandlerRun.apply mode) s.io.rules ∧
        io.executed = s.io.executed ++ ([] : List (HandlerRun T)).map Prod.fst :=
    fun h => ⟨h.1, h.2.trans (List.append_nil _).symm⟩
  cases a with
  | authFailed i letters =>
    refine hsame ?_
    by_cases h : s.FailBanRuns
    · rw [step_authFailed h]
      exact rules_finish ..
    · rw [step_authFailed_idle h]
      exact ⟨rfl, rfl⟩
  | authSucceed i letters =>
    refine hsame ?_
    by_cases h : s.NameCheckRuns
    · rw [step_authSucceed h]
      exact rules_finish ..
    · rw [step_authSucceed_idle h]
      exact ⟨rfl, rfl⟩
  | io step =>
    change (s.io.step mode step).rules = _ ∧ (s.io.step mode step).executed = _
    unfold IoState.step
    by_cases halive : s.io.alive = true
    · rw [if_pos halive]
      cases step with
      | advance t => exact hsame ⟨rfl, rfl⟩
      | expire k =>
        refine hsame ⟨rfl, ?_⟩
        unfold IoState.executed
        rw [EventLoop.ran_expire]
      | run hr =>
        dsimp only [handles]
        rw [if_pos halive]
        cases hn : s.io.loop.next? with
        | none =>
          refine hsame ?_
          unfold IoState.runHandler
          rw [hn]
          exact ⟨rfl, rfl⟩
        | some x => exact IoState.rules_runHandler hn
    · rw [if_neg halive]
      cases step with
      | run hr =>
        dsimp only [handles]
        rw [if_neg halive]
        exact hsame ⟨rfl, rfl⟩
      | _ => exact hsame ⟨rfl, rfl⟩

/-- The rules of the machine are the record of the handlers that have run. -/
theorem rules_run (mode : RemoveMode) (s : System B T) (actions : List (SystemAction T)) :
    (s.run mode actions).io.rules =
        (s.handled mode actions).foldl (HandlerRun.apply mode) s.io.rules ∧
      (s.run mode actions).io.executed =
        s.io.executed ++ (s.handled mode actions).map Prod.fst := by
  induction actions using List.reverseRecOn with
  | nil => exact ⟨rfl, (List.append_nil _).symm⟩
  | append_singleton actions a ih =>
    obtain ⟨hrules, hexecuted⟩ := (s.run mode actions).rules_step mode a
    rw [run_snoc, handled_snoc, List.foldl_append, List.map_append, ← List.append_assoc, ← ih.1,
      ← ih.2]
    exact ⟨hrules, hexecuted⟩

theorem gConfig_step (mode : RemoveMode) (s : System B T) (a : SystemAction T) :
    ∃ table, (s.step mode a).gConfig = s.gConfig.withBindTable table := by
  cases a with
  | authFailed i letters =>
    refine ⟨s.gConfig.mWorkstationNameConfig.mBindTable, ?_⟩
    by_cases h : s.FailBanRuns
    · rw [step_authFailed h]
      exact gConfig_finish ..
    · rw [step_authFailed_idle h]
      rfl
  | authSucceed i letters =>
    by_cases h : s.NameCheckRuns
    · obtain ⟨table, htable⟩ := processRdpAuthSucceedEvent_withBindTable s.gConfig
        s.gConfig.mWorkstationNameConfig.mBindTable i
      rw [step_authSucceed h, gConfig_finish]
      exact ⟨table, htable⟩
    · rw [step_authSucceed_idle h]
      exact ⟨s.gConfig.mWorkstationNameConfig.mBindTable, rfl⟩
  | io step => exact ⟨s.gConfig.mWorkstationNameConfig.mBindTable, rfl⟩

theorem gConfig_run (mode : RemoveMode) (s : System B T) (actions : List (SystemAction T)) :
    ∃ table, (s.run mode actions).gConfig = s.gConfig.withBindTable table := by
  induction actions using List.reverseRecOn with
  | nil => exact ⟨s.gConfig.mWorkstationNameConfig.mBindTable, rfl⟩
  | append_singleton actions a ih =>
    obtain ⟨table, htable⟩ := ih
    obtain ⟨table', htable'⟩ := (s.run mode actions).gConfig_step mode a
    rw [run_snoc, htable', htable]
    exact ⟨table', rfl⟩

omit [LinearOrder T] in
theorem named_submit {s : System B T} (hs : s.io.Named s.gConfig.mRulePrefix)
    (letters : RandomLetters) (request : Option BlockRequest) :
    (submit letters request s).io.Named s.gConfig.mRulePrefix := by
  rcases tasks_submit letters request s with heq | ⟨r, -, -, heq⟩
  · intro task ht
    rw [heq] at ht
    exact hs task ht
  · intro task ht
    rw [heq] at ht
    rcases List.mem_append.mp ht with ht | ht
    · exact hs task ht
    · rw [List.mem_singleton.mp ht, newTask, String.toList_append]
      exact List.prefix_append _ _

omit [LinearOrder T] in
theorem named_finish {s : System B T} (hs : s.io.Named s.gConfig.mRulePrefix)
    (letters : RandomLetters) (result : Except MatchException (Option BlockRequest)) :
    (finish letters result s).io.Named s.gConfig.mRulePrefix := by
  cases result with
  | ok request => exact named_submit hs letters request
  | error err => exact hs

theorem named_step (hs : s.io.Named s.gConfig.mRulePrefix) (a : SystemAction T) :
    (s.step mode a).io.Named s.gConfig.mRulePrefix := by
  cases a with
  | authFailed i letters =>
    by_cases h : s.FailBanRuns
    · rw [step_authFailed h]
      exact named_finish (s := { s with remoteAddressMap :=
        (processRdpAuthFailedEvent s.gConfig s.remoteAddressMap i).1 }) hs letters _
    · rw [step_authFailed_idle h]
      exact hs
  | authSucceed i letters =>
    by_cases h : s.NameCheckRuns
    · let s' := { s with gConfig := (processRdpAuthSucceedEvent s.gConfig i).1 }
      obtain ⟨table, htable⟩ := s.gConfig_step mode (.authSucceed i letters)
      rw [step_authSucceed h, gConfig_finish] at htable
      have hsame : s'.gConfig.mRulePrefix = s.gConfig.mRulePrefix :=
        congrArg (·.mRulePrefix) htable
      rw [step_authSucceed h, ← hsame]
      rw [← hsame] at hs
      exact named_finish (s := s') hs letters _
    · rw [step_authSucceed_idle h]
      exact hs
  | io step =>
    intro task ht
    have htasks : (s.step mode (.io step)).io.tasks = s.io.tasks := s.io.tasks_step mode step
    rw [htasks] at ht
    exact hs task ht

/-- Every rule that a run of the system adds has a name with the prefix of the configuration. -/
theorem named_run (mode : RemoveMode) {s : System B T} (hs : s.io.Named s.gConfig.mRulePrefix)
    (actions : List (SystemAction T)) :
    (s.run mode actions).io.Named s.gConfig.mRulePrefix := by
  induction actions using List.reverseRecOn with
  | nil => exact hs
  | append_singleton actions a ih =>
    obtain ⟨table, htable⟩ := s.gConfig_run mode actions
    have hsame : (s.run mode actions).gConfig.mRulePrefix = s.gConfig.mRulePrefix :=
      congrArg (·.mRulePrefix) htable
    rw [run_snoc, ← hsame]
    exact named_step (hsame ▸ ih) a

theorem inSync_submit {s : System B T} {foreign : List FirewallRule} (hs : s.io.InSync foreign)
    (letters : RandomLetters) (request : Option BlockRequest) :
    (submit letters request s).io.InSync foreign := by
  cases request with
  | none => exact hs
  | some r => exact hs.create s.gConfig.mRulePrefix letters r.remoteAddress r.blockTime

/-- An iteration that does not end the process keeps the rules in step. -/
theorem inSync_finish {s : System B T} {foreign : List FirewallRule} (hs : s.io.InSync foreign)
    (letters : RandomLetters) {result : Except MatchException (Option BlockRequest)}
    (halive : (finish letters result s).io.alive = true) :
    (finish letters result s).io.InSync foreign := by
  cases result with
  | ok request => exact inSync_submit hs letters request
  | error err => cases halive

theorem inSync_step {s : System B T} {foreign : List FirewallRule} (hs : s.io.InSync foreign)
    (hi : s.io.Invariant) (hn : FreshNames foreign s.io.tasks) {a : SystemAction T}
    (ha : ∀ hr, a = .io (.run hr) → hr = allSucceed)
    (halive : (s.step mode a).io.alive = true) : (s.step mode a).io.InSync foreign := by
  cases a with
  | authFailed i letters =>
    by_cases h : s.FailBanRuns
    · rw [step_authFailed h] at halive ⊢
      exact inSync_finish (s := { s with remoteAddressMap :=
        (processRdpAuthFailedEvent s.gConfig s.remoteAddressMap i).1 }) hs letters halive
    · rw [step_authFailed_idle h]
      exact hs
  | authSucceed i letters =>
    by_cases h : s.NameCheckRuns
    · rw [step_authSucceed h] at halive ⊢
      exact inSync_finish (s := { s with gConfig :=
        (processRdpAuthSucceedEvent s.gConfig i).1 }) hs letters halive
    · rw [step_authSucceed_idle h]
      exact hs
  | io step =>
    have hcalls : ∀ hr, TaskAction.io step = .io (.run hr) → hr = allSucceed := by
      intro hr h
      cases h
      exact ha hr rfl
    exact hs.act hi hn s.gConfig.mRulePrefix mode hcalls

/-- While the process lives and every call succeeds, the rules are those of the live tasks. -/
theorem inSync_run {mode : RemoveMode} {g : ApplicationConfig B} {now : T}
    {foreign : List FirewallRule} {actions : List (SystemAction T)}
    (halive : ((start g now foreign).run mode actions).io.alive = true)
    (hsucceed : ∀ hr, SystemAction.io (.run hr) ∈ actions → hr = allSucceed)
    (hn : FreshNames foreign ((start g now foreign).run mode actions).io.tasks) :
    ((start g now foreign).run mode actions).io.InSync foreign := by
  induction actions using List.reverseRecOn with
  | nil => exact IoState.InSync.start now
  | append_singleton past a ih =>
    rw [run_snoc] at halive hn ⊢
    have hpast : FreshNames foreign ((start g now foreign).run mode past).io.tasks := by
      rcases tasks_step mode ((start g now foreign).run mode past) a with heq | ⟨_, _, _, _, _, heq⟩
      · rw [heq] at hn
        exact hn
      · rw [heq] at hn
        exact hn.of_append
    have hsync := ih (alive_of_step halive)
      (fun hr h => hsucceed hr (List.mem_append_left _ h)) hpast
    exact inSync_step hsync (invariant_run mode g now foreign past) hpast
      (fun hr h => hsucceed hr (by simp [h])) halive

end System
end RDPBlocker
