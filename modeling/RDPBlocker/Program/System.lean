import RDPBlocker.Program.AuthFailed
import RDPBlocker.Program.AuthSucceed
import RDPBlocker.Program.TaskInvariant

/-! The two event threads and the io thread, on one configuration and one `io_context`. -/
namespace RDPBlocker
open Foundation
variable {B : Boost} {T : Type*}

structure System (B : Boost) (T : Type*) where
  gConfig : ApplicationConfig B
  remoteAddressMap : AddressMap
  io : IoState T

/-- One iteration of one of the event threads, with the letters of the rule name that it would
draw, or a step of the rest. -/
inductive SystemAction (T : Type*)
  | authFailed (i : AuthFailedInput) (letters : RandomLetters)
  | authSucceed (i : AuthSucceedInput) (letters : RandomLetters)
  | io (step : IoStep T)

section Events
variable {ι : Type*}

def SystemAction.failure? : SystemAction T → Option AuthFailedInput
  | .authFailed i _ => some i
  | _ => none

def SystemAction.login? : SystemAction T → Option AuthSucceedInput
  | .authSucceed i _ => some i
  | _ => none

/-- The events of one of the event threads in a run, when the configuration starts it. -/
def threadEvents (enabled : Bool) (event? : SystemAction T → Option ι)
    (actions : List (SystemAction T)) : List ι :=
  if enabled = true then actions.filterMap event? else []

theorem threadEvents_disabled {enabled : Bool} (h : ¬ enabled = true)
    (event? : SystemAction T → Option ι) (actions : List (SystemAction T)) :
    threadEvents enabled event? actions = [] := if_neg h

theorem threadEvents_nil (enabled : Bool) (event? : SystemAction T → Option ι) :
    threadEvents enabled event? [] = [] := by
  unfold threadEvents
  split_ifs <;> rfl

theorem threadEvents_snoc_of_none (enabled : Bool) {event? : SystemAction T → Option ι}
    (actions : List (SystemAction T)) {a : SystemAction T} (ha : event? a = none) :
    threadEvents enabled event? (actions ++ [a]) = threadEvents enabled event? actions := by
  unfold threadEvents
  rw [List.filterMap_append, List.filterMap_cons_none ha, List.filterMap_nil, List.append_nil]

theorem threadEvents_snoc_of_some {enabled : Bool} (h : enabled = true)
    {event? : SystemAction T → Option ι} (actions : List (SystemAction T)) {a : SystemAction T}
    {i : ι} (ha : event? a = some i) :
    threadEvents enabled event? (actions ++ [a]) = threadEvents enabled event? actions ++ [i] := by
  unfold threadEvents
  rw [if_pos h, if_pos h, List.filterMap_append, List.filterMap_cons_some ha, List.filterMap_nil]

end Events

namespace System

/-- The state in which `main` starts the threads. -/
def start (g : ApplicationConfig B) (now : T) (present : List FirewallRule) : System B T :=
  ⟨g, ∅, IoState.start now present⟩

/-- The process has ended. -/
def ended (s : System B T) : System B T := { s with io := { s.io with alive := false } }

/-- The call of `create_block_remote_address_tasks` that the action makes. -/
def request (s : System B T) : SystemAction T → Option BlockRequest
  | .authFailed i _ =>
    if s.io.alive = true ∧ s.gConfig.mFailBan.mEnable = true then
      (processRdpAuthFailedEvent s.gConfig s.remoteAddressMap i).2.toOption.join
    else none
  | .authSucceed i _ =>
    if s.io.alive = true ∧ s.gConfig.mWorkstationNameConfig.mEnableCheck = true then
      (processRdpAuthSucceedEvent s.gConfig i).2.toOption.join
    else none
  | .io _ => none

variable [AddGroupWithOne T]

def submit (letters : RandomLetters) (request : Option BlockRequest) (s : System B T) :
    System B T :=
  match request with
  | none => s
  | some ⟨remoteAddress, blockTime⟩ =>
    { s with
      io := createBlockRemoteAddressTasks s.gConfig.mRulePrefix letters remoteAddress blockTime
        s.io }

/-- The end of an iteration. An exception leaves the loop of the thread and ends the process. -/
def finish (letters : RandomLetters) (result : Except MatchException (Option BlockRequest))
    (s : System B T) : System B T :=
  match result with
  | .ok request => submit letters request s
  | .error _ => s.ended

variable [LinearOrder T]

/-- `main` starts a thread only when the configuration enables it. What the iteration wrote before
an exception stays written. -/
def step (mode : RemoveMode) (s : System B T) : SystemAction T → System B T
  | .authFailed i letters =>
    if s.io.alive = true ∧ s.gConfig.mFailBan.mEnable = true then
      let (remoteAddressMap, result) := processRdpAuthFailedEvent s.gConfig s.remoteAddressMap i
      finish letters result { s with remoteAddressMap := remoteAddressMap }
    else s
  | .authSucceed i letters =>
    if s.io.alive = true ∧ s.gConfig.mWorkstationNameConfig.mEnableCheck = true then
      let (g, result) := processRdpAuthSucceedEvent s.gConfig i
      finish letters result { s with gConfig := g }
    else s
  | .io step => { s with io := s.io.step mode step }

def run (mode : RemoveMode) (s : System B T) (actions : List (SystemAction T)) : System B T :=
  actions.foldl (step mode) s

theorem run_snoc (mode : RemoveMode) (s : System B T) (actions : List (SystemAction T))
    (a : SystemAction T) : s.run mode (actions ++ [a]) = (s.run mode actions).step mode a := by
  unfold run
  rw [List.foldl_append]
  rfl

/-- The failed-login thread runs. -/
def FailBanRuns (s : System B T) : Prop := s.io.alive = true ∧ s.gConfig.mFailBan.mEnable = true

/-- The succeeded-login thread runs. -/
def NameCheckRuns (s : System B T) : Prop :=
  s.io.alive = true ∧ s.gConfig.mWorkstationNameConfig.mEnableCheck = true

section Equations
variable {mode : RemoveMode} {s : System B T} {letters : RandomLetters}

theorem step_authFailed (h : s.FailBanRuns) (i : AuthFailedInput) :
    s.step mode (.authFailed i letters) =
      finish letters (processRdpAuthFailedEvent s.gConfig s.remoteAddressMap i).2
        { s with remoteAddressMap :=
            (processRdpAuthFailedEvent s.gConfig s.remoteAddressMap i).1 } := if_pos h

theorem step_authFailed_idle (h : ¬ s.FailBanRuns) (i : AuthFailedInput) :
    s.step mode (.authFailed i letters) = s := if_neg h

theorem step_authSucceed (h : s.NameCheckRuns) (i : AuthSucceedInput) :
    s.step mode (.authSucceed i letters) =
      finish letters (processRdpAuthSucceedEvent s.gConfig i).2
        { s with gConfig := (processRdpAuthSucceedEvent s.gConfig i).1 } := if_pos h

theorem step_authSucceed_idle (h : ¬ s.NameCheckRuns) (i : AuthSucceedInput) :
    s.step mode (.authSucceed i letters) = s := if_neg h

end Equations

omit [LinearOrder T] in
/-- Submitting a request adds at most one task, at the end. -/
theorem tasks_submit (letters : RandomLetters) (request : Option BlockRequest) (s : System B T) :
    (submit letters request s).io.tasks = s.io.tasks ∨ ∃ r, request = some r ∧ 0 < r.blockTime ∧
      (submit letters request s).io.tasks = s.io.tasks ++
        [newTask s.gConfig.mRulePrefix letters r.remoteAddress r.blockTime s.io] := by
  cases request with
  | none => exact Or.inl rfl
  | some r =>
    by_cases hpos : 0 < r.blockTime
    · right
      refine ⟨r, rfl, hpos, ?_⟩
      change (createBlockRemoteAddressTasks _ _ _ _ s.io).tasks = _
      rw [createBlockRemoteAddressTasks_of_pos s.io hpos]
    · left
      change (createBlockRemoteAddressTasks _ _ _ _ s.io).tasks = _
      rw [createBlockRemoteAddressTasks_of_not_pos s.io hpos]

omit [LinearOrder T] in
theorem finish_cases (letters : RandomLetters)
    (result : Except MatchException (Option BlockRequest)) (s : System B T) :
    (∃ request, result = .ok request ∧ finish letters result s = submit letters request s) ∨
      result.toOption.join = none ∧ finish letters result s = s.ended := by
  cases result with
  | ok request => exact Or.inl ⟨request, rfl, rfl⟩
  | error err => exact Or.inr ⟨rfl, rfl⟩

omit [LinearOrder T] in
theorem tasks_finish (letters : RandomLetters)
    (result : Except MatchException (Option BlockRequest)) (s : System B T) :
    (finish letters result s).io.tasks = s.io.tasks ∨
      ∃ r, result.toOption.join = some r ∧ 0 < r.blockTime ∧
        (finish letters result s).io.tasks = s.io.tasks ++
          [newTask s.gConfig.mRulePrefix letters r.remoteAddress r.blockTime s.io] := by
  rcases finish_cases letters result s with ⟨request, rfl, heq⟩ | ⟨-, heq⟩
  · rw [heq]
    exact tasks_submit letters request s
  · rw [heq]
    exact Or.inl rfl

/-- A step adds no task, or the one that its action requests. -/
theorem tasks_step (mode : RemoveMode) (s : System B T) (a : SystemAction T) :
    (s.step mode a).io.tasks = s.io.tasks ∨ ∃ r task, s.request a = some r ∧
      task.id = s.io.tasks.length ∧ task.blockAddress = r.remoteAddress ∧
      (s.step mode a).io.tasks = s.io.tasks ++ [task] := by
  cases a with
  | authFailed i letters =>
    by_cases h : s.FailBanRuns
    · rw [step_authFailed h]
      rcases tasks_finish letters (processRdpAuthFailedEvent s.gConfig s.remoteAddressMap i).2
        { s with remoteAddressMap :=
            (processRdpAuthFailedEvent s.gConfig s.remoteAddressMap i).1 }
        with heq | ⟨r, hr, _, heq⟩
      · exact Or.inl heq
      · exact Or.inr ⟨r, _, (if_pos h).trans hr, rfl, rfl, heq⟩
    · rw [step_authFailed_idle h]
      exact Or.inl rfl
  | authSucceed i letters =>
    by_cases h : s.NameCheckRuns
    · rw [step_authSucceed h]
      rcases tasks_finish letters (processRdpAuthSucceedEvent s.gConfig i).2
        { s with gConfig := (processRdpAuthSucceedEvent s.gConfig i).1 } with
        heq | ⟨r, hr, _, heq⟩
      · exact Or.inl heq
      · exact Or.inr ⟨r, _, (if_pos h).trans hr, rfl, rfl, heq⟩
    · rw [step_authSucceed_idle h]
      exact Or.inl rfl
  | io step => exact Or.inl (s.io.tasks_step mode step)

omit [LinearOrder T] in
@[simp] theorem gConfig_submit (letters : RandomLetters) (request : Option BlockRequest)
    (s : System B T) : (submit letters request s).gConfig = s.gConfig := by
  cases request <;> rfl

omit [LinearOrder T] in
@[simp] theorem gConfig_finish (letters : RandomLetters)
    (result : Except MatchException (Option BlockRequest)) (s : System B T) :
    (finish letters result s).gConfig = s.gConfig := by
  cases result with
  | ok request => exact gConfig_submit letters request s
  | error err => rfl

omit [LinearOrder T] in
@[simp] theorem remoteAddressMap_submit (letters : RandomLetters) (request : Option BlockRequest)
    (s : System B T) : (submit letters request s).remoteAddressMap = s.remoteAddressMap := by
  cases request <;> rfl

omit [LinearOrder T] in
@[simp] theorem remoteAddressMap_finish (letters : RandomLetters)
    (result : Except MatchException (Option BlockRequest)) (s : System B T) :
    (finish letters result s).remoteAddressMap = s.remoteAddressMap := by
  cases result with
  | ok request => exact remoteAddressMap_submit letters request s
  | error err => rfl

/-- A process that has ended stays ended. -/
theorem alive_of_step {mode : RemoveMode} {s : System B T} {a : SystemAction T}
    (h : (s.step mode a).io.alive = true) : s.io.alive = true := by
  by_contra hn
  cases a with
  | authFailed i letters =>
    rw [step_authFailed_idle (fun hr => hn hr.1)] at h
    exact hn h
  | authSucceed i letters =>
    rw [step_authSucceed_idle (fun hr => hn hr.1)] at h
    exact hn h
  | io step =>
    change (s.io.step mode step).alive = true at h
    unfold IoState.step at h
    rw [if_neg hn] at h
    exact hn h

theorem invariant_finish {s : System B T} (hs : s.io.Invariant) (letters : RandomLetters)
    (result : Except MatchException (Option BlockRequest)) :
    (finish letters result s).io.Invariant := by
  rcases result with err | _ | r
  · exact ⟨hs.ids, hs.handlers, hs.blocksFirst, hs.timely, hs.timers, hs.added⟩
  · exact hs
  · exact hs.create s.gConfig.mRulePrefix letters r.remoteAddress r.blockTime

/-- The invariant of the `io_context` holds whatever the event threads do. -/
theorem invariant_step {s : System B T} (hs : s.io.Invariant) (mode : RemoveMode)
    (a : SystemAction T) : (s.step mode a).io.Invariant := by
  cases a with
  | authFailed i letters =>
    by_cases h : s.FailBanRuns
    · rw [step_authFailed h]
      exact invariant_finish (s := { s with remoteAddressMap :=
        (processRdpAuthFailedEvent s.gConfig s.remoteAddressMap i).1 }) hs letters _
    · rw [step_authFailed_idle h]
      exact hs
  | authSucceed i letters =>
    by_cases h : s.NameCheckRuns
    · rw [step_authSucceed h]
      exact invariant_finish (s := { s with gConfig :=
        (processRdpAuthSucceedEvent s.gConfig i).1 }) hs letters _
    · rw [step_authSucceed_idle h]
      exact hs
  | io step => exact hs.step mode step

theorem invariant_run (mode : RemoveMode) (g : ApplicationConfig B) (now : T)
    (present : List FirewallRule) (actions : List (SystemAction T)) :
    ((start g now present).run mode actions).io.Invariant := by
  induction actions using List.reverseRecOn with
  | nil => exact IoState.Invariant.start now present
  | append_singleton actions a ih =>
    rw [run_snoc]
    exact invariant_step ih mode a

end System
end RDPBlocker
