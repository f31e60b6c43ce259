import RDPBlocker.Program.Instances
import RDPBlocker.Program.Main

/-! Processes of the program on one machine, which share the named mutex and the rules of the
firewall. The system calls of their starts interleave. -/
namespace RDPBlocker
open Foundation Function
variable {P : Type*} {B : Boost} {S : Spdlog} {T : Type*}

/-- The first pass of `DeleteRulesByRegex`: the names that the second pass removes. -/
def collectNames (B : Boost) (hr : ComResults) (calls : EnumResults)
    (enumerated : List FirewallRule) (expr : String) : Except MatchException (List String) :=
  if haccept : B.regexAccepts expr = true then
    if getFireWallPolicy hr = false then .ok []
    else if getFireWallRules hr = false then .ok []
    else if calls.getCount = false then .ok []
    else if calls.newEnum = false then .ok []
    else if calls.queryVariant = false then .ok []
    else waitDelete calls ⟨expr, haccept⟩ enumerated
  else .error (.invalid ⟨expr⟩)

/-- The rules of the machine after one `Remove` of the second pass. -/
def removeOne (mode : RemoveMode) (present : List FirewallRule) (call : String × Bool) :
    List FirewallRule :=
  if call.2 = true then (FirewallRules.remove mode ⟨present, []⟩ call.1).present else present

section Cleaning
variable {hr : ComResults} {calls : EnumResults} {enumerated : List FirewallRule} {expr : String}
  {names : List String}

theorem collectNames_eq (findExpr : Regex B) (hr : ComResults) (calls : EnumResults)
    (enumerated : List FirewallRule) :
    collectNames B hr calls enumerated findExpr.expression =
      if calls.opens hr = true then waitDelete calls findExpr enumerated else .ok [] :=
  (dif_pos findExpr.accepted).trans (calls.ite_opens hr _ _)

/-- The cleaning is its first pass, and then the removals. -/
theorem deleteRulesByRegex_eq_collectNames (mode : RemoveMode) (rules : FirewallRules) :
    ∃ ok, deleteRulesByRegex B mode hr calls enumerated expr rules =
      (collectNames B hr calls enumerated expr).map fun names =>
        (ok, removeNames mode calls names rules) := by
  by_cases haccept : B.regexAccepts expr = true
  · have hdelete := deleteRulesByRegex_eq mode ⟨expr, haccept⟩ hr calls enumerated rules
    have hcollect := collectNames_eq ⟨expr, haccept⟩ hr calls enumerated
    dsimp only at hdelete hcollect
    rw [hdelete, hcollect]
    refine ⟨calls.opens hr, ?_⟩
    cases calls.opens hr <;> rfl
  · unfold deleteRulesByRegex collectNames
    rw [dif_neg haccept, dif_neg haccept]
    exact ⟨true, rfl⟩

theorem deleteRulesByRegex_of_collectNames
    (h : collectNames B hr calls enumerated expr = .ok names) (mode : RemoveMode)
    (results : ℕ → Bool) (rules : FirewallRules) :
    ∃ ok, deleteRulesByRegex B mode hr { calls with remove := results } enumerated expr rules =
      .ok (ok, removeNames mode { calls with remove := results } names rules) := by
  have hsame : collectNames B hr { calls with remove := results } enumerated expr = .ok names := h
  obtain ⟨ok, heq⟩ :
      ∃ ok, deleteRulesByRegex B mode hr { calls with remove := results } enumerated expr rules =
        (collectNames B hr { calls with remove := results } enumerated expr).map fun names =>
          (ok, removeNames mode { calls with remove := results } names rules) :=
    deleteRulesByRegex_eq_collectNames mode rules
  rw [hsame] at heq
  exact ⟨ok, heq⟩

theorem foldl_zipIdx_removeOne (mode : RemoveMode) {names : List String} {results : List Bool}
    (hlength : names.length = results.length) (f : ℕ → Bool) (k : ℕ)
    (hf : ∀ i, i < results.length → f (k + i) = results.getD i true) (present : List FirewallRule) :
    (names.zipIdx k).foldl
        (fun rules (name, n) => if f n = true then FirewallRules.remove mode rules name else rules)
        ⟨present, []⟩ =
      ⟨(names.zip results).foldl (removeOne mode) present, []⟩ := by
  induction names generalizing results k present with
  | nil => rfl
  | cons name names ih =>
    cases results with
    | nil => cases hlength
    | cons result results =>
      have hfirst : f k = result := hf 0 (Nat.succ_pos _)
      have hone : (if f k = true then FirewallRules.remove mode ⟨present, []⟩ name
          else ⟨present, []⟩) = ⟨removeOne mode present (name, result), []⟩ := by
        rw [hfirst]
        unfold removeOne
        cases result <;> cases mode <;> rfl
      rw [List.zipIdx_cons, List.foldl_cons, List.zip_cons_cons, List.foldl_cons]
      dsimp only
      rw [hone]
      refine ih (Nat.succ.inj hlength) (k + 1) (fun i hi => ?_) _
      have hnext := hf (i + 1) (Nat.succ_lt_succ hi)
      rw [List.getD_cons_succ, ← Nat.add_assoc, Nat.add_right_comm] at hnext
      exact hnext

/-- The second pass, as the removals that it makes. -/
theorem removeNames_eq_foldl (mode : RemoveMode) (calls : EnumResults) {names : List String}
    {results : List Bool} (hlength : names.length = results.length)
    (present : List FirewallRule) :
    removeNames mode { calls with remove := fun n => results.getD n true } names ⟨present, []⟩ =
      ⟨(names.zip results).foldl (removeOne mode) present, []⟩ :=
  foldl_zipIdx_removeOne mode hlength _ 0 (fun i _ => by rw [Nat.zero_add]) present

end Cleaning

/-- Where a process stands in `main`. -/
inductive ProcessStage (B : Boost) (S : Spdlog) (T : Type*)
  /-- There is no process: the last one has ended in this way, or it was killed, or there has been
  none. -/
  | ended (how : Option ProcessEnd)
  /-- `OpenMutexW` has not found the object, and `CreateMutexW` comes next. -/
  | creating (g : LoadedConfig B S)
  /-- `lock` has returned `false`. -/
  | refused
  | locked (g : LoadedConfig B S)
  /-- The names are those it has not removed yet. -/
  | cleaning (g : LoadedConfig B S) (names : List String)
  | running (s : System B T)

/-- `lock` has returned `true`. -/
def ProcessStage.isPastLock : ProcessStage B S T → Bool
  | locked _ | cleaning _ _ | running _ => true
  | _ => false

structure Machine (P : Type*) (B : Boost) (S : Spdlog) (T : Type*) where
  instances : Instances P
  present : List FirewallRule
  stage : P → ProcessStage B S T
  /-- History: the system calls on the mutex, oldest first. -/
  mutexLog : List (MutexAction P)

inductive MachineAction (P T : Type*)
  /-- A new process, up to `OpenMutexW`. -/
  | launch (p : P) (calls : MainCalls)
  | create (p : P) (calls : MutexCalls)
  /-- The checks after the mutex, and the first pass over the rules. -/
  | collect (p : P) (calls : MainCalls)
  /-- One `Remove` of the second pass. -/
  | remove (p : P) (succeeds : Bool)
  | startThreads (p : P) (now : T)
  | act (p : P) (a : SystemAction T)
  /-- The process ends by itself. -/
  | exit (p : P)
  | kill (p : P)

def MachineAction.process : MachineAction P T → P
  | .launch p _ | .create p _ | .collect p _ | .remove p _ | .startThreads p _ | .act p _
  | .exit p | .kill p => p

/-- The actions of a running process. -/
def MachineAction.ownAction? [DecidableEq P] (p : P) : MachineAction P T → Option (SystemAction T)
  | .act q a => if q = p then some a else none
  | _ => none

/-- The results of the removals of a process. -/
def MachineAction.ownRemoval? [DecidableEq P] (p : P) : MachineAction P T → Option Bool
  | .remove q succeeds => if q = p then some succeeds else none
  | _ => none

/-- A process finds the rules as the machine has them. -/
def System.onRules (s : System B T) (present : List FirewallRule) : System B T :=
  { s with io := { s.io with rules := { s.io.rules with present := present } } }

namespace Machine
variable [DecidableEq P] (Y : YamlCpp) (mode : RemoveMode) (g : LoadedConfig B S)

omit [DecidableEq P] in
def start (present : List FirewallRule) : Machine P B S T :=
  ⟨Instances.start, present, fun _ => .ended none, []⟩

def setStage (s : Machine P B S T) (p : P) (stage : ProcessStage B S T) : Machine P B S T :=
  { s with stage := update s.stage p stage }

/-- A system call on the mutex, and where it leads the process. -/
def mutexStep (s : Machine P B S T) (a : MutexAction P)
    (next : Instances P → ProcessStage B S T) : Option (Machine P B S T) :=
  (s.instances.step a).map fun instances =>
    { s with
      instances := instances
      stage := update s.stage a.process (next instances)
      mutexLog := s.mutexLog ++ [a] }

/-- The system closes the handle of a process that ends. -/
def endProcess (s : Machine P B S T) (p : P) (how : Option ProcessEnd) :
    Option (Machine P B S T) :=
  s.mutexStep (.destroy p) fun _ => .ended how

variable [AddGroupWithOne T] [LinearOrder T]

/-- `none` where the process is not there yet, or stands at another place. -/
def step (s : Machine P B S T) : MachineAction P T → Option (Machine P B S T)
  | .launch p calls =>
    match s.stage p with
    | .ended _ =>
      match prepare Y calls g with
      | .error e => some (s.setStage p (.ended (some e)))
      | .ok g =>
        -- A check that cannot open the object counts as one that finds it.
        if calls.mutex.openFails = true then some (s.setStage p .refused)
        else s.mutexStep (.probe p) fun instances =>
          if instances.creating p = true then .creating g else .refused
    | _ => none
  | .create p calls =>
    match s.stage p with
    | .creating g =>
      -- Without a new handle the mutex is as it is after a close.
      if calls.createFails = true then s.mutexStep (.destroy p) fun _ => .refused
      else s.mutexStep (.create p) fun _ => .locked g
    | _ => none
  | .collect p calls =>
    match s.stage p with
    | .locked g =>
      match checkSystem calls with
      | .error e => s.endProcess p (some e)
      | .ok () =>
        match collectNames B calls.cleanup calls.enum calls.enumerated g.mRulePrefix with
        | .error _ => s.endProcess p (some .terminate)
        | .ok names => some (s.setStage p (.cleaning g names))
    | _ => none
  | .remove p succeeds =>
    match s.stage p with
    | .cleaning g (name :: names) =>
      some { s.setStage p (.cleaning g names) with
        present := removeOne mode s.present (name, succeeds) }
    | _ => none
  | .startThreads p now =>
    match s.stage p with
    | .cleaning g [] =>
      some (s.setStage p (.running (System.start g.toApplicationConfig now s.present)))
    | _ => none
  | .act p a =>
    match s.stage p with
    | .running sys =>
      let sys := (sys.onRules s.present).step mode a
      some { s.setStage p (.running sys) with present := sys.io.rules.present }
    | _ => none
  | .exit p =>
    match s.stage p with
    | .refused => s.endProcess p (some (.exit ApplicationExitCode.failed.value))
    | .running sys => if sys.io.alive = true then none else s.endProcess p (some .terminate)
    | _ => none
  | .kill p =>
    match s.stage p with
    | .ended _ => none
    | _ => s.endProcess p none

def run (s : Machine P B S T) (actions : List (MachineAction P T)) : Option (Machine P B S T) :=
  actions.foldlM (step Y mode g) s

theorem run_concat_eq_some {s t : Machine P B S T} {actions : List (MachineAction P T)}
    {a : MachineAction P T} : s.run Y mode g (actions ++ [a]) = some t ↔
      ∃ u, s.run Y mode g actions = some u ∧ u.step Y mode g a = some t := by
  unfold run
  rw [List.foldlM_append]
  simp only [List.foldlM_cons, List.foldlM_nil]
  exact Option.bind_eq_some_iff.trans (by simp)

end Machine
end RDPBlocker
