import RDPBlocker.Guarantees.Restart
import RDPBlocker.Guarantees.SingleInstance
import RDPBlocker.Program.Machine

/-! What the steps of the processes of a machine do. The steps of one process, without the others,
are `main`. -/
namespace RDPBlocker
open Foundation Function
variable {P : Type*} [DecidableEq P] {B : Boost} {S : Spdlog} {T : Type*} [AddGroupWithOne T]
  [LinearOrder T] {Y : YamlCpp} {mode : RemoveMode} {g : LoadedConfig B S}

namespace Machine
variable {s s' : Machine P B S T} {a : MachineAction P T} {actions : List (MachineAction P T)}
  {p q : P}

omit [AddGroupWithOne T] [LinearOrder T] in
theorem mutexStep_eq_some {m : MutexAction P} {next : Instances P → ProcessStage B S T}
    (h : s.mutexStep m next = some s') : ∃ instances, s.instances.step m = some instances ∧
      s' = ⟨instances, s.present, update s.stage m.process (next instances),
        s.mutexLog ++ [m]⟩ := by
  obtain ⟨instances, hstep, rfl⟩ := Option.map_eq_some_iff.mp h
  exact ⟨instances, hstep, rfl⟩

/-- What a step of a process does, once for every kind. A system call on the mutex gets the process
past the lock only by a creation. -/
inductive Effect (Y : YamlCpp) (mode : RemoveMode) (g : LoadedConfig B S) (s : Machine P B S T) :
    MachineAction P T → Machine P B S T → Prop
  | unprepared {p : P} {calls : MainCalls} {e : ProcessEnd} :
      Effect Y mode g s (.launch p calls) (s.setStage p (.ended (some e)))
  | unopened {p : P} {calls : MainCalls} :
      Effect Y mode g s (.launch p calls) (s.setStage p .refused)
  | mutex {a : MachineAction P T} {m : MutexAction P} {next : Instances P → ProcessStage B S T}
      {s' : Machine P B S T} (hm : m.process = a.process) (h : s.mutexStep m next = some s')
      (hpast : ∀ instances, (next instances).isPastLock = true →
        m = .create a.process ∧ ∃ c, next instances = .locked c) : Effect Y mode g s a s'
  | collected {p : P} {calls : MainCalls} {c : LoadedConfig B S} {names : List String}
      (hstage : s.stage p = .locked c) (hcheck : checkSystem calls = .ok ())
      (hnames : collectNames B calls.cleanup calls.enum calls.enumerated c.mRulePrefix =
        .ok names) : Effect Y mode g s (.collect p calls) (s.setStage p (.cleaning c names))
  | removed {p : P} {succeeds : Bool} {c : LoadedConfig B S} {name : String} {names : List String}
      (hstage : s.stage p = .cleaning c (name :: names)) :
      Effect Y mode g s (.remove p succeeds) { s.setStage p (.cleaning c names) with
        present := removeOne mode s.present (name, succeeds) }
  | started {p : P} {now : T} {c : LoadedConfig B S} (hstage : s.stage p = .cleaning c []) :
      Effect Y mode g s (.startThreads p now)
        (s.setStage p (.running (System.start c.toApplicationConfig now s.present)))
  | acted {p : P} {x : SystemAction T} {sys : System B T} (hstage : s.stage p = .running sys) :
      Effect Y mode g s (.act p x)
        { s.setStage p (.running ((sys.onRules s.present).step mode x)) with
          present := ((sys.onRules s.present).step mode x).io.rules.present }

theorem effect_of_endProcess {how : Option ProcessEnd}
    (h : s.endProcess a.process how = some s') : s.Effect Y mode g a s' := by
  refine .mutex rfl h fun _ hpast => ?_
  cases hpast

theorem step_effect (h : s.step Y mode g a = some s') : s.Effect Y mode g a s' := by
  cases a with
  | launch p calls =>
    cases hstage : s.stage p with
    | ended =>
      simp only [step, hstage] at h
      cases hprepare : prepare Y calls g with
      | error e =>
        simp only [hprepare, Option.some.injEq] at h
        rw [← h]
        exact .unprepared
      | ok c =>
        simp only [hprepare] at h
        split_ifs at h with hopen
        · cases h
          exact .unopened
        · refine .mutex rfl h fun instances hpast => ?_
          split_ifs at hpast <;> cases hpast
    | _ => simp only [step, hstage, reduceCtorEq] at h
  | create p calls =>
    cases hstage : s.stage p with
    | creating c =>
      simp only [step, hstage] at h
      split_ifs at h
      · refine .mutex rfl h fun _ hpast => ?_
        cases hpast
      · exact .mutex rfl h fun _ _ => ⟨rfl, c, rfl⟩
    | _ => simp only [step, hstage, reduceCtorEq] at h
  | collect p calls =>
    cases hstage : s.stage p with
    | locked c =>
      simp only [step, hstage] at h
      cases hcheck : checkSystem calls with
      | error e =>
        simp only [hcheck] at h
        exact effect_of_endProcess h
      | ok =>
        simp only [hcheck] at h
        cases hnames : collectNames B calls.cleanup calls.enum calls.enumerated c.mRulePrefix with
        | error e =>
          simp only [hnames] at h
          exact effect_of_endProcess h
        | ok names =>
          simp only [hnames, Option.some.injEq] at h
          rw [← h]
          exact .collected hstage hcheck hnames
    | _ => simp only [step, hstage, reduceCtorEq] at h
  | remove p succeeds =>
    rcases hstage : s.stage p with _ | _ | _ | _ | ⟨c, _ | ⟨name, names⟩⟩ | _ <;>
      simp only [step, hstage, reduceCtorEq, Option.some.injEq] at h
    rw [← h]
    exact .removed hstage
  | startThreads p now =>
    rcases hstage : s.stage p with _ | _ | _ | _ | ⟨c, _ | ⟨name, names⟩⟩ | _ <;>
      simp only [step, hstage, reduceCtorEq, Option.some.injEq] at h
    rw [← h]
    exact .started hstage
  | act p x =>
    cases hstage : s.stage p with
    | running sys =>
      simp only [step, hstage, Option.some.injEq] at h
      rw [← h]
      exact .acted hstage
    | _ => simp only [step, hstage, reduceCtorEq] at h
  | exit p =>
    cases hstage : s.stage p with
    | refused =>
      simp only [step, hstage] at h
      exact effect_of_endProcess h
    | running sys =>
      simp only [step, hstage] at h
      split_ifs at h
      exact effect_of_endProcess h
    | _ => simp only [step, hstage, reduceCtorEq] at h
  | kill p =>
    cases hstage : s.stage p with
    | ended => simp only [step, hstage, reduceCtorEq] at h
    | _ =>
      simp only [step, hstage] at h
      exact effect_of_endProcess h

/-- A process moves on, and changes the rules only past the lock; or it makes a system call on the
mutex. -/
theorem Effect.stage_or_mutex (h : s.Effect Y mode g a s') :
    (∃ stage present, s' = { s.setStage a.process stage with present := present } ∧
        (stage.isPastLock = true → (s.stage a.process).isPastLock = true) ∧
        (present = s.present ∨ (s.stage a.process).isPastLock = true)) ∨
      ∃ m next, m.process = a.process ∧ s.mutexStep m next = some s' ∧
        ∀ instances, (next instances).isPastLock = true → m = .create a.process := by
  have hpast : ∀ {p : P} {stage : ProcessStage B S T}, s.stage p = stage →
      stage.isPastLock = true → (s.stage p).isPastLock = true := by
    intro p stage hstage hpast
    rw [hstage]
    exact hpast
  cases h with
  | @unprepared p _ e =>
    refine Or.inl ⟨.ended (some e), s.present, rfl, fun hlock => ?_, Or.inl rfl⟩
    cases hlock
  | unopened =>
    refine Or.inl ⟨.refused, s.present, rfl, fun hlock => ?_, Or.inl rfl⟩
    cases hlock
  | mutex hm hstep hnext => exact Or.inr ⟨_, _, hm, hstep, fun _ h => (hnext _ h).1⟩
  | collected hstage => exact Or.inl ⟨_, _, rfl, fun _ => hpast hstage rfl, Or.inl rfl⟩
  | removed hstage =>
    exact Or.inl ⟨_, _, rfl, fun _ => hpast hstage rfl, Or.inr (hpast hstage rfl)⟩
  | started hstage => exact Or.inl ⟨_, _, rfl, fun _ => hpast hstage rfl, Or.inl rfl⟩
  | acted hstage => exact Or.inl ⟨_, _, rfl, fun _ => hpast hstage rfl, Or.inr (hpast hstage rfl)⟩

omit [AddGroupWithOne T] [LinearOrder T] in
/-- A system call on the mutex does not lead into the cleaning, nor to the threads. -/
theorem stage_of_mutexStep {m : MutexAction P} {next : Instances P → ProcessStage B S T}
    (hm : m.process = a.process) (h : s.mutexStep m next = some s')
    (hnext : ∀ instances, (next instances).isPastLock = true →
      m = .create a.process ∧ ∃ c, next instances = .locked c)
    (hpast : (s'.stage a.process).isPastLock = true) : ∃ c, s'.stage a.process = .locked c := by
  obtain ⟨instances, -, rfl⟩ := mutexStep_eq_some h
  rw [← hm] at hpast ⊢
  simp only [update_self] at hpast ⊢
  exact (hnext instances hpast).2

/-- A process runs after a step of its own when it has started its threads, or has run before. -/
theorem running_of_step (h : s.step Y mode g a = some s') {sys' : System B T}
    (hrun : s'.stage a.process = .running sys') :
    (∃ p now c, a = .startThreads p now ∧ s.stage p = .cleaning c [] ∧
        sys' = System.start c.toApplicationConfig now s.present ∧ s'.present = s.present) ∨
      ∃ p x sys, a = .act p x ∧ s.stage p = .running sys ∧
        sys' = (sys.onRules s.present).step mode x ∧ s'.present = sys'.io.rules.present := by
  cases step_effect h with
  | mutex hm hstep hnext =>
    obtain ⟨c, hc⟩ := stage_of_mutexStep hm hstep hnext (by rw [hrun]; rfl)
    cases hrun.symm.trans hc
  | started hstage =>
    simp only [MachineAction.process, setStage, update_self, ProcessStage.running.injEq] at hrun
    exact Or.inl ⟨_, _, _, rfl, hstage, hrun.symm, rfl⟩
  | acted hstage =>
    simp only [MachineAction.process, setStage, update_self, ProcessStage.running.injEq] at hrun
    exact Or.inr ⟨_, _, _, rfl, hstage, hrun.symm, by rw [← hrun]⟩
  | _ => simp only [MachineAction.process, setStage, update_self, reduceCtorEq] at hrun

/-- A process is cleaning after a step of its own when it has collected the names, or has removed
one of them. -/
theorem cleaning_of_step (h : s.step Y mode g a = some s') {c : LoadedConfig B S}
    {names : List String} (hclean : s'.stage a.process = .cleaning c names) :
    (∃ p calls, a = .collect p calls ∧ s.stage p = .locked c ∧ checkSystem calls = .ok () ∧
        collectNames B calls.cleanup calls.enum calls.enumerated c.mRulePrefix = .ok names ∧
        s'.present = s.present) ∨
      ∃ p succeeds name, a = .remove p succeeds ∧ s.stage p = .cleaning c (name :: names) ∧
        s'.present = removeOne mode s.present (name, succeeds) := by
  cases step_effect h with
  | mutex hm hstep hnext =>
    obtain ⟨c, hc⟩ := stage_of_mutexStep hm hstep hnext (by rw [hclean]; rfl)
    cases hclean.symm.trans hc
  | collected hstage hcheck hnames =>
    simp only [MachineAction.process, setStage, update_self, ProcessStage.cleaning.injEq] at hclean
    obtain ⟨rfl, rfl⟩ := hclean
    exact Or.inl ⟨_, _, rfl, hstage, hcheck, hnames, rfl⟩
  | removed hstage =>
    simp only [MachineAction.process, setStage, update_self, ProcessStage.cleaning.injEq] at hclean
    obtain ⟨rfl, rfl⟩ := hclean
    exact Or.inr ⟨_, _, _, rfl, hstage, rfl⟩
  | _ => simp only [MachineAction.process, setStage, update_self, reduceCtorEq] at hclean

/-- The log is a run of the mutex, and who is past the lock holds it. -/
structure Invariant (s : Machine P B S T) : Prop where
  mutex : Instances.start.run s.mutexLog = some s.instances
  holds : ∀ p, (s.stage p).isPastLock = true → s.instances.holds p = true

omit [AddGroupWithOne T] [LinearOrder T] in
theorem Invariant.start (present : List FirewallRule) :
    (start present : Machine P B S T).Invariant where
  mutex := rfl
  holds p h := by cases h

theorem Invariant.step (hs : s.Invariant) (h : s.step Y mode g a = some s') : s'.Invariant := by
  rcases (step_effect h).stage_or_mutex with
    ⟨stage, present, rfl, hpast, -⟩ | ⟨m, next, hm, hstep, hpast⟩
  · refine ⟨hs.mutex, fun p hp => ?_⟩
    by_cases hpa : p = a.process
    · subst hpa
      simp only [setStage, update_self] at hp
      exact hs.holds _ (hpast hp)
    · simp only [setStage, update_of_ne hpa] at hp
      exact hs.holds p hp
  · obtain ⟨instances, hi, rfl⟩ := mutexStep_eq_some hstep
    refine ⟨Instances.run_concat_eq_some.mpr ⟨_, hs.mutex, hi⟩, fun p hp => ?_⟩
    rw [Instances.step_holds hi]
    by_cases hpm : p = m.process
    · subst hpm
      simp only [update_self] at hp
      rw [if_pos rfl]
      have hcreate := hpast _ hp
      rw [← hm] at hcreate
      exact hcreate
    · simp only [update_of_ne hpm] at hp
      rw [if_neg (Ne.symm hpm)]
      exact hs.holds p hp

theorem Invariant.run {present : List FirewallRule}
    {actions : List (MachineAction P T)}
    (h : (Machine.start present : Machine P B S T).run Y mode g actions = some s) :
    s.Invariant := by
  induction actions using List.reverseRecOn generalizing s with
  | nil =>
    cases h
    exact Invariant.start present
  | append_singleton actions a ih =>
    obtain ⟨u, hu, hstep⟩ := (run_concat_eq_some Y mode g).mp h
    exact (ih hu).step hstep

omit [AddGroupWithOne T] [LinearOrder T] in
theorem Invariant.eq_of_isPastLock (hs : s.Invariant) (ho : ¬ Instances.Overtaken s.mutexLog)
    (hp : (s.stage p).isPastLock = true) (hq : (s.stage q).isPastLock = true) : p = q :=
  Instances.exclusive_of_not_overtaken hs.mutex ho p q (hs.holds p hp) (hs.holds q hq)

theorem overtaken_of_step (h : s.step Y mode g a = some s')
    (ho : Instances.Overtaken s.mutexLog) : Instances.Overtaken s'.mutexLog := by
  rcases (step_effect h).stage_or_mutex with ⟨stage, present, rfl, -⟩ | ⟨m, next, -, hstep, -⟩
  · exact ho
  · obtain ⟨instances, -, rfl⟩ := mutexStep_eq_some hstep
    exact ho.append [m]

theorem stage_of_ne (h : s.step Y mode g a = some s') (hne : a.process ≠ p) :
    s'.stage p = s.stage p := by
  rcases (step_effect h).stage_or_mutex with ⟨stage, present, rfl, -⟩ | ⟨m, next, hm, hstep, -⟩
  · exact update_of_ne hne.symm _ _
  · obtain ⟨instances, -, rfl⟩ := mutexStep_eq_some hstep
    rw [← hm] at hne
    exact update_of_ne hne.symm _ _

/-- While a process is past the lock, the others do not change the rules. -/
theorem Invariant.present_of_ne (hs : s.Invariant) (ho : ¬ Instances.Overtaken s.mutexLog)
    (h : s.step Y mode g a = some s') (hp : (s.stage p).isPastLock = true)
    (hne : a.process ≠ p) : s'.present = s.present := by
  rcases (step_effect h).stage_or_mutex with
    ⟨stage, present, rfl, -, hpresent⟩ | ⟨m, next, -, hstep, -⟩
  · rcases hpresent with hpresent | hpast
    · exact hpresent
    · exact absurd (hs.eq_of_isPastLock ho hpast hp) hne
  · obtain ⟨instances, -, rfl⟩ := mutexStep_eq_some hstep
    rfl

/-- The steps of a start of one process in which the calls return what `calls` says. -/
inductive IsStep (p : P) (calls : MainCalls) (now : T) : MachineAction P T → Prop
  | launch : IsStep p calls now (.launch p calls)
  | create : IsStep p calls now (.create p calls.mutex)
  | collect : IsStep p calls now (.collect p calls)
  | remove (succeeds : Bool) : IsStep p calls now (.remove p succeeds)
  | startThreads : IsStep p calls now (.startThreads p now)
  | exit : IsStep p calls now (.exit p)

/-- The steps of one process, without interleaving. The results of its removals are those of
`calls`, in their order. -/
structure Alone (p : P) (calls : MainCalls) (now : T) (actions : List (MachineAction P T)) :
    Prop where
  own : ∀ a ∈ actions, IsStep p calls now a
  removals : ∃ n, actions.filterMap (MachineAction.ownRemoval? p) =
    (List.range n).map calls.enum.remove

/-- What a start of a process leaves of it and of the machine. -/
structure Leaves (s : Machine P B S T) (p : P) (result : MainResult B T) : Prop where
  present : s.present = result.present
  object : s.instances.object = result.object
  mutex : s.instances.mutex p = result.mutex
  stage : s.stage p = match result.outcome with
    | .ok sys => .running sys
    | .error e => .ended (some e)

omit [AddGroupWithOne T] [LinearOrder T] in
/-- A step that is no removal, on its own. -/
theorem Alone.single {calls : MainCalls} {now : T} (ha : IsStep p calls now a)
    (hremoval : a.ownRemoval? p = none) : Alone p calls now [a] :=
  ⟨List.forall_mem_singleton.mpr ha, 0, List.filterMap_cons_none hremoval⟩

omit [AddGroupWithOne T] [LinearOrder T] in
theorem Alone.cons {calls : MainCalls} {now : T} (ha : IsStep p calls now a)
    (hremoval : a.ownRemoval? p = none) (h : Alone p calls now actions) :
    Alone p calls now (a :: actions) where
  own := List.forall_mem_cons.mpr ⟨ha, h.own⟩
  removals := by
    rw [List.filterMap_cons_none hremoval]
    exact h.removals

omit [AddGroupWithOne T] [LinearOrder T] in
theorem filterMap_removals (p : P) (results : List Bool) :
    (results.map fun succeeds => (MachineAction.remove p succeeds : MachineAction P T)).filterMap
      (MachineAction.ownRemoval? p) = results := by
  rw [List.filterMap_map]
  refine (List.filterMap_congr fun succeeds _ => ?_).trans List.filterMap_some
  exact if_pos rfl

theorem run_cons (s : Machine P B S T) (a : MachineAction P T)
    (actions : List (MachineAction P T)) :
    s.run Y mode g (a :: actions) = (s.step Y mode g a).bind fun s => s.run Y mode g actions := rfl

omit [AddGroupWithOne T] [LinearOrder T] in
theorem endProcess_leaves (s : Machine P B S T) (p : P) (e : ProcessEnd) :
    ∃ t, s.endProcess p (some e) = some t ∧
      t.Leaves p (.ended e (s.instances.mutex p) s.instances.object s.present) := by
  refine ⟨_, rfl, rfl, rfl, ?_, ?_⟩
  · exact update_self _ _ _
  · exact update_self _ _ _

theorem run_removals (Y : YamlCpp) (mode : RemoveMode) (g : LoadedConfig B S) {c : LoadedConfig B S}
    {names : List String} {results : List Bool} (hlength : names.length = results.length)
    (hstage : s.stage p = .cleaning c names) :
    ∃ t, s.run Y mode g (results.map (.remove p)) = some t ∧ t.stage p = .cleaning c [] ∧
      t.present = (names.zip results).foldl (removeOne mode) s.present ∧
      t.instances = s.instances := by
  induction names generalizing s results with
  | nil =>
    rw [List.length_nil, eq_comm, List.length_eq_zero_iff] at hlength
    rw [hlength]
    exact ⟨s, rfl, hstage, rfl, rfl⟩
  | cons name names ih =>
    cases results with
    | nil => cases hlength
    | cons result results =>
      let u : Machine P B S T := { s.setStage p (.cleaning c names) with
        present := removeOne mode s.present (name, result) }
      have hstep : s.step Y mode g (.remove p result) = some u := by
        simp only [step, hstage]
        rfl
      have hu : u.stage p = .cleaning c names := update_self _ _ _
      obtain ⟨t, ht, hclean, hpresent, hinstances⟩ := ih (Nat.succ.inj hlength) hu
      refine ⟨t, ?_, hclean, hpresent, hinstances⟩
      rw [List.map_cons, run_cons, hstep]
      exact ht

section
variable {c : ApplicationConfig B} {hr : ComResults} {calls : EnumResults}
  {enumerated : List FirewallRule}

omit [AddGroupWithOne T] [LinearOrder T] in
theorem startUp_of_collectNames_error {err : MatchException}
    (h : collectNames B hr calls enumerated c.mRulePrefix = .error err) (mode : RemoveMode)
    (now : T) (present : List FirewallRule) :
    System.startUp mode hr calls enumerated c now present = .error err := by
  obtain ⟨ok, hdelete⟩ : ∃ ok, deleteRulesByRegex B mode hr calls enumerated c.mRulePrefix
      ⟨present, []⟩ = (collectNames B hr calls enumerated c.mRulePrefix).map fun names =>
        (ok, removeNames mode calls names ⟨present, []⟩) :=
    deleteRulesByRegex_eq_collectNames mode ⟨present, []⟩
  rw [h] at hdelete
  unfold System.startUp
  rw [hdelete]
  rfl

omit [AddGroupWithOne T] [LinearOrder T] in
/-- The cleaning is the removals of the collected names, one after the other. -/
theorem startUp_of_collectNames {names : List String}
    (h : collectNames B hr calls enumerated c.mRulePrefix = .ok names) (mode : RemoveMode)
    (now : T) (present : List FirewallRule) :
    System.startUp mode hr calls enumerated c now present = .ok (System.start c now
      ((names.zip ((List.range names.length).map calls.remove)).foldl (removeOne mode)
        present)) := by
  obtain ⟨ok, hdelete⟩ := deleteRulesByRegex_of_collectNames h mode calls.remove ⟨present, []⟩
  have hlength : names.length = ((List.range names.length).map calls.remove).length := by simp
  have hrules := foldl_zipIdx_removeOne mode hlength calls.remove 0 (fun i hi => ?_) present
  · change removeNames mode calls names ⟨present, []⟩ = _ at hrules
    change deleteRulesByRegex B mode hr calls enumerated c.mRulePrefix ⟨present, []⟩ =
      .ok (ok, removeNames mode calls names ⟨present, []⟩) at hdelete
    unfold System.startUp
    rw [hdelete, hrules]
  · have hi' : i < names.length := by simpa using hi
    simp [List.getD_eq_getElem?_getD, hi']

end

/-- From the lock on. -/
theorem run_locked (Y : YamlCpp) (mode : RemoveMode) (g : LoadedConfig B S) {c : LoadedConfig B S}
    (hstage : s.stage p = .locked c) (calls : MainCalls) (now : T) :
    ∃ actions t, Alone p calls now actions ∧ s.run Y mode g actions = some t ∧
      t.Leaves p (match checkSystem calls with
        | .error e => .ended e (s.instances.mutex p) s.instances.object s.present
        | .ok () =>
          match System.startUp mode calls.cleanup calls.enum calls.enumerated
              c.toApplicationConfig now s.present with
          | .error _ => .ended .terminate (s.instances.mutex p) s.instances.object s.present
          | .ok sys => ⟨.ok sys, s.instances.mutex p, s.instances.object,
              sys.io.rules.present⟩) := by
  have hfails : ∀ e, (∀ t, s.endProcess p (some e) = some t →
      s.step Y mode g (.collect p calls) = some t) →
      ∃ actions t, Alone p calls now actions ∧ s.run Y mode g actions = some t ∧
        t.Leaves p (.ended e (s.instances.mutex p) s.instances.object s.present) := by
    intro e hcollect
    obtain ⟨t, ht, hleaves⟩ := endProcess_leaves s p e
    refine ⟨[.collect p calls], t, .single .collect rfl, ?_, hleaves⟩
    rw [run_cons, hcollect t ht]
    rfl
  cases hcheck : checkSystem calls with
  | error e =>
    refine hfails e fun t ht => ?_
    simp only [step, hstage, hcheck]
    exact ht
  | ok =>
    dsimp only
    cases hnames : collectNames B calls.cleanup calls.enum calls.enumerated c.mRulePrefix with
    | error err =>
      rw [startUp_of_collectNames_error hnames]
      refine hfails .terminate fun t ht => ?_
      simp only [step, hstage, hcheck, hnames]
      exact ht
    | ok names =>
      let results := (List.range names.length).map calls.enum.remove
      have hlength : names.length = results.length := by simp [results]
      have hcollect : s.step Y mode g (.collect p calls) =
          some (s.setStage p (.cleaning c names)) := by
        simp only [step, hstage, hcheck, hnames]
      obtain ⟨t, ht, hclean, hpresent, hinstances⟩ := run_removals Y mode g
        (s := s.setStage p (.cleaning c names)) hlength (update_self _ _ _)
      have hstart : System.startUp mode calls.cleanup calls.enum calls.enumerated
          c.toApplicationConfig now s.present =
            .ok (System.start c.toApplicationConfig now t.present) := by
        rw [hpresent]
        exact startUp_of_collectNames hnames mode now s.present
      rw [hstart]
      refine ⟨.collect p calls :: (results.map (.remove p) ++ [.startThreads p now]),
        t.setStage p (.running (System.start c.toApplicationConfig now t.present)), ?_, ?_,
        rfl, ?_, ?_, update_self _ _ _⟩
      · refine .cons .collect rfl ⟨fun a ha => ?_, names.length, ?_⟩
        · rw [List.mem_append, List.mem_map, List.mem_singleton] at ha
          rcases ha with ⟨succeeds, -, rfl⟩ | rfl
          · exact .remove succeeds
          · exact .startThreads
        · rw [List.filterMap_append, filterMap_removals]
          exact List.append_nil _
      · rw [run_cons, hcollect]
        change (s.setStage p (.cleaning c names)).run Y mode g _ = _
        rw [run_concat_eq_some]
        refine ⟨t, ht, ?_⟩
        simp only [step, hclean]
      · exact congrArg Instances.object hinstances
      · exact congrFun (congrArg Instances.mutex hinstances) p

/-- Where a process stands and what it has of the mutex, with the object and the rules. -/
structure At (s : Machine P B S T) (p : P) (stage : ProcessStage B S T)
    (m : ApplicationMutex × HandleTable) (present : List FirewallRule) : Prop where
  stage : s.stage p = stage
  mutex : s.instances.mutex p = m.1
  object : s.instances.object = m.2
  present : s.present = present

omit [AddGroupWithOne T] [LinearOrder T] in
theorem mutexStep_at {m : MutexAction P} (next : Instances P → ProcessStage B S T)
    {x : ApplicationMutex × HandleTable} {creating holds : Bool}
    (h : s.instances.step m = some (s.instances.put m.process x creating holds)) :
    ∃ t, s.mutexStep m next = some t ∧ t.instances.creating m.process = creating ∧
      t.At m.process (next (s.instances.put m.process x creating holds)) x s.present := by
  refine ⟨_, congrArg (Option.map _) h, Instances.put_creating_self, update_self _ _ _, ?_, rfl,
    rfl⟩
  exact Instances.put_mutex_self

section start
variable {c : LoadedConfig B S} {calls : MainCalls} {object : HandleTable}
  {present : List FirewallRule}

theorem step_launch (mode : RemoveMode) {how : Option ProcessEnd}
    (hs : s.At p (.ended how) ({}, object) present)
    (hidle : s.instances.creating p = false) (hprepare : prepare Y calls g = .ok c)
    (hopen : calls.mutex.openFails = false) {found : Bool} {x : ApplicationMutex × HandleTable}
    (hfound : ApplicationMutex.isExist {} {} object = (found, x)) :
    ∃ t, s.step Y mode g (.launch p calls) = some t ∧ t.instances.creating p = (!found) ∧
      t.At p (if found = true then .refused else .creating c) x present := by
  have hprobe := s.instances.step_probe hidle
  rw [hs.mutex, hs.object, hfound] at hprobe
  obtain ⟨t, ht, hcreating, hat⟩ := mutexStep_at (s := s) (fun instances =>
    if instances.creating p = true then .creating c else .refused) hprobe
  refine ⟨t, ?_, hcreating, ?_⟩
  · simp only [step, hs.stage, hprepare, hopen, Bool.false_eq_true, if_false]
    exact ht
  · rw [hs.present] at hat
    simp only [MutexAction.process, Instances.put_creating_self] at hat
    cases found <;> exact hat

theorem step_create (Y : YamlCpp) (mode : RemoveMode) (g : LoadedConfig B S)
    (hs : s.At p (.creating c) ({}, object) present)
    (hcreating : s.instances.creating p = true) (calls : MutexCalls) :
    ∃ t, s.step Y mode g (.create p calls) = some t ∧
      t.At p (if calls.createFails = true then .refused else .locked c)
        (ApplicationMutex.create calls {} object).2 present := by
  cases hfails : calls.createFails with
  | true =>
    have hdestroy : s.instances.step (.destroy p) = some (s.instances.put p ({}, object) false
        false) := by
      have hclose : (s.instances.mutex p).destroy s.instances.object = ({}, object) := by
        rw [hs.mutex, hs.object]
        rfl
      rw [← hclose]
      rfl
    obtain ⟨t, ht, -, hat⟩ := mutexStep_at (s := s) (fun _ => .refused) hdestroy
    refine ⟨t, ?_, ?_⟩
    · simp only [step, hs.stage, hfails, if_true]
      exact ht
    · rw [ApplicationMutex.create_of_fails rfl hfails, ← hs.present]
      exact hat
  | false =>
    have hcreate := s.instances.step_create hcreating
    rw [hs.mutex, hs.object, ApplicationMutex.create_of_succeeds rfl] at hcreate
    obtain ⟨t, ht, -, hat⟩ := mutexStep_at (s := s) (fun _ => .locked c) hcreate
    refine ⟨t, ?_, ?_⟩
    · simp only [step, hs.stage, hfails, Bool.false_eq_true, if_false]
      exact ht
    · rw [ApplicationMutex.create_of_succeeds hfails, ← hs.present]
      exact hat

theorem run_refused {m : ApplicationMutex × HandleTable} (hs : s.At p .refused m present)
    (calls : MainCalls) (now : T) :
    ∃ actions t, Alone p calls now actions ∧ s.run Y mode g actions = some t ∧
      t.Leaves p (.ended (.exit ApplicationExitCode.failed.value) m.1 m.2 present) := by
  obtain ⟨t, ht, hleaves⟩ := endProcess_leaves s p (.exit ApplicationExitCode.failed.value)
  rw [hs.mutex, hs.object, hs.present] at hleaves
  refine ⟨[.exit p], t, .single .exit rfl, ?_, hleaves⟩
  have hstep : s.step Y mode g (.exit p) = some t := by
    simp only [step, hs.stage]
    exact ht
  rw [run_cons, hstep]
  rfl

/-- One step more before a run of the same process. -/
theorem run_after {t : Machine P B S T} {result : MainResult B T}
    (hstep : s.step Y mode g a = some t) (ha : IsStep p calls now a)
    (hremoval : a.ownRemoval? p = none)
    (h : ∃ actions u, Alone p calls now actions ∧ t.run Y mode g actions = some u ∧
      u.Leaves p result) :
    ∃ actions u, Alone p calls now actions ∧ s.run Y mode g actions = some u ∧
      u.Leaves p result := by
  obtain ⟨actions, u, halone, hu, hleaves⟩ := h
  refine ⟨a :: actions, u, halone.cons ha hremoval, ?_, hleaves⟩
  rw [run_cons, hstep]
  exact hu

/-- Left alone, the steps of a new process are `main`. -/
theorem left_alone_is_main {how : Option ProcessEnd} (hs : s.At p (.ended how) ({}, object) present)
    (hidle : s.instances.creating p = false) (calls : MainCalls) (now : T) :
    ∃ actions t, Alone p calls now actions ∧ s.run Y mode g actions = some t ∧
      t.Leaves p (main Y mode calls g now object present) := by
  have hnone : ({} : ApplicationMutex).mHandle = none := rfl
  unfold main
  cases hprepare : prepare Y calls g with
  | error e =>
    refine ⟨[.launch p calls], s.setStage p (.ended (some e)), .single .launch rfl, ?_, hs.present,
      hs.object, hs.mutex, update_self _ _ _⟩
    have hstep : s.step Y mode g (.launch p calls) = some (s.setStage p (.ended (some e))) := by
      simp only [step, hs.stage, hprepare]
    rw [run_cons, hstep]
    rfl
  | ok c =>
    dsimp only
    cases hopen : calls.mutex.openFails with
    | true =>
      have hstep : s.step Y mode g (.launch p calls) = some (s.setStage p .refused) := by
        simp only [step, hs.stage, hprepare, hopen, if_true]
      rw [ApplicationMutex.lock_of_fails hnone hopen]
      have hat : (s.setStage p .refused).At p .refused ({}, object) present :=
        ⟨update_self _ _ _, hs.mutex, hs.object, hs.present⟩
      exact run_after hstep .launch rfl (run_refused hat calls now)
    | false =>
      by_cases hempty : object.opened = ∅
      · obtain ⟨t, ht, hcreating, hat⟩ := step_launch mode hs hidle hprepare hopen
          (ApplicationMutex.isExist_of_absent hnone rfl hempty)
        obtain ⟨u, hu, hlock⟩ := step_create Y mode g hat hcreating calls.mutex
        refine run_after ht .launch rfl (run_after hu .create rfl ?_)
        rw [ApplicationMutex.lock_of_absent hnone hopen hempty]
        cases hfails : calls.mutex.createFails with
        | true =>
          rw [ApplicationMutex.create_of_fails hnone hfails]
          rw [hfails, ApplicationMutex.create_of_fails hnone hfails] at hlock
          exact run_refused hlock calls now
        | false =>
          rw [ApplicationMutex.create_of_succeeds hfails]
          rw [hfails, ApplicationMutex.create_of_succeeds hfails] at hlock
          have hrun := run_locked Y mode g hlock.stage calls now
          rw [hlock.mutex, hlock.object, hlock.present] at hrun
          exact hrun
      · obtain ⟨t, ht, -, hat⟩ := step_launch mode hs hidle hprepare hopen
          (ApplicationMutex.isExist_of_exists hnone rfl hempty)
        rw [ApplicationMutex.lock_of_exists hnone hopen hempty]
        exact run_after ht .launch rfl (run_refused hat calls now)

end start

end Machine

/-- A file in which every scalar is there and every list is empty. -/
def emptyLists : YamlCpp where
  Node := Unit
  load _ := some ()
  subscript _ _ := some ()
  constSubscript _ _ := some ()
  item _ _ := none
  size _ := some 0
  pairs _ := some []
  asInt _ := some 1
  asBool _ := some true
  asString _ := some "info"
  asInt_isInt32 := by
    rintro ⟨⟩ value h
    cases h
    decide

/-- The other process is killed after the first of its removals. -/
def killedWhileCleaning : List (MachineAction Bool ℤ) :=
  let calls : MainCalls := { readBinaryFile := some, enumerated := leftOver }
  [.launch true calls, .create true {}, .collect true calls, .remove true true, .kill true]

theorem left_alone_is_main_killedWhileCleaning :
    let g : LoadedConfig Boost.plain ⟨Unit, fun _ => ()⟩ := { mLevel := () }
    let calls : MainCalls := { readBinaryFile := some, enumerated := leftOver.tail }
    ∃ s : Machine Bool Boost.plain ⟨Unit, fun _ => ()⟩ ℤ,
      (Machine.start leftOver).run emptyLists .first g killedWhileCleaning = some s ∧
      s.present = leftOver.tail ∧
      ∃ actions t, Machine.Alone false calls 31 actions ∧
        s.run emptyLists .first g actions = some t ∧
        t.Leaves false (main emptyLists .first calls g 31 s.instances.object leftOver.tail) := by
  refine ⟨_, rfl, rfl, ?_⟩
  exact Machine.left_alone_is_main ⟨rfl, rfl, rfl, rfl⟩ rfl _ 31

end RDPBlocker
