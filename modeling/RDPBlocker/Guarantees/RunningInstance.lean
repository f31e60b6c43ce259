import RDPBlocker.Refinement.Machine

/-! A machine with many processes, seen from the one that runs: as long as no `lock` overtakes
another one, it is alone with the rules. -/
namespace RDPBlocker
open Foundation Function
variable {P : Type*} [DecidableEq P] {B : Boost} {S : Spdlog} {T : Type*} [AddGroupWithOne T]
  [LinearOrder T] {Y : YamlCpp} {mode : RemoveMode} {g : LoadedConfig B S}

namespace Machine
variable {s s' : Machine P B S T} {a : MachineAction P T} {actions : List (MachineAction P T)}
  {p : P}

/-- A process that cleans the rules has collected the names from some state on, and only its own
removals have changed the rules since. -/
def CleansAlone (Y : YamlCpp) (mode : RemoveMode) (g : LoadedConfig B S)
    (present : List FirewallRule) (actions : List (MachineAction P T)) (s : Machine P B S T) (p : P)
    (c : LoadedConfig B S) (names : List String) : Prop :=
  ∃ past calls later, ∃ (v : Machine P B S T) (done : List String),
    let results := later.filterMap (MachineAction.ownRemoval? p)
    actions = past ++ .collect p calls :: later ∧
      (start present).run Y mode g past = some v ∧ v.stage p = .locked c ∧
      checkSystem calls = .ok () ∧
      collectNames B calls.cleanup calls.enum calls.enumerated c.mRulePrefix = .ok (done ++ names) ∧
      done.length = results.length ∧ s.present = (done.zip results).foldl (removeOne mode) v.present

/-- A running process has been started on the rules that it found, and only its own actions have
changed the rules since. Its cleaning has had the results of its removals. -/
def RunsAlone (Y : YamlCpp) (mode : RemoveMode) (g : LoadedConfig B S)
    (present : List FirewallRule) (actions : List (MachineAction P T)) (s : Machine P B S T) (p : P)
    (sys : System B T) : Prop :=
  ∃ past calls between now later, ∃ (v : Machine P B S T) (c : LoadedConfig B S)
      (names : List String) (started : System B T),
    let results := between.filterMap (MachineAction.ownRemoval? p)
    actions = past ++ .collect p calls :: between ++ .startThreads p now :: later ∧
      (start present).run Y mode g past = some v ∧ v.stage p = .locked c ∧
      checkSystem calls = .ok () ∧
      collectNames B calls.cleanup calls.enum calls.enumerated c.mRulePrefix = .ok names ∧
      names.length = results.length ∧
      System.startUp mode calls.cleanup
        { calls.enum with remove := fun n => results.getD n true } calls.enumerated
        c.toApplicationConfig now v.present = .ok started ∧
      sys = started.run mode (later.filterMap (MachineAction.ownAction? p)) ∧
      s.present = sys.io.rules.present

section alone
variable {present : List FirewallRule} {c : LoadedConfig B S} {names : List String}
  {sys : System B T}

omit [AddGroupWithOne T] [LinearOrder T] in
/-- The actions of the other processes are none of its own. -/
theorem own_of_ne (hne : a.process ≠ p) : a.ownRemoval? p = none ∧ a.ownAction? p = none := by
  cases a with
  | remove q succeeds => exact ⟨if_neg hne, rfl⟩
  | act q x => exact ⟨rfl, if_neg hne⟩
  | _ => exact ⟨rfl, rfl⟩

theorem CleansAlone.other (hclean : CleansAlone Y mode g present actions s p c names)
    (hne : a.process ≠ p) (hpresent : s'.present = s.present) :
    CleansAlone Y mode g present (actions ++ [a]) s' p c names := by
  obtain ⟨past, calls, later, v, done, hsplit, hv, hlocked, hcheck, hnames, hlength, hrules⟩ :=
    hclean
  have hresults : (later ++ [a]).filterMap (MachineAction.ownRemoval? p) =
      later.filterMap (MachineAction.ownRemoval? p) := by
    rw [List.filterMap_append, List.filterMap_cons_none (own_of_ne hne).1, List.filterMap_nil,
      List.append_nil]
  refine ⟨past, calls, later ++ [a], v, done, ?_, hv, hlocked, hcheck, hnames, ?_, ?_⟩
  · rw [hsplit, List.append_assoc, List.cons_append]
  · rw [hresults]
    exact hlength
  · rw [hresults]
    exact hpresent.trans hrules

theorem CleansAlone.remove {name : String} {succeeds : Bool}
    (hclean : CleansAlone Y mode g present actions s p c (name :: names))
    (hpresent : s'.present = removeOne mode s.present (name, succeeds)) :
    CleansAlone Y mode g present (actions ++ [.remove p succeeds]) s' p c names := by
  obtain ⟨past, calls, later, v, done, hsplit, hv, hlocked, hcheck, hnames, hlength, hrules⟩ :=
    hclean
  have hown : (MachineAction.remove p succeeds : MachineAction P T).ownRemoval? p =
      some succeeds := if_pos rfl
  have hresults :
      (later ++ [MachineAction.remove p succeeds]).filterMap (MachineAction.ownRemoval? p) =
        later.filterMap (MachineAction.ownRemoval? p) ++ [succeeds] := by
    rw [List.filterMap_append, List.filterMap_cons_some hown, List.filterMap_nil]
  refine ⟨past, calls, later ++ [.remove p succeeds], v, done ++ [name], ?_, hv, hlocked, hcheck,
    ?_, ?_, ?_⟩
  · rw [hsplit, List.append_assoc, List.cons_append]
  · rw [hnames, List.append_assoc, List.singleton_append]
  · rw [hresults, List.length_append, List.length_append, hlength, List.length_singleton,
      List.length_singleton]
  · rw [hresults, List.zip_append hlength, List.foldl_append, hpresent, hrules]
    rfl

theorem CleansAlone.startThreads {now : T}
    (hclean : CleansAlone Y mode g present actions s p c []) (hpresent : s'.present = s.present) :
    RunsAlone Y mode g present (actions ++ [.startThreads p now]) s' p
      (System.start c.toApplicationConfig now s.present) := by
  obtain ⟨past, calls, later, v, done, hsplit, hv, hlocked, hcheck, hnames, hlength, hrules⟩ :=
    hclean
  rw [List.append_nil] at hnames
  obtain ⟨ok, hdelete⟩ := deleteRulesByRegex_of_collectNames hnames mode
    (fun n => (later.filterMap (MachineAction.ownRemoval? p)).getD n true) ⟨v.present, []⟩
  rw [removeNames_eq_foldl mode calls.enum hlength, ← hrules] at hdelete
  refine ⟨past, calls, later, now, [], v, c, done,
    System.start c.toApplicationConfig now s.present, ?_, hv, hlocked, hcheck, hnames, hlength, ?_,
    rfl, hpresent⟩
  · rw [hsplit]
  · unfold System.startUp
    rw [hdelete]

theorem RunsAlone.other (hruns : RunsAlone Y mode g present actions s p sys)
    (hne : a.process ≠ p) (hpresent : s'.present = s.present) :
    RunsAlone Y mode g present (actions ++ [a]) s' p sys := by
  obtain ⟨past, calls, between, now, later, v, c, names, started, hsplit, hv, hlocked, hcheck,
    hnames, hlength, hstart, hsys, hrules⟩ := hruns
  refine ⟨past, calls, between, now, later ++ [a], v, c, names, started, ?_, hv, hlocked, hcheck,
    hnames, hlength, hstart, ?_, hpresent.trans hrules⟩
  · rw [hsplit]
    simp
  · rw [List.filterMap_append, List.filterMap_cons_none (own_of_ne hne).2, List.filterMap_nil,
      List.append_nil]
    exact hsys

/-- The rules that the process finds are those that it left. -/
theorem RunsAlone.act (hruns : RunsAlone Y mode g present actions s p sys) (x : SystemAction T)
    (hpresent : s'.present = ((sys.onRules s.present).step mode x).io.rules.present) :
    RunsAlone Y mode g present (actions ++ [.act p x]) s' p
      ((sys.onRules s.present).step mode x) := by
  obtain ⟨past, calls, between, now, later, v, c, names, started, hsplit, hv, hlocked, hcheck,
    hnames, hlength, hstart, hsys, hrules⟩ := hruns
  refine ⟨past, calls, between, now, later ++ [.act p x], v, c, names, started, ?_, hv, hlocked,
    hcheck, hnames, hlength, hstart, ?_, hpresent⟩
  · rw [hsplit]
    simp
  · have hown : (MachineAction.act p x).ownAction? p = some x := if_pos rfl
    have hsame : sys.onRules s.present = sys := by
      rw [hrules]
      rfl
    rw [List.filterMap_append, List.filterMap_cons_some hown, List.filterMap_nil, System.run_snoc,
      ← hsys, hsame]

theorem alone_of_run (h : (start present : Machine P B S T).run Y mode g actions = some s)
    (ho : ¬ Instances.Overtaken s.mutexLog) (p : P) :
    (∀ c names, s.stage p = .cleaning c names → CleansAlone Y mode g present actions s p c names) ∧
      ∀ sys, s.stage p = .running sys → RunsAlone Y mode g present actions s p sys := by
  induction actions using List.reverseRecOn generalizing s with
  | nil =>
    cases h
    refine ⟨fun c names hstage => ?_, fun sys hstage => ?_⟩ <;> cases hstage
  | append_singleton actions a ih =>
    obtain ⟨u, hu, hstep⟩ := (run_concat_eq_some Y mode g).mp h
    have hou := mt (overtaken_of_step hstep) ho
    obtain ⟨hcleans, hruns⟩ := ih hu hou
    by_cases hap : a.process = p
    · subst hap
      refine ⟨fun c names hstage => ?_, fun sys hstage => ?_⟩
      · rcases cleaning_of_step hstep hstage with
          ⟨p, calls, rfl, hlocked, hcheck, hnames, hpresent⟩ |
          ⟨p, succeeds, name, rfl, hclean, hpresent⟩
        · exact ⟨actions, calls, [], u, [], rfl, hu, hlocked, hcheck, hnames, rfl, hpresent⟩
        · exact (hcleans c _ hclean).remove hpresent
      · rcases running_of_step hstep hstage with
          ⟨p, now, c, rfl, hclean, rfl, hpresent⟩ | ⟨p, x, sys', rfl, hrun, rfl, hpresent⟩
        · exact (hcleans c [] hclean).startThreads hpresent
        · exact (hruns sys' hrun).act x hpresent
    · have hinv := Invariant.run hu
      rw [stage_of_ne hstep hap]
      refine ⟨fun c names hstage => ?_, fun sys hstage => ?_⟩
      · refine (hcleans c names hstage).other hap (hinv.present_of_ne hou hstep ?_ hap)
        rw [hstage]
        rfl
      · refine (hruns sys hstage).other hap (hinv.present_of_ne hou hstep ?_ hap)
        rw [hstage]
        rfl

end alone

/-- However the processes interleave, when no `lock` overtakes another one, at most one process is
past the lock, and a running one is as it would be if it had been started on the rules of that
time and nobody else had been there. -/
theorem running_instance_is_alone {present : List FirewallRule}
    (h : (start present : Machine P B S T).run Y mode g actions = some s)
    (ho : ¬ Instances.Overtaken s.mutexLog) :
    (∀ p q, (s.stage p).isPastLock = true → (s.stage q).isPastLock = true → p = q) ∧
      ∀ p sys, s.stage p = .running sys → RunsAlone Y mode g present actions s p sys :=
  ⟨fun _ _ hp hq => (Invariant.run h).eq_of_isPastLock ho hp hq, fun p => (alone_of_run h ho p).2⟩

end Machine

/-- The second process is started while the first one cleans the rules, and ends before the first
one's threads start. -/
def secondLaunch : List (MachineAction Bool ℤ) :=
  let calls : MainCalls := { readBinaryFile := some, enumerated := leftOver }
  [.launch false calls, .create false {}, .collect false calls, .launch true calls,
    .remove false true, .exit true, .remove false false, .startThreads false 0,
    .act false (.io (.advance 5))]

theorem running_instance_is_alone_secondLaunch :
    ∃ s, (Machine.start leftOver : Machine Bool Boost.plain ⟨Unit, fun _ => ()⟩ ℤ).run emptyLists
        .first { mLevel := () } secondLaunch = some s ∧
      (∀ p q, (s.stage p).isPastLock = true → (s.stage q).isPastLock = true → p = q) ∧
      ∀ p sys, s.stage p = .running sys →
        Machine.RunsAlone emptyLists .first { mLevel := () } leftOver secondLaunch s p sys := by
  refine ⟨_, rfl, Machine.running_instance_is_alone rfl ?_⟩
  rintro ⟨past, p, between, later, q, hsplit, -, hlast⟩
  have hlog : [MutexAction.probe false, .create false, .probe true, .destroy true] =
      past ++ .probe p :: (between ++ .create p :: later) := hsplit
  clear hsplit
  -- The second creation that this takes is missing.
  let creates (a : MutexAction Bool) : Bool := decide (∃ p, a = .create p)
  have hcount : 1 =
      past.countP creates + (between.countP creates + (later.countP creates + 1)) := by
    have hsides := congrArg (List.countP creates) hlog
    simpa [creates, List.countP_cons] using hsides
  have hcreate : 0 < between.countP creates :=
    List.countP_pos_iff.mpr ⟨_, (mem_of_lastOf hlast).1, by simp [creates]⟩
  omega

end RDPBlocker
