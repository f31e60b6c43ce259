import RDPBlocker.Foundation.History
import RDPBlocker.Program.Instances

/-! When at most one instance runs, and when a refused one leaves no trace. -/
namespace RDPBlocker
open Foundation Function
variable {P : Type*} [DecidableEq P]

def lastAction (p : P) (actions : List (MutexAction P)) : Option (MutexAction P) :=
  lastOf (fun a => decide (a.process = p)) actions

theorem lastAction_append (p : P) (before after : List (MutexAction P)) :
    lastAction p (before ++ after) = (lastAction p after).or (lastAction p before) :=
  lastOf_append _ before after

theorem lastAction_concat (p : P) (actions : List (MutexAction P)) (a : MutexAction P) :
    lastAction p (actions ++ [a]) = if a.process = p then some a else lastAction p actions := by
  unfold lastAction
  rw [lastOf_concat]
  simp only [decide_eq_true_eq]

namespace Instances
variable {s s' : Instances P} {actions : List (MutexAction P)}

def Exclusive (s : Instances P) : Prop :=
  ∀ p q, s.holds p = true → s.holds q = true → p = q

theorem step_holds {a : MutexAction P} (h : s.step a = some s') (p : P) :
    s'.holds p = true ↔ if a.process = p then a = .create p else s.holds p = true := by
  by_cases hp : a.process = p
  · rw [if_pos hp]
    rcases step_cases h with
      ⟨q, rfl, _, rfl⟩ | ⟨q, rfl, _, rfl⟩ | ⟨q, rfl, _, rfl⟩ | ⟨q, rfl, rfl⟩
    all_goals
      cases hp
      simp [MutexAction.process]
  · rw [if_neg hp]
    obtain ⟨m, creating, holds, rfl⟩ := step_frame h
    rw [put_holds_of_ne (Ne.symm hp)]

theorem run_holds (h : start.run actions = some s) (p : P) :
    s.holds p = true ↔ lastAction p actions = some (.create p) := by
  induction actions using List.reverseRecOn generalizing s with
  | nil =>
    cases h
    simp [start, lastAction]
  | append_singleton actions a ih =>
    obtain ⟨u, hu, hstep⟩ := run_concat_eq_some.mp h
    rw [step_holds hstep, lastAction_concat]
    split
    · exact Option.some_inj.symm
    · exact ih hu

theorem step_creating {a : MutexAction P} (h : s.step a = some s')
    (hp : s'.creating a.process = true) : a = .probe a.process ∧ s.object.opened = ∅ := by
  rcases step_cases h with
    ⟨q, rfl, _, rfl⟩ | ⟨q, rfl, _, rfl⟩ | ⟨q, rfl, _, rfl⟩ | ⟨q, rfl, rfl⟩
  · simp only [MutexAction.process, put_creating_self, Bool.not_eq_true'] at hp
    exact ⟨rfl, (ApplicationMutex.isExist_eq_false hp).2.1⟩
  all_goals
    simp only [MutexAction.process, put_creating_self, Bool.false_eq_true] at hp

/-- A process that goes on to `CreateMutexW` has seen the object absent, at its last action. -/
theorem run_creating (h : start.run actions = some s) {p : P} (hp : s.creating p = true) :
    ∃ past between u, actions = past ++ .probe p :: between ∧
      (∀ a ∈ between, a.process ≠ p) ∧ start.run past = some u ∧ u.object.opened = ∅ := by
  induction actions using List.reverseRecOn generalizing s with
  | nil =>
    cases h
    cases hp
  | append_singleton actions a ih =>
    obtain ⟨t, ht, hstep⟩ := run_concat_eq_some.mp h
    by_cases hap : a.process = p
    · rw [← hap] at hp
      obtain ⟨hprobe, hempty⟩ := step_creating hstep hp
      rw [hap] at hprobe
      exact ⟨actions, [], t, by rw [hprobe], by simp, ht, hempty⟩
    · obtain ⟨m, creating, holds, rfl⟩ := step_frame hstep
      rw [put_creating_of_ne (Ne.symm hap)] at hp
      obtain ⟨past, between, u, rfl, hbetween, hu, hempty⟩ := ih ht hp
      refine ⟨past, between ++ [a], u, by simp, ?_, hu, hempty⟩
      intro b hb
      rcases List.mem_append.mp hb with hb | hb
      · exact hbetween b hb
      · rw [List.mem_singleton.mp hb]
        exact hap

/-- Between the check and the creation of one `lock` another process creates the object too, and
does nothing after that. -/
def Overtaken (actions : List (MutexAction P)) : Prop :=
  ∃ past p between later q, actions = past ++ .probe p :: (between ++ .create p :: later) ∧
    (∀ a ∈ between, a.process ≠ p) ∧ lastAction q between = some (.create q)

theorem Overtaken.append {actions : List (MutexAction P)} (h : Overtaken actions)
    (later : List (MutexAction P)) : Overtaken (actions ++ later) := by
  obtain ⟨past, p, between, rest, q, rfl, hbetween, hq⟩ := h
  exact ⟨past, p, between, rest ++ later, q, by simp, hbetween, hq⟩

theorem creating_of_step {p : P} (h : s.step (.create p) = some s') : s.creating p = true := by
  by_contra hp
  simp only [step, hp, if_false, reduceCtorEq] at h

/-- A second holder comes about only by a creation. -/
theorem create_of_not_exclusive {a : MutexAction P} (hs : s.Exclusive)
    (hstep : s.step a = some s') (hs' : ¬ s'.Exclusive) :
    ∃ p q, a = .create p ∧ s.holds q = true ∧ q ≠ p := by
  unfold Exclusive at hs'
  push Not at hs'
  obtain ⟨p, q, hp, hq, hpq⟩ := hs'
  rw [step_holds hstep] at hp hq
  by_cases hap : a.process = p
  · have haq : a.process ≠ q := by
      rw [hap]
      exact hpq
    rw [if_pos hap] at hp
    rw [if_neg haq] at hq
    exact ⟨p, q, hp, hq, hpq.symm⟩
  · rw [if_neg hap] at hp
    by_cases haq : a.process = q
    · rw [if_pos haq] at hq
      exact ⟨q, p, hq, hp, hpq⟩
    · rw [if_neg haq] at hq
      exact absurd (hs p q hp hq) hpq

theorem overtaken_of_not_exclusive {a : MutexAction P} (h : start.run actions = some s)
    (hs : s.Exclusive) (hstep : s.step a = some s') (hs' : ¬ s'.Exclusive) :
    Overtaken (actions ++ [a]) := by
  obtain ⟨p, q, rfl, hq, hqp⟩ := create_of_not_exclusive hs hstep hs'
  obtain ⟨past, between, u, rfl, hbetween, hu, hempty⟩ :=
    run_creating h (creating_of_step hstep)
  have hlast := (run_holds h q).mp hq
  rw [List.append_cons, lastAction_append, lastAction_concat, MutexAction.process,
    if_neg hqp.symm] at hlast
  cases hcreate : lastAction q between with
  | none =>
    -- `q` has held since before the check, which would have found its handle.
    rw [hcreate, Option.none_or] at hlast
    have hinv := Invariant.start.run hu
    have hhandle := hinv.holds_handle q ((run_holds hu q).mpr hlast)
    exact absurd (hinv.owned.opened_eq_empty.mp hempty q) hhandle
  | some b =>
    rw [hcreate, Option.some_or] at hlast
    exact ⟨past, p, between, [], q, by simp, hbetween, hcreate.trans hlast⟩

theorem not_exclusive_of_overtaken (h : start.run actions = some s) (ho : Overtaken actions) :
    ∃ past s', past <+: actions ∧ start.run past = some s' ∧ ¬ s'.Exclusive := by
  obtain ⟨past, p, between, later, q, rfl, hbetween, hq⟩ := ho
  have hqp : q ≠ p := hbetween _ (mem_of_lastOf hq).1
  have hsplit : past ++ .probe p :: (between ++ .create p :: later) =
      past ++ [.probe p] ++ between ++ [.create p] ++ later := by simp
  rw [hsplit] at h
  obtain ⟨u, hu, -⟩ := run_append_eq_some.mp h
  refine ⟨_, u, ⟨later, hsplit.symm⟩, hu, ?_⟩
  have hholds_p : u.holds p = true := by
    rw [run_holds hu, lastAction_concat, MutexAction.process, if_pos rfl]
  have hholds_q : u.holds q = true := by
    rw [run_holds hu, lastAction_concat, MutexAction.process, if_neg hqp.symm, lastAction_append,
      hq, Option.some_or]
  intro hexclusive
  exact hqp (hexclusive q p hholds_q hholds_p)

theorem exclusive_of_not_overtaken (h : start.run actions = some s) (ho : ¬ Overtaken actions) :
    s.Exclusive := by
  induction actions using List.reverseRecOn generalizing s with
  | nil =>
    cases h
    intro p q hp
    cases hp
  | append_singleton actions a ih =>
    obtain ⟨u, hu, hstep⟩ := run_concat_eq_some.mp h
    have hu' := ih hu fun hpast => ho (hpast.append [a])
    by_contra hs
    exact ho (overtaken_of_not_exclusive hu hu' hstep hs)

end Instances

/-- In every interleaving of the system calls, at most one process holds the mutex at any time
if and only if no `lock` overtakes another one between its `OpenMutexW` and its `CreateMutexW`. -/
theorem at_most_one_holds_iff {actions : List (MutexAction P)} {s : Instances P}
    (h : Instances.start.run actions = some s) :
    (∀ past s', past <+: actions → Instances.start.run past = some s' → s'.Exclusive) ↔
      ¬ Instances.Overtaken actions := by
  constructor
  · intro hexclusive ho
    obtain ⟨past, s', hpast, hs', hnot⟩ := Instances.not_exclusive_of_overtaken h ho
    exact hnot (hexclusive past s' hpast hs')
  · intro ho past s' hpast hs'
    refine Instances.exclusive_of_not_overtaken hs' fun hpast' => ho ?_
    obtain ⟨later, rfl⟩ := hpast
    exact hpast'.append later

/-- The second process starts while the first one stops. -/
theorem at_most_one_holds_iff_handOver :
    let actions : List (MutexAction ℕ) := [.probe 0, .create 0, .unlock 0, .probe 1, .create 1]
    ∃ s, Instances.start.run actions = some s ∧
      ((∀ past s', past <+: actions → Instances.start.run past = some s' → s'.Exclusive) ↔
        ¬ Instances.Overtaken actions) := ⟨_, rfl, at_most_one_holds_iff rfl⟩

/-- Two processes that start together both hold the mutex. -/
theorem two_instances_run : ¬ ∀ (actions : List (MutexAction ℕ)) (s : Instances ℕ),
    Instances.start.run actions = some s → s.Exclusive := by
  intro h
  have heq := h [.probe 0, .probe 1, .create 0, .create 1] _ rfl 0 1 rfl rfl
  cases heq

namespace Instances
variable {s : Instances P} {p : P} {calls : MutexCalls}

/-- A call that `lock` does not come to does not fail. -/
def CallFails (s : Instances P) (p : P) (calls : MutexCalls) : Prop :=
  (s.mutex p).mHandle = none ∧
    (calls.openFails = true ∨ s.object.opened = ∅ ∧ calls.createFails = true)

structure LeavesNoTrace (s : Instances P) (p : P) (calls : MutexCalls) : Prop where
  refused : (s.mutex p).mHandle = none → s.lockResult p calls = false →
    ((s.call (.lock p calls)).mutex p).mHandle = none ∧
      (s.call (.lock p calls)).object.opened.card = s.object.opened.card
  granted : (∀ q, q ≠ p → s.holds q = false) → ¬ s.CallFails p calls →
    s.lockResult p calls = true

/-- The check has nothing to open, or cannot open it. -/
def FindsNothing (s : Instances P) (p : P) (calls : MutexCalls) : Prop :=
  s.object.opened = ∅ ∨ (s.mutex p).mHandle = none ∧ calls.openFails = true

omit [DecidableEq P] in
theorem lock_of_findsNothing (hs : s.Invariant) (h : s.FindsNothing p calls) :
    (s.CallFails p calls ∧
        (s.mutex p).lock calls s.object = (false, s.mutex p, s.object)) ∨
      s.object.opened = ∅ ∧ (s.mutex p).lock calls s.object =
        (true, ⟨some s.object.next⟩, s.object.alloc) := by
  have hnone : (s.mutex p).mHandle = none := by
    rcases h with hempty | ⟨hnone, -⟩
    · exact hs.owned.opened_eq_empty.mp hempty p
    · exact hnone
  cases hopen : calls.openFails with
  | true => exact Or.inl ⟨⟨hnone, Or.inl hopen⟩, ApplicationMutex.lock_of_fails hnone hopen⟩
  | false =>
    have hempty : s.object.opened = ∅ := by
      rcases h with hempty | ⟨-, hfails⟩
      · exact hempty
      · rw [hopen] at hfails
        cases hfails
    rw [ApplicationMutex.lock_of_absent hnone hopen hempty]
    cases hcreate : calls.createFails with
    | true =>
      exact Or.inl ⟨⟨hnone, Or.inr ⟨hempty, hcreate⟩⟩,
        ApplicationMutex.create_of_fails hnone hcreate⟩
    | false => exact Or.inr ⟨hempty, ApplicationMutex.create_of_succeeds hcreate⟩

theorem leavesNoTrace_of_findsNothing (hs : s.Invariant) (h : s.FindsNothing p calls) :
    s.LeavesNoTrace p calls := by
  rcases lock_of_findsNothing hs h with ⟨hfails, hlock⟩ | ⟨-, hlock⟩
  · refine ⟨fun hnone _ => ?_, fun _ hworks => absurd hfails hworks⟩
    simp only [call, hlock, put_mutex_self, put_object]
    exact ⟨hnone, trivial⟩
  · have hresult : s.lockResult p calls = true := by
      unfold lockResult
      rw [hlock]
    refine ⟨fun _ hrefused => ?_, fun _ _ => hresult⟩
    rw [hresult] at hrefused
    cases hrefused

def AtMostOneHandle (s : Instances P) : Prop :=
  ∀ p q, (s.mutex p).mHandle ≠ none → (s.mutex q).mHandle ≠ none → p = q

theorem findsNothing_of_leavesNoTrace (hs : s.Invariant) (hone : s.AtMostOneHandle)
    (h : s.LeavesNoTrace p calls) : s.FindsNothing p calls := by
  by_cases hnone : (s.mutex p).mHandle = none
  · cases hopen : calls.openFails with
    | true => exact Or.inr ⟨hnone, hopen⟩
    | false =>
      by_contra hfinds
      have hexists : s.object.opened ≠ ∅ := fun hempty => hfinds (Or.inl hempty)
      have hlock := ApplicationMutex.lock_of_exists (m := s.mutex p) hnone hopen hexists
      obtain ⟨hclean, -⟩ := h.refused hnone (congrArg Prod.fst hlock)
      simp only [call, hlock, put_mutex_self, reduceCtorEq] at hclean
  · have halone : ∀ q, q ≠ p → s.holds q = false := by
      intro q hqp
      by_contra hq
      rw [Bool.not_eq_false] at hq
      exact hqp (hone q p (hs.holds_handle q hq) hnone)
    have hresult := h.granted halone fun hfails => hnone hfails.1
    unfold lockResult at hresult
    rw [ApplicationMutex.lock_of_handle hnone] at hresult
    cases hresult

namespace AtMostOneHandle

omit [DecidableEq P] in
theorem start : (start : Instances P).AtMostOneHandle := fun _ _ hp => absurd rfl hp

theorem put (hone : s.AtMostOneHandle) {m : ApplicationMutex × HandleTable}
    {creating holds : Bool}
    (h : m.1.mHandle ≠ none → ∀ q, q ≠ p → (s.mutex q).mHandle = none) :
    (s.put p m creating holds).AtMostOneHandle := by
  intro q r hq hr
  by_cases hqp : q = p <;> by_cases hrp : r = p
  · rw [hqp, hrp]
  · rw [hqp, put_mutex_self] at hq
    rw [put_mutex_of_ne hrp] at hr
    exact absurd (h hq r hrp) hr
  · rw [hrp, put_mutex_self] at hr
    rw [put_mutex_of_ne hqp] at hq
    exact absurd (h hr q hqp) hq
  · rw [put_mutex_of_ne hqp] at hq
    rw [put_mutex_of_ne hrp] at hr
    exact hone q r hq hr

theorem close (hone : s.AtMostOneHandle) (p : P) :
    (s.put p ((s.mutex p).close s.object) false false).AtMostOneHandle :=
  hone.put fun h => absurd (ApplicationMutex.close_handle _ _) h

theorem call (hone : s.AtMostOneHandle) (hs : s.Invariant) {a : LockAction P}
    (h : ∀ p calls, a = .lock p calls → s.FindsNothing p calls) : (s.call a).AtMostOneHandle := by
  cases a with
  | lock p calls =>
    rw [call_lock]
    refine hone.put fun hhandle q hqp => ?_
    rcases lock_of_findsNothing hs (h p calls rfl) with ⟨-, hlock⟩ | ⟨hempty, -⟩
    · rw [hlock] at hhandle
      by_contra hq
      exact hqp (hone q p hq hhandle)
    · exact hs.owned.opened_eq_empty.mp hempty q
  | unlock p => exact hone.close p
  | destroy p => exact hone.close p

end AtMostOneHandle

/-- `R` holds at every `lock` of an undisturbed run, in the state before it. -/
def AtEachLock (R : Instances P → P → MutexCalls → Prop) (actions : List (LockAction P)) : Prop :=
  AtEach (fun past a => ∀ p calls, a = .lock p calls → R (start.serve past) p calls) actions

theorem serve_concat (s : Instances P) (actions : List (LockAction P)) (a : LockAction P) :
    s.serve (actions ++ [a]) = (s.serve actions).call a := by
  unfold serve
  rw [List.foldl_concat]

theorem atMostOneHandle_serve {actions : List (LockAction P)}
    (h : AtEachLock FindsNothing actions) : (start.serve actions).AtMostOneHandle := by
  induction actions using List.reverseRecOn with
  | nil => exact AtMostOneHandle.start
  | append_singleton actions a ih =>
    obtain ⟨hpast, ha⟩ := atEach_concat.mp h
    rw [serve_concat]
    exact (ih hpast).call (Invariant.start.serve actions) ha

theorem atEachLock_findsNothing {actions : List (LockAction P)}
    (h : AtEachLock LeavesNoTrace actions) : AtEachLock FindsNothing actions := by
  -- Up to each `lock` there is at most one handle, since the ones before it found nothing.
  induction actions using List.reverseRecOn with
  | nil => exact atEach_nil _
  | append_singleton actions a ih =>
    obtain ⟨hpast, ha⟩ := atEach_concat.mp h
    have hfinds := ih hpast
    refine atEach_concat.mpr ⟨hfinds, fun p calls hlock => ?_⟩
    exact findsNothing_of_leavesNoTrace (Invariant.start.serve actions)
      (atMostOneHandle_serve hfinds) (ha p calls hlock)

end Instances

/-- In every sequence of calls, every refused `lock` leaves no trace, and every other one is
refused only to a holder or by a failing call, if and only if every `lock` is made while the named
object does not exist, or cannot open it. -/
theorem refusals_leave_no_trace_iff (actions : List (LockAction P)) :
    Instances.AtEachLock Instances.LeavesNoTrace actions ↔
      Instances.AtEachLock Instances.FindsNothing actions := by
  constructor
  · exact Instances.atEachLock_findsNothing
  · intro h past a later hpast p calls hlock
    exact Instances.leavesNoTrace_of_findsNothing (Instances.Invariant.start.serve past)
      (h past a later hpast p calls hlock)

/-- An instance that was refused keeps the object alive when the holder has released it, and a
third one is refused too. -/
theorem refused_probe_blocks_the_next :
    ¬ ∀ actions : List (LockAction (Fin 3)),
      Instances.AtEachLock Instances.LeavesNoTrace actions := by
  intro h
  have hlast := h [.lock 0 {}, .lock 1 {}, .unlock 0, .lock 2 {}]
    [.lock 0 {}, .lock 1 {}, .unlock 0] (.lock 2 {}) [] rfl 2 {} rfl
  have hgranted := hlast.granted (by decide) (by unfold Instances.CallFails; decide)
  cases hgranted

end RDPBlocker
