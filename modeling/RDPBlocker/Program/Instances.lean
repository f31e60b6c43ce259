import Mathlib.Data.List.Induction
import RDPBlocker.Program.ApplicationMutex

/-! Any number of mutexes of one name, in any number of processes. -/
namespace RDPBlocker
open Foundation Function
variable {P : Type*}

structure Instances (P : Type*) where
  object : HandleTable
  mutex : P → ApplicationMutex
  /-- Its `lock` has not found the object and goes on to `CreateMutexW`. -/
  creating : P → Bool
  /-- History: its latest `lock` returned `true`, and it has not released the mutex since. -/
  holds : P → Bool

namespace Instances

def start : Instances P := ⟨HandleTable.empty, fun _ => {}, fun _ => false, fun _ => false⟩

variable [DecidableEq P]

/-- One of the mutexes after an operation on it. -/
def put (s : Instances P) (p : P) (m : ApplicationMutex × HandleTable) (creating holds : Bool) :
    Instances P where
  object := m.2
  mutex := update s.mutex p m.1
  creating := update s.creating p creating
  holds := update s.holds p holds

section put
variable {s : Instances P} {p q : P} {m : ApplicationMutex × HandleTable} {creating holds : Bool}

@[simp] theorem put_object : (s.put p m creating holds).object = m.2 := rfl

@[simp] theorem put_mutex_self : (s.put p m creating holds).mutex p = m.1 := update_self _ _ _

@[simp] theorem put_mutex_of_ne (h : q ≠ p) :
    (s.put p m creating holds).mutex q = s.mutex q := update_of_ne h _ _

@[simp] theorem put_creating_self : (s.put p m creating holds).creating p = creating :=
  update_self _ _ _

@[simp] theorem put_creating_of_ne (h : q ≠ p) :
    (s.put p m creating holds).creating q = s.creating q := update_of_ne h _ _

@[simp] theorem put_holds_self : (s.put p m creating holds).holds p = holds := update_self _ _ _

@[simp] theorem put_holds_of_ne (h : q ≠ p) :
    (s.put p m creating holds).holds q = s.holds q := update_of_ne h _ _

end put

theorem put_put (s : Instances P) (p : P) (m m' : ApplicationMutex × HandleTable)
    (creating creating' holds holds' : Bool) :
    (s.put p m creating holds).put p m' creating' holds' = s.put p m' creating' holds' := by
  unfold put
  simp only [update_idem]

structure Invariant (s : Instances P) : Prop where
  owned : s.object.OwnedBy fun p => (s.mutex p).mHandle
  holds_handle : ∀ p, s.holds p = true → (s.mutex p).mHandle ≠ none
  creating_none : ∀ p, s.creating p = true → (s.mutex p).mHandle = none

omit [DecidableEq P] in
theorem Invariant.start : (start : Instances P).Invariant where
  owned := HandleTable.OwnedBy.empty
  holds_handle p h := by cases h
  creating_none p h := by cases h

theorem Invariant.put {s : Instances P} (hs : s.Invariant) {p : P}
    {m : ApplicationMutex × HandleTable} {creating holds : Bool}
    (he : HandleTable.Effect s.object (s.mutex p).mHandle m.1.mHandle m.2)
    (hholds : holds = true → m.1.mHandle ≠ none)
    (hcreating : creating = true → m.1.mHandle = none) :
    (s.put p m creating holds).Invariant where
  owned := by
    have hslots : (fun q => (update s.mutex p m.1 q).mHandle) =
        update (fun q => (s.mutex q).mHandle) p m.1.mHandle := by
      funext q
      exact apply_update (fun _ => ApplicationMutex.mHandle) s.mutex p m.1 q
    change m.2.OwnedBy fun q => (update s.mutex p m.1 q).mHandle
    rw [hslots]
    exact hs.owned.effect he
  holds_handle q hq := by
    by_cases hqp : q = p
    · rw [hqp, put_holds_self] at hq
      rw [hqp, put_mutex_self]
      exact hholds hq
    · rw [put_holds_of_ne hqp] at hq
      rw [put_mutex_of_ne hqp]
      exact hs.holds_handle q hq
  creating_none q hq := by
    by_cases hqp : q = p
    · rw [hqp, put_creating_self] at hq
      rw [hqp, put_mutex_self]
      exact hcreating hq
    · rw [put_creating_of_ne hqp] at hq
      rw [put_mutex_of_ne hqp]
      exact hs.creating_none q hq

end Instances

/-- The system calls of `lock` are steps of their own: `probe` is the call up to the result of
`is_exist`, and `create` is what follows when it is `false`. A process may end at any time. -/
inductive MutexAction (P : Type*)
  | probe (p : P)
  | create (p : P)
  | unlock (p : P)
  | destroy (p : P)
deriving DecidableEq, Repr

def MutexAction.process : MutexAction P → P
  | .probe p | .create p | .unlock p | .destroy p => p

/-- A call on a mutex, without interleaving. -/
inductive LockAction (P : Type*)
  | lock (p : P) (calls : MutexCalls)
  | unlock (p : P)
  | destroy (p : P)
deriving DecidableEq, Repr

namespace Instances
variable [DecidableEq P]

/-- `none` where the process is in the middle of a `lock`, or is not. -/
def step (s : Instances P) : MutexAction P → Option (Instances P)
  | .probe p =>
    if s.creating p = true then none
    else
      let (exists?, m) := (s.mutex p).isExist {} s.object
      some (s.put p m (!exists?) false)
  | .create p =>
    if s.creating p = true then
      let (locked, m) := (s.mutex p).create {} s.object
      some (s.put p m false locked)
    else none
  | .unlock p =>
    if s.creating p = true then none
    else some (s.put p ((s.mutex p).unlock s.object) false false)
  | .destroy p => some (s.put p ((s.mutex p).destroy s.object) false false)

def run (s : Instances P) : List (MutexAction P) → Option (Instances P)
  | [] => some s
  | a :: actions => (s.step a).bind fun s => s.run actions

/-- The result of a `lock` without interleaving. -/
def lockResult (s : Instances P) (p : P) (calls : MutexCalls) : Bool :=
  ((s.mutex p).lock calls s.object).1

def call (s : Instances P) : LockAction P → Instances P
  | .lock p calls =>
    let (locked, m) := (s.mutex p).lock calls s.object
    s.put p m false locked
  | .unlock p => s.put p ((s.mutex p).unlock s.object) false false
  | .destroy p => s.put p ((s.mutex p).destroy s.object) false false

def serve (s : Instances P) (actions : List (LockAction P)) : Instances P := actions.foldl call s

theorem call_lock (s : Instances P) (p : P) (calls : MutexCalls) :
    s.call (.lock p calls) = s.put p ((s.mutex p).lock calls s.object).2 false
      ((s.mutex p).lock calls s.object).1 := rfl

theorem run_append (s : Instances P) (before after : List (MutexAction P)) :
    s.run (before ++ after) = (s.run before).bind fun s => s.run after := by
  induction before generalizing s with
  | nil => rfl
  | cons a before ih =>
    simp only [List.cons_append, run]
    cases s.step a with
    | none => rfl
    | some s' => exact ih s'

theorem run_append_eq_some {s t : Instances P} {before after : List (MutexAction P)} :
    s.run (before ++ after) = some t ↔ ∃ u, s.run before = some u ∧ u.run after = some t := by
  rw [run_append, Option.bind_eq_some_iff]

theorem run_concat_eq_some {s t : Instances P} {actions : List (MutexAction P)}
    {a : MutexAction P} :
    s.run (actions ++ [a]) = some t ↔ ∃ u, s.run actions = some u ∧ u.step a = some t := by
  rw [run_append_eq_some]
  simp only [run, Option.bind_fun_some]

theorem step_probe (s : Instances P) {p : P} (hidle : s.creating p = false) :
    s.step (.probe p) = some (s.put p ((s.mutex p).isExist {} s.object).2
      (!((s.mutex p).isExist {} s.object).1) false) := by
  simp only [step, hidle, Bool.false_eq_true, if_false]

theorem step_create (s : Instances P) {p : P} (hcreating : s.creating p = true) :
    s.step (.create p) = some (s.put p ((s.mutex p).create {} s.object).2 false
      ((s.mutex p).create {} s.object).1) := by
  simp only [step, hcreating, if_true]

/-- Without interleaving, the steps of a `lock` are the call. -/
theorem run_lock (s : Instances P) {p : P} (hidle : s.creating p = false) :
    s.run [.probe p] = some (s.call (.lock p {})) ∨
      s.run [.probe p, .create p] = some (s.call (.lock p {})) := by
  have hprobe := s.step_probe hidle
  rcases hexist : (s.mutex p).isExist {} s.object with ⟨exists?, m, object⟩
  rw [hexist] at hprobe
  cases exists? with
  | true =>
    left
    have hcall : s.call (.lock p {}) = s.put p (m, object) false false := by
      simp only [call, ApplicationMutex.lock, hexist]
    rw [hcall]
    simp only [run, hprobe, Option.bind_some, Bool.not_true]
  | false =>
    right
    have hcall : s.call (.lock p {}) =
        s.put p (m.create {} object).2 false (m.create {} object).1 := by
      simp only [call, ApplicationMutex.lock, hexist]
    have hcreate := (s.put p (m, object) true false).step_create put_creating_self
    rw [put_mutex_self, put_object, put_put] at hcreate
    rw [hcall]
    simp only [run, hprobe, Option.bind_some, Bool.not_false]
    rw [hcreate]
    rfl

/-- What a step does. -/
theorem step_cases {s s' : Instances P} {a : MutexAction P} (h : s.step a = some s') :
    (∃ p, a = .probe p ∧ s.creating p = false ∧ s' = s.put p ((s.mutex p).isExist {} s.object).2
        (!((s.mutex p).isExist {} s.object).1) false) ∨
      (∃ p, a = .create p ∧ s.creating p = true ∧
        s' = s.put p ((s.mutex p).create {} s.object).2 false true) ∨
      (∃ p, a = .unlock p ∧ s.creating p = false ∧
        s' = s.put p ((s.mutex p).unlock s.object) false false) ∨
      ∃ p, a = .destroy p ∧ s' = s.put p ((s.mutex p).destroy s.object) false false := by
  cases a with
  | probe p =>
    left
    cases hp : s.creating p with
    | true => simp only [step, hp, if_true, reduceCtorEq] at h
    | false =>
      rw [step_probe s hp] at h
      exact ⟨p, rfl, hp, (Option.some.inj h).symm⟩
  | create p =>
    right; left
    cases hp : s.creating p with
    | true =>
      rw [step_create s hp, ApplicationMutex.create_of_succeeds rfl] at h
      refine ⟨p, rfl, hp, ?_⟩
      rw [ApplicationMutex.create_of_succeeds rfl]
      exact (Option.some.inj h).symm
    | false => simp only [step, hp, Bool.false_eq_true, if_false, reduceCtorEq] at h
  | unlock p =>
    right; right; left
    cases hp : s.creating p with
    | true => simp only [step, hp, if_true, reduceCtorEq] at h
    | false =>
      simp only [step, hp, Bool.false_eq_true, if_false] at h
      exact ⟨p, rfl, hp, (Option.some.inj h).symm⟩
  | destroy p =>
    right; right; right
    exact ⟨p, rfl, (Option.some.inj h).symm⟩

/-- A step touches the mutex of its own process only. -/
theorem step_frame {s s' : Instances P} {a : MutexAction P} (h : s.step a = some s') :
    ∃ m creating holds, s' = s.put a.process m creating holds := by
  rcases step_cases h with ⟨p, rfl, _, hs'⟩ | ⟨p, rfl, _, hs'⟩ | ⟨p, rfl, _, hs'⟩ | ⟨p, rfl, hs'⟩
  all_goals exact ⟨_, _, _, hs'⟩

namespace Invariant
variable {s s' : Instances P}

theorem close (hs : s.Invariant) (p : P) :
    (s.put p ((s.mutex p).close s.object) false false).Invariant :=
  hs.put (ApplicationMutex.close_effect _ _) (by simp) (by simp)

theorem step (hs : s.Invariant) {a : MutexAction P} (h : s.step a = some s') : s'.Invariant := by
  rcases step_cases h with ⟨p, -, hp, rfl⟩ | ⟨p, -, hp, rfl⟩ | ⟨p, -, -, rfl⟩ | ⟨p, -, rfl⟩
  · refine hs.put (ApplicationMutex.isExist_effect _ _ _) (by simp) ?_
    intro habsent
    rw [Bool.not_eq_true'] at habsent
    obtain ⟨hhandle, -, heq⟩ := ApplicationMutex.isExist_eq_false habsent
    rw [heq]
    exact hhandle
  · have hhandle := hs.creating_none p hp
    refine hs.put (ApplicationMutex.create_effect _ hhandle) ?_ (by simp)
    intro _
    rw [ApplicationMutex.create_of_succeeds rfl]
    exact Option.some_ne_none _
  · exact hs.close p
  · exact hs.close p

theorem run (hs : s.Invariant) {actions : List (MutexAction P)} (h : s.run actions = some s') :
    s'.Invariant := by
  induction actions generalizing s with
  | nil =>
    cases h
    exact hs
  | cons a actions ih =>
    obtain ⟨t, ha, hrest⟩ := Option.bind_eq_some_iff.mp h
    exact ih (hs.step ha) hrest

theorem call (hs : s.Invariant) (a : LockAction P) : (s.call a).Invariant := by
  cases a with
  | lock p calls =>
    exact hs.put (ApplicationMutex.lock_effect calls _ _) ApplicationMutex.lock_handle (by simp)
  | unlock p => exact hs.close p
  | destroy p => exact hs.close p

theorem serve (hs : s.Invariant) (actions : List (LockAction P)) :
    (s.serve actions).Invariant := by
  induction actions generalizing s with
  | nil => exact hs
  | cons a actions ih => exact ih (hs.call a)

end Invariant
end Instances
end RDPBlocker
