import Mathlib.Algebra.BigOperators.Group.Finset.Piecewise
import Mathlib.Data.Fintype.Basic

/-! Threads around a mutex with one condition variable: where each of them stands, and how many
stand at one place. -/
namespace Foundation
open Function
variable {Θ P : Type*} [DecidableEq Θ] [Fintype Θ] [DecidableEq P]

/-- The number of threads at a place. -/
def census (f : Θ → P) (p : P) : ℕ := (Finset.univ.filter fun t => f t = p).card

theorem census_eq_add (f : Θ → P) (t : Θ) (p : P) :
    census f p = (if f t = p then 1 else 0) + ∑ u ∈ Finset.univ.erase t, if f u = p then 1 else 0 := by
  unfold census
  rw [Finset.card_filter]
  exact (Finset.add_sum_erase Finset.univ (fun u => if f u = p then 1 else 0)
    (Finset.mem_univ t)).symm

/-- A thread that moves is missing where it was and counts where it goes. -/
theorem census_update (f : Θ → P) (t : Θ) (p q : P) :
    census (update f t q) p + (if f t = p then 1 else 0) = census f p + if q = p then 1 else 0 := by
  have hothers : ∑ u ∈ Finset.univ.erase t, (if update f t q u = p then 1 else 0) =
      ∑ u ∈ Finset.univ.erase t, if f u = p then 1 else 0 := by
    apply Finset.sum_congr rfl
    intro u hu
    rw [update_of_ne (Finset.ne_of_mem_erase hu)]
  rw [census_eq_add (update f t q) t p, census_eq_add f t p, hothers, update_self]
  omega

section Move
variable {f : Θ → P} {t : Θ} {p q : P}

theorem census_update_of_ne (ht : f t ≠ p) (hq : q ≠ p) :
    census (update f t q) p = census f p := by
  have hmove := census_update f t p q
  rw [if_neg ht, if_neg hq] at hmove
  exact hmove

theorem census_update_new (ht : f t ≠ q) : census (update f t q) q = census f q + 1 := by
  have hmove := census_update f t q q
  rw [if_neg ht, if_pos rfl] at hmove
  exact hmove

theorem census_update_old (ht : f t = p) (hq : q ≠ p) :
    census (update f t q) p + 1 = census f p := by
  have hmove := census_update f t p q
  rw [if_pos ht, if_neg hq] at hmove
  exact hmove

end Move

omit [DecidableEq Θ] in
theorem census_pos {f : Θ → P} {p : P} : 0 < census f p ↔ ∃ t, f t = p := by
  unfold census
  rw [Finset.card_pos]
  constructor
  · intro h
    obtain ⟨t, ht⟩ := h
    exact ⟨t, (Finset.mem_filter.mp ht).2⟩
  · intro h
    obtain ⟨t, ht⟩ := h
    exact ⟨t, Finset.mem_filter.mpr ⟨Finset.mem_univ t, ht⟩⟩

/-- Where a thread stands between two of its steps. -/
inductive Place
  | outside
  /-- It has left the mutex and is going to notify. -/
  | notifying
  /-- It is in the wait set. -/
  | waiting
  /-- It has been taken out of the wait set and is going to check its condition again. -/
  | woken
deriving DecidableEq, Repr

/-- `notify_one` wakes one waiting thread, whichever, and does nothing when there is none. -/
inductive NotifyOne (place : Θ → Place) : (Θ → Place) → Prop
  | nobody (h : ∀ t, place t ≠ .waiting) : NotifyOne place place
  | one (t : Θ) (h : place t = .waiting) : NotifyOne place (update place t .woken)

omit [Fintype Θ] in
theorem NotifyOne.exists_result (place : Θ → Place) : ∃ place', NotifyOne place place' := by
  by_cases h : ∃ t, place t = .waiting
  · obtain ⟨t, ht⟩ := h
    exact ⟨_, NotifyOne.one t ht⟩
  · exact ⟨place, NotifyOne.nobody fun t ht => h ⟨t, ht⟩⟩

/-- After a notification either nobody waits, or one thread that did is awake. -/
theorem NotifyOne.census_cases {place place' : Θ → Place} (h : NotifyOne place place') :
    (census place' .waiting = 0 ∧ place' = place) ∨
      0 < census place .waiting ∧ census place' .woken = census place .woken + 1 ∧
        census place' .notifying = census place .notifying := by
  cases h with
  | nobody hnone =>
    left
    refine ⟨Nat.eq_zero_of_not_pos fun hpos => ?_, rfl⟩
    obtain ⟨t, ht⟩ := census_pos.mp hpos
    exact hnone t ht
  | one t ht =>
    right
    refine ⟨census_pos.mpr ⟨t, ht⟩, census_update_new ?_, census_update_of_ne ?_ (by decide)⟩ <;>
      simp [ht]

end Foundation
