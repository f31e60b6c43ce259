import Mathlib.Data.List.Basic
import Mathlib.Data.List.Count
import Mathlib.Logic.Function.Iterate

/-! Collections from which items are removed by their key. Several items may share one key, and
a removal may take one of them or all. -/
namespace Foundation
variable {α κ σ : Type*} [DecidableEq κ]

/-- The removal leaves the items of every other key alone, and takes at least one of its own. -/
structure RemovesByKey (key : α → κ) (items : σ → List α) (remove : σ → κ → σ) : Prop where
  others : ∀ s k, (items (remove s k)).filter (fun a => decide (key a ≠ k)) =
    (items s).filter fun a => decide (key a ≠ k)
  progress : ∀ s k, (items (remove s k)).countP (fun a => decide (key a = k)) ≤
    (items s).countP (fun a => decide (key a = k)) - 1

section Lists
variable (key : α → κ) (k : κ)

/-- Taking the first item of the key. -/
theorem filter_eraseP_key (l : List α) :
    (l.eraseP fun a => decide (key a = k)).filter (fun a => decide (key a ≠ k)) =
      l.filter fun a => decide (key a ≠ k) := by
  induction l with
  | nil => rfl
  | cons a l ih =>
    by_cases ha : key a = k
    · have hp : decide (key a = k) = true := decide_eq_true ha
      rw [List.eraseP_cons_of_pos (p := fun a => decide (key a = k)) hp,
        List.filter_cons_of_neg (by simp [ha])]
    · have hp : ¬ decide (key a = k) = true := by simp [ha]
      rw [List.eraseP_cons_of_neg (p := fun a => decide (key a = k)) hp,
        List.filter_cons_of_pos (by simp [ha]), List.filter_cons_of_pos (by simp [ha]), ih]

theorem countP_eraseP_key (l : List α) :
    (l.eraseP fun a => decide (key a = k)).countP (fun a => decide (key a = k)) =
      l.countP (fun a => decide (key a = k)) - 1 := by
  induction l with
  | nil => rfl
  | cons a l ih =>
    by_cases ha : decide (key a = k) = true
    · rw [List.eraseP_cons_of_pos (p := fun a => decide (key a = k)) ha,
        List.countP_cons_of_pos (p := fun a => decide (key a = k)) ha, Nat.add_sub_cancel]
    · rw [List.eraseP_cons_of_neg (p := fun a => decide (key a = k)) ha,
        List.countP_cons_of_neg (p := fun a => decide (key a = k)) ha,
        List.countP_cons_of_neg (p := fun a => decide (key a = k)) ha, ih]

theorem filter_eraseP_own (l : List α) :
    (l.eraseP fun a => decide (key a = k)).filter (fun a => decide (key a = k)) =
      (l.filter fun a => decide (key a = k)).tail := by
  induction l with
  | nil => rfl
  | cons a l ih =>
    by_cases ha : decide (key a = k) = true
    · rw [List.eraseP_cons_of_pos (p := fun a => decide (key a = k)) ha,
        List.filter_cons_of_pos (p := fun a => decide (key a = k)) ha, List.tail_cons]
    · rw [List.eraseP_cons_of_neg (p := fun a => decide (key a = k)) ha,
        List.filter_cons_of_neg (p := fun a => decide (key a = k)) ha,
        List.filter_cons_of_neg (p := fun a => decide (key a = k)) ha, ih]

/-- Taking every item of the key. -/
theorem filter_filter_key (l : List α) :
    (l.filter fun a => decide (key a ≠ k)).filter (fun a => decide (key a ≠ k)) =
      l.filter fun a => decide (key a ≠ k) := by
  rw [List.filter_filter]
  simp only [Bool.and_self]

theorem countP_filter_key (l : List α) :
    (l.filter fun a => decide (key a ≠ k)).countP (fun a => decide (key a = k)) = 0 := by
  rw [List.countP_eq_zero]
  intro a ha hkey
  exact of_decide_eq_true (List.mem_filter.mp ha).2 (of_decide_eq_true hkey)

end Lists

namespace RemovesByKey
variable {key : α → κ} {items : σ → List α} {remove : σ → κ → σ}

theorem countP_of_ne (h : RemovesByKey key items remove) (s : σ) {k j : κ} (hne : j ≠ k) :
    (items (remove s k)).countP (fun a => decide (key a = j)) =
      (items s).countP fun a => decide (key a = j) := by
  have hfilter : ∀ l : List α, l.countP (fun a => decide (key a = j)) =
      (l.filter fun a => decide (key a ≠ k)).countP fun a => decide (key a = j) := by
    intro l
    rw [List.countP_filter]
    apply List.countP_congr
    intro a _
    simp only [decide_eq_true_eq, Bool.and_eq_true]
    exact ⟨fun ha => ⟨ha, ha ▸ hne⟩, fun ha => ha.1⟩
  rw [hfilter, h.others, ← hfilter]

/-- The items whose key is not on the list survive the removals. -/
theorem filter_foldl (h : RemovesByKey key items remove) (s : σ) (ks : List κ) :
    (items (ks.foldl remove s)).filter (fun a => decide (key a ∉ ks)) =
      (items s).filter fun a => decide (key a ∉ ks) := by
  induction ks generalizing s with
  | nil => rfl
  | cons k ks ih =>
    have hsplit : ∀ l : List α, (l.filter fun a => decide (key a ∉ k :: ks)) =
        (l.filter fun a => decide (key a ∉ ks)).filter fun a => decide (key a ≠ k) := by
      intro l
      rw [List.filter_filter]
      apply List.filter_congr
      intro a _
      simp only [List.mem_cons, not_or, Bool.decide_and]
    have hswap : ∀ l : List α,
        ((l.filter fun a => decide (key a ∉ ks)).filter fun a => decide (key a ≠ k)) =
          (l.filter fun a => decide (key a ≠ k)).filter fun a => decide (key a ∉ ks) :=
      fun l => List.filter_comm _ _ _
    rw [List.foldl_cons, hsplit, ih, hswap, h.others, ← hswap, ← hsplit]

/-- Each removal on the list takes one more item of its key. -/
theorem countP_foldl (h : RemovesByKey key items remove) (s : σ) (ks : List κ) (j : κ) :
    (items (ks.foldl remove s)).countP (fun a => decide (key a = j)) ≤
      (items s).countP (fun a => decide (key a = j)) - ks.count j := by
  induction ks generalizing s with
  | nil => exact Nat.le_refl _
  | cons k ks ih =>
    rw [List.foldl_cons]
    have hrest := ih (remove s k)
    by_cases hj : j = k
    · rw [hj] at hrest ⊢
      have hstep := h.progress s k
      rw [List.count_cons_self]
      omega
    · rw [h.countP_of_ne s hj] at hrest
      rw [List.count_cons_of_ne (Ne.symm hj)]
      exact hrest

/-- When every item with a key on the list is on it once, exactly the others remain. -/
theorem items_foldl (h : RemovesByKey key items remove) (s : σ) (ks : List κ)
    (hcount : ∀ k ∈ ks, (items s).countP (fun a => decide (key a = k)) ≤ ks.count k) :
    items (ks.foldl remove s) = (items s).filter fun a => decide (key a ∉ ks) := by
  rw [← h.filter_foldl, eq_comm, List.filter_eq_self]
  intro a ha
  apply decide_eq_true
  intro hk
  have hnone := h.countP_foldl s ks (key a)
  rw [Nat.sub_eq_zero_of_le (hcount _ hk), Nat.le_zero, List.countP_eq_zero] at hnone
  exact hnone a ha (decide_eq_true rfl)

theorem filter_of_ne (h : RemovesByKey key items remove) (s : σ) {k j : κ} (hne : j ≠ k) :
    (items (remove s k)).filter (fun a => decide (key a = j)) =
      (items s).filter fun a => decide (key a = j) := by
  have hfilter : ∀ l : List α, l.filter (fun a => decide (key a = j)) =
      (l.filter fun a => decide (key a ≠ k)).filter fun a => decide (key a = j) := by
    intro l
    rw [List.filter_filter]
    apply List.filter_congr
    intro a _
    by_cases ha : key a = j <;> simp [ha, hne]
  rw [hfilter, h.others, ← hfilter]

/-- Of the items of one key, each removal on the list with this key leaves `rest`. -/
theorem filter_foldl_own (h : RemovesByKey key items remove) {rest : List α → List α}
    (hrest : ∀ s k, (items (remove s k)).filter (fun a => decide (key a = k)) =
      rest ((items s).filter fun a => decide (key a = k))) (s : σ) (ks : List κ) (j : κ) :
    (items (ks.foldl remove s)).filter (fun a => decide (key a = j)) =
      rest^[ks.count j] ((items s).filter fun a => decide (key a = j)) := by
  induction ks generalizing s with
  | nil => rfl
  | cons k ks ih =>
    rw [List.foldl_cons, ih]
    by_cases hj : j = k
    · rw [hj, List.count_cons_self, Function.iterate_succ_apply, hrest]
    · rw [List.count_cons_of_ne (Ne.symm hj), h.filter_of_ne s hj]

end RemovesByKey
end Foundation
