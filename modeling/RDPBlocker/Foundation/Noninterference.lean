import Mathlib.Data.List.Basic

/-! A part of the state that only one kind of operations reaches. -/
namespace Foundation
variable {σ ι α : Type*} {apply : σ → ι → σ} {kind : ι → Bool} {view : σ → α}

/-- What is viewed changes by operations of the kind only, and by them as it would in any state
that looks the same. -/
structure Isolated (apply : σ → ι → σ) (kind : ι → Bool) (view : σ → α) : Prop where
  hidden : ∀ s i, kind i = false → view (apply s i) = view s
  shown : ∀ s t i, kind i = true → view s = view t → view (apply s i) = view (apply t i)

namespace Isolated

theorem foldl_filter_of_eq (h : Isolated apply kind view) {s t : σ} (hst : view s = view t)
    (is : List ι) : view (is.foldl apply s) = view ((is.filter kind).foldl apply t) := by
  induction is generalizing s t with
  | nil => exact hst
  | cons i is ih =>
    cases hi : kind i with
    | true =>
      rw [List.filter_cons_of_pos hi, List.foldl_cons, List.foldl_cons]
      exact ih (h.shown s t i hi hst)
    | false =>
      rw [List.filter_cons_of_neg (by rw [hi]; exact Bool.false_ne_true), List.foldl_cons]
      exact ih ((h.hidden s i hi).trans hst)

/-- Deleting the operations of other kinds from a run does not change what is viewed. -/
theorem foldl_filter (h : Isolated apply kind view) (s : σ) (is : List ι) :
    view (is.foldl apply s) = view ((is.filter kind).foldl apply s) :=
  h.foldl_filter_of_eq rfl is

end Isolated
end Foundation
