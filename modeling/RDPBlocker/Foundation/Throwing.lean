import Mathlib.Data.List.Basic

/-! Loops whose body may throw. -/
namespace Foundation
variable {ε α β : Type*} {f : β → α → Except ε β} {l : List α}

/-- Whether the body throws depends on the element alone. -/
theorem foldlM_returns_iff {P : α → Prop} (hf : ∀ b a, (∃ c, f b a = .ok c) ↔ P a) (l : List α)
    (b : β) : (∃ c, l.foldlM f b = .ok c) ↔ ∀ a ∈ l, P a := by
  induction l generalizing b with
  | nil => simp [pure, Except.pure]
  | cons a l ih =>
    rw [List.foldlM_cons, List.forall_mem_cons, ← hf b a]
    cases hbody : f b a with
    | error e => simp [bind, Except.bind]
    | ok c => exact (ih c).trans (by simp)

/-- A loop whose body throws nowhere. -/
theorem foldlM_eq_ok {h : β → α → β} (hf : ∀ b, ∀ a ∈ l, f b a = .ok (h b a)) (b : β) :
    l.foldlM f b = .ok (l.foldl h b) := by
  induction l generalizing b with
  | nil => rfl
  | cons a l ih =>
    rw [List.foldlM_cons, hf b a List.mem_cons_self]
    exact ih (fun b a' ha' => hf b a' (List.mem_cons_of_mem _ ha')) _

theorem foldlM_invariant {P : β → Prop} (hf : ∀ b a c, P b → f b a = .ok c → P c) {b c : β}
    (hb : P b) (h : l.foldlM f b = .ok c) : P c := by
  induction l generalizing b with
  | nil =>
    cases h
    exact hb
  | cons a l ih =>
    rw [List.foldlM_cons] at h
    cases hbody : f b a with
    | error e =>
      rw [hbody] at h
      cases h
    | ok d =>
      rw [hbody] at h
      exact ih (hf b a d hb hbody) h

section Search
variable {p : α → Except ε Bool}

/-- A search that finds nothing has looked at every element. -/
theorem anyM_eq_false : l.anyM p = .ok false ↔ ∀ a ∈ l, p a = .ok false := by
  induction l with
  | nil => simp [pure, Except.pure]
  | cons a l ih =>
    rw [List.anyM_cons, List.forall_mem_cons, ← ih]
    rcases p a with e | _ | _ <;> simp [bind, Except.bind, pure, Except.pure]

theorem anyM_eq_ok {q : α → Bool} (hp : ∀ a ∈ l, p a = .ok (q a)) : l.anyM p = .ok (l.any q) := by
  induction l with
  | nil => rfl
  | cons a l ih =>
    rw [List.anyM_cons, hp a List.mem_cons_self, List.any_cons,
      ih fun b hb => hp b (List.mem_cons_of_mem _ hb)]
    cases q a <;> rfl

/-- A search throws where the predicate throws before it holds. -/
theorem anyM_eq_error : (∃ e, l.anyM p = .error e) ↔ ∃ before a after, l = before ++ a :: after ∧
    (∀ b ∈ before, p b = .ok false) ∧ ∃ e, p a = .error e := by
  induction l with
  | nil => simp [pure, Except.pure]
  | cons a l ih =>
    rw [List.anyM_cons]
    constructor
    · intro h
      cases ha : p a with
      | error e => exact ⟨[], a, l, rfl, by simp, e, ha⟩
      | ok found =>
        rw [ha] at h
        cases found with
        | true =>
          obtain ⟨e, he⟩ := h
          cases he
        | false =>
          obtain ⟨before, b, after, rfl, hbefore, hb⟩ := ih.mp h
          exact ⟨a :: before, b, after, rfl, List.forall_mem_cons.mpr ⟨ha, hbefore⟩, hb⟩
    · rintro ⟨before, b, after, hsplit, hbefore, e, hb⟩
      cases before with
      | nil =>
        cases hsplit
        rw [hb]
        exact ⟨e, rfl⟩
      | cons c before =>
        cases hsplit
        rw [List.forall_mem_cons] at hbefore
        rw [hbefore.1]
        exact ih.mpr ⟨before, b, after, rfl, hbefore.2, e, hb⟩

end Search
end Foundation
