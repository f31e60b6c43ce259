import Mathlib.Data.List.Basic
import Mathlib.Data.List.Induction
import Mathlib.Order.Nat

/-! Runs that only ever add: which step brought about a property that stays, which one wrote an
entry of a log, and what two writers make of one log. -/
namespace Foundation
variable {σ ι β : Type*} {step : σ → ι → σ} {log : σ → List β}

theorem foldl_of_stays {P : σ → Prop} (hstays : ∀ s i, P s → P (step s i)) {s : σ} (hs : P s)
    (is : List ι) : P (is.foldl step s) := by
  induction is generalizing s with
  | nil => exact hs
  | cons i is ih => exact ih (hstays s i hs)

/-- A property that stays, and was not there at the start, was brought about by one step. -/
theorem foldl_iff_exists_step {P : σ → Prop} (hstays : ∀ s i, P s → P (step s i)) {s : σ}
    (hs : ¬ P s) {is : List ι} : P (is.foldl step s) ↔ ∃ past i later, is = past ++ i :: later ∧
      ¬ P (past.foldl step s) ∧ P (step (past.foldl step s) i) := by
  constructor
  · intro h
    induction is using List.reverseRecOn with
    | nil => exact absurd h hs
    | append_singleton is i ih =>
      rw [List.foldl_concat] at h
      by_cases hbefore : P (is.foldl step s)
      · obtain ⟨past, j, later, hsplit, hstep⟩ := ih hbefore
        exact ⟨past, j, later ++ [i], by rw [hsplit, List.append_assoc, List.cons_append], hstep⟩
      · exact ⟨is, i, [], rfl, hbefore, h⟩
  · rintro ⟨past, i, later, rfl, -, hstep⟩
    rw [List.foldl_append, List.foldl_cons]
    exact foldl_of_stays hstays hstep later

/-- Every step leaves the log alone or writes one entry at its end. -/
def Grows (step : σ → ι → σ) (log : σ → List β) : Prop :=
  ∀ s i, log (step s i) = log s ∨ ∃ b, log (step s i) = log s ++ [b]

namespace Grows

theorem length_le_step (h : Grows step log) (s : σ) (i : ι) :
    (log s).length ≤ (log (step s i)).length := by
  rcases h s i with heq | ⟨b, heq⟩
  · exact heq ▸ le_rfl
  · rw [heq, List.length_append]
    exact Nat.le_add_right _ _

theorem length_le_foldl (h : Grows step log) (s : σ) (is : List ι) :
    (log s).length ≤ (log (is.foldl step s)).length := by
  induction is generalizing s with
  | nil => exact le_rfl
  | cons i is ih => exact (h.length_le_step s i).trans (ih (step s i))

/-- An entry that was not there at the start was written by some step. -/
theorem exists_writer (h : Grows step log) {s : σ} (hs : log s = []) {is : List ι} {k : ℕ} {b : β}
    (hb : (log (is.foldl step s))[k]? = some b) :
    ∃ past i later, is = past ++ i :: later ∧ (log (past.foldl step s)).length = k ∧
      log (step (past.foldl step s) i) = log (past.foldl step s) ++ [b] := by
  induction is using List.reverseRecOn with
  | nil =>
    rw [List.foldl_nil, hs] at hb
    cases hb
  | append_singleton is i ih =>
    rw [List.foldl_concat] at hb
    have hold : (log (is.foldl step s))[k]? = some b → ∃ past j later,
        is ++ [i] = past ++ j :: later ∧ (log (past.foldl step s)).length = k ∧
          log (step (past.foldl step s) j) = log (past.foldl step s) ++ [b] := by
      intro hb
      obtain ⟨past, j, later, hsplit, hwrites⟩ := ih hb
      exact ⟨past, j, later ++ [i], by rw [hsplit, List.append_assoc, List.cons_append], hwrites⟩
    rcases h (is.foldl step s) i with heq | ⟨c, heq⟩
    · rw [heq] at hb
      exact hold hb
    · rw [heq] at hb
      by_cases hk : k < (log (is.foldl step s)).length
      · rw [List.getElem?_append_left hk] at hb
        exact hold hb
      · obtain ⟨hlt, -⟩ := List.getElem?_eq_some_iff.mp hb
        rw [List.length_append, List.length_singleton] at hlt
        have hk' : k = (log (is.foldl step s)).length := by omega
        rw [hk', List.getElem?_concat_length] at hb
        cases hb
        exact ⟨is, i, [], rfl, hk'.symm, heq⟩

/-- No two steps write the same entry. -/
theorem writer_unique (h : Grows step log) {s : σ} {past past' later later' : List ι} {i i' : ι}
    (hsplit : past ++ i :: later = past' ++ i' :: later')
    (hlength : (log (past.foldl step s)).length = (log (past'.foldl step s)).length)
    (hwrites : (log (past.foldl step s)).length < (log (step (past.foldl step s) i)).length)
    (hwrites' : (log (past'.foldl step s)).length < (log (step (past'.foldl step s) i')).length) :
    past.length = past'.length := by
  have hlt : ∀ {p q l m : List ι} {j k : ι}, p ++ j :: l = q ++ k :: m →
      (log (p.foldl step s)).length < (log (step (p.foldl step s) j)).length →
      p.length < q.length → (log (p.foldl step s)).length < (log (q.foldl step s)).length := by
    intro p q l m j k hpq hj hless
    rcases List.append_eq_append_iff.mp hpq with ⟨r, rfl, hr⟩ | ⟨r, rfl, hr⟩
    · cases r with
      | nil => simp at hless
      | cons x r =>
        cases hr
        rw [List.foldl_append, List.foldl_cons]
        exact hj.trans_le (h.length_le_foldl _ r)
    · rw [List.length_append] at hless
      omega
  rcases Nat.lt_trichotomy past.length past'.length with hless | heq | hless
  · exact absurd hlength (hlt hsplit hwrites hless).ne
  · exact heq
  · exact absurd hlength.symm (hlt hsplit.symm hwrites' hless).ne

end Grows

/-- `n` is a merge of `l` and `m` that keeps the order of each. -/
inductive Interleaves {α : Type*} : List α → List α → List α → Prop
  | nil : Interleaves [] [] []
  | left {l m n : List α} (a : α) (h : Interleaves l m n) : Interleaves (l ++ [a]) m (n ++ [a])
  | right {l m n : List α} (a : α) (h : Interleaves l m n) : Interleaves l (m ++ [a]) (n ++ [a])

namespace Interleaves
variable {α : Type*} {l m n : List α}

theorem map {β : Type*} (f : α → β) (h : Interleaves l m n) :
    Interleaves (l.map f) (m.map f) (n.map f) := by
  induction h with
  | nil => exact .nil
  | left a _ ih =>
    rw [List.map_append, List.map_append]
    exact ih.left (f a)
  | right a _ ih =>
    rw [List.map_append, List.map_append]
    exact ih.right (f a)

theorem filter (p : α → Bool) (h : Interleaves l m n) :
    Interleaves (l.filter p) (m.filter p) (n.filter p) := by
  induction h with
  | nil => exact .nil
  | @left l m n a _ ih =>
    rw [List.filter_append, List.filter_append]
    cases ha : p a with
    | true =>
      rw [List.filter_cons_of_pos ha]
      exact ih.left a
    | false =>
      rw [List.filter_cons_of_neg (Bool.eq_false_iff.mp ha), List.filter_nil, List.append_nil,
        List.append_nil]
      exact ih
  | @right l m n a _ ih =>
    rw [List.filter_append, List.filter_append]
    cases ha : p a with
    | true =>
      rw [List.filter_cons_of_pos ha]
      exact ih.right a
    | false =>
      rw [List.filter_cons_of_neg (Bool.eq_false_iff.mp ha), List.filter_nil, List.append_nil,
        List.append_nil]
      exact ih

end Interleaves
end Foundation
