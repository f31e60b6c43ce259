import Mathlib.Data.List.Induction

/-! Events in the order in which they happened: the last one of a kind, and what holds at each. -/
namespace Foundation
variable {α : Type*}

def lastOf (p : α → Bool) (l : List α) : Option α := (l.filter p).getLast?

variable {p : α → Bool} {l : List α} {a : α}

@[simp] theorem lastOf_nil (p : α → Bool) : lastOf p [] = none := rfl

theorem lastOf_append (p : α → Bool) (l m : List α) :
    lastOf p (l ++ m) = (lastOf p m).or (lastOf p l) := by
  unfold lastOf
  rw [List.filter_append, List.getLast?_append]

theorem lastOf_concat_of_pos (l : List α) (h : p a = true) : lastOf p (l ++ [a]) = some a := by
  unfold lastOf
  rw [List.filter_append, List.filter_cons_of_pos h, List.filter_nil, List.getLast?_concat]

theorem lastOf_concat_of_neg (l : List α) (h : ¬ p a = true) : lastOf p (l ++ [a]) = lastOf p l := by
  unfold lastOf
  rw [List.filter_append, List.filter_cons_of_neg h, List.filter_nil, List.append_nil]

theorem lastOf_concat (p : α → Bool) (l : List α) (a : α) :
    lastOf p (l ++ [a]) = if p a = true then some a else lastOf p l := by
  split
  · exact lastOf_concat_of_pos l ‹_›
  · exact lastOf_concat_of_neg l ‹_›

theorem mem_of_lastOf (h : lastOf p l = some a) : a ∈ l ∧ p a = true :=
  List.mem_filter.mp (List.mem_of_getLast? h)

theorem lastOf_eq_none : lastOf p l = none ↔ ∀ a ∈ l, ¬ p a = true := by
  unfold lastOf
  rw [List.getLast?_eq_none_iff, List.filter_eq_nil_iff]

/-- `P` holds of each element with the ones before it. -/
def AtEach (P : List α → α → Prop) (l : List α) : Prop :=
  ∀ past a later, l = past ++ a :: later → P past a

theorem atEach_nil (P : List α → α → Prop) : AtEach P [] := by
  intro past a later h
  simp at h

theorem AtEach.imp {P Q : List α → α → Prop} (h : AtEach P l) (himp : ∀ past a, P past a → Q past a) :
    AtEach Q l := fun past a later hl => himp past a (h past a later hl)

theorem atEach_and {P Q : List α → α → Prop} :
    AtEach (fun past a => P past a ∧ Q past a) l ↔ AtEach P l ∧ AtEach Q l :=
  ⟨fun h => ⟨h.imp fun _ _ => And.left, h.imp fun _ _ => And.right⟩,
    fun h past a later hl => ⟨h.1 past a later hl, h.2 past a later hl⟩⟩

theorem AtEach.of_isPrefix {P : List α → α → Prop} {m : List α} (h : AtEach P l) (hm : m <+: l) :
    AtEach P m := by
  obtain ⟨after, rfl⟩ := hm
  intro past a later hl
  refine h past a (later ++ after) ?_
  rw [hl, List.append_assoc, List.cons_append]

theorem atEach_cons {P : List α → α → Prop} :
    AtEach P (a :: l) ↔ P [] a ∧ AtEach (fun past => P (a :: past)) l := by
  constructor
  · intro h
    exact ⟨h [] a l rfl, fun past b later hl => h (a :: past) b later (congrArg (a :: ·) hl)⟩
  · intro h past b later hl
    cases past with
    | nil =>
      cases hl
      exact h.1
    | cons c past =>
      cases hl
      exact h.2 past b later rfl

theorem atEach_concat {P : List α → α → Prop} {l : List α} {a : α} :
    AtEach P (l ++ [a]) ↔ AtEach P l ∧ P l a := by
  constructor
  · intro h
    refine ⟨fun past b later hl => ?_, h l a [] rfl⟩
    refine h past b (later ++ [a]) ?_
    rw [hl, List.append_assoc, List.cons_append]
  · rintro ⟨h, ha⟩ past b later hl
    rcases List.eq_nil_or_concat later with rfl | ⟨later, c, rfl⟩
    · obtain ⟨rfl, hb⟩ := List.append_inj' hl rfl
      cases hb
      exact ha
    · rw [List.concat_eq_append, ← List.cons_append, ← List.append_assoc] at hl
      exact h past b later (List.append_inj' hl rfl).1

end Foundation
