import Mathlib.Data.Char
import Mathlib.Data.List.Basic
import Mathlib.Logic.Relation

/-! Regular expressions with anchors: what they read of a text, and a matcher for them. -/
namespace Foundation
open Relation

inductive Pattern
  | empty
  | any
  | oneOf (ranges : List (Char × Char))
  | startOfText
  | endOfText
  | seq (r s : Pattern)
  | alt (r s : Pattern)
  | star (r : Pattern)
deriving DecidableEq, Repr

/-- A position in a text: whether it is the first one, and what follows it. -/
structure Cursor where
  atStart : Bool
  rest : List Char
deriving DecidableEq, Repr

def inRanges (ranges : List (Char × Char)) (x : Char) : Bool :=
  ranges.any fun range => decide (range.1 ≤ x ∧ x ≤ range.2)

namespace Pattern

/-- The pattern can read the text from the one position to the other. -/
def Reads : Pattern → Cursor → Cursor → Prop
  | empty, c, c' => c' = c
  | any, c, c' => ∃ x rest, c.rest = x :: rest ∧ c' = ⟨false, rest⟩
  | oneOf ranges, c, c' =>
    ∃ x rest, inRanges ranges x = true ∧ c.rest = x :: rest ∧ c' = ⟨false, rest⟩
  | startOfText, c, c' => c.atStart = true ∧ c' = c
  | endOfText, c, c' => c.rest = [] ∧ c' = c
  | seq r s, c, c' => ∃ d, r.Reads c d ∧ s.Reads d c'
  | alt r s, c, c' => r.Reads c c' ∨ s.Reads c c'
  | star r, c, c' => ReflTransGen r.Reads c c'

/-- A search finds a match somewhere in the text. -/
def OccursIn (r : Pattern) (s : List Char) : Prop :=
  ∃ before after c, s = before ++ after ∧ r.Reads ⟨before.isEmpty, after⟩ c

def char (x : Char) : Pattern := oneOf [(x, x)]

/-- One pattern after the other. -/
def sequence (rs : List Pattern) : Pattern := rs.foldr seq empty

section reads
variable {r s : Pattern} {rs : List Pattern} {c c' : Cursor}

theorem not_reads_any_nil {atStart : Bool} : ¬ any.Reads ⟨atStart, []⟩ c' := by
  intro h
  obtain ⟨x, rest, hrest, _⟩ := h
  cases hrest

theorem reads_any_cons {atStart : Bool} {x : Char} {rest : List Char} :
    any.Reads ⟨atStart, x :: rest⟩ c' ↔ c' = ⟨false, rest⟩ := by
  constructor
  · intro h
    obtain ⟨y, after, hrest, rfl⟩ := h
    cases hrest
    rfl
  · rintro rfl
    exact ⟨x, rest, rfl, rfl⟩

theorem not_reads_oneOf_nil {ranges : List (Char × Char)} {atStart : Bool} :
    ¬ (oneOf ranges).Reads ⟨atStart, []⟩ c' := by
  intro h
  obtain ⟨x, rest, _, hrest, _⟩ := h
  cases hrest

theorem reads_oneOf_cons {ranges : List (Char × Char)} {atStart : Bool} {x : Char}
    {rest : List Char} : (oneOf ranges).Reads ⟨atStart, x :: rest⟩ c' ↔
      inRanges ranges x = true ∧ c' = ⟨false, rest⟩ := by
  constructor
  · intro h
    obtain ⟨y, after, hy, hrest, rfl⟩ := h
    cases hrest
    exact ⟨hy, rfl⟩
  · intro h
    obtain ⟨hx, rfl⟩ := h
    exact ⟨x, rest, hx, rfl, rfl⟩

theorem reads_char {x : Char} :
    (char x).Reads c c' ↔ ∃ rest, c.rest = x :: rest ∧ c' = ⟨false, rest⟩ := by
  simp only [char, Reads, inRanges, List.any_cons, List.any_nil, Bool.or_false, decide_eq_true_eq]
  constructor
  · intro h
    obtain ⟨y, rest, ⟨hle, hge⟩, hrest, hc⟩ := h
    rw [le_antisymm hge hle] at hrest
    exact ⟨rest, hrest, hc⟩
  · intro h
    obtain ⟨rest, hrest, hc⟩ := h
    exact ⟨x, rest, ⟨le_rfl, le_rfl⟩, hrest, hc⟩

theorem reads_sequence_nil : (sequence []).Reads c c' ↔ c' = c := Iff.rfl

theorem reads_sequence_cons :
    (sequence (r :: rs)).Reads c c' ↔ ∃ d, r.Reads c d ∧ (sequence rs).Reads d c' := Iff.rfl

/-- Whatever is read, the text is not longer after it, and as long only when nothing is read. -/
theorem Reads.progress (h : r.Reads c c') : c' = c ∨ c'.rest.length < c.rest.length := by
  induction r generalizing c c' with
  | empty => exact Or.inl h
  | any =>
    obtain ⟨x, rest, hrest, rfl⟩ := h
    rw [hrest, List.length_cons]
    exact Or.inr (Nat.lt_succ_self _)
  | oneOf ranges =>
    obtain ⟨x, rest, _, hrest, rfl⟩ := h
    rw [hrest, List.length_cons]
    exact Or.inr (Nat.lt_succ_self _)
  | startOfText => exact Or.inl h.2
  | endOfText => exact Or.inl h.2
  | seq r s ihr ihs =>
    obtain ⟨d, hr, hs⟩ := h
    rcases ihr hr with rfl | hlt
    · exact ihs hs
    · rcases ihs hs with rfl | hlt'
      · exact Or.inr hlt
      · exact Or.inr (Nat.lt_trans hlt' hlt)
  | alt r s ihr ihs =>
    rcases h with hr | hs
    · exact ihr hr
    · exact ihs hs
  | star r ih =>
    induction h with
    | refl => exact Or.inl rfl
    | tail _ hstep ihtail =>
      rcases ih hstep with rfl | hlt
      · exact ihtail
      · rcases ihtail with rfl | hlt'
        · exact Or.inr hlt
        · exact Or.inr (Nat.lt_trans hlt hlt')

/-- `.*` reaches the end of the text. -/
theorem reads_star_any (c : Cursor) : ∃ c', (star any).Reads c c' ∧ c'.rest = [] := by
  obtain ⟨atStart, rest⟩ := c
  induction rest generalizing atStart with
  | nil => exact ⟨⟨atStart, []⟩, ReflTransGen.refl, rfl⟩
  | cons x rest ih =>
    obtain ⟨c', hreads, hrest⟩ := ih false
    exact ⟨c', ReflTransGen.head ⟨x, rest, rfl, rfl⟩ hreads, hrest⟩

end reads

section admits

/-- The patterns can be read one after the other from the position on. -/
def Admits (rs : List Pattern) (c : Cursor) : Prop := ∃ c', (sequence rs).Reads c c'

variable {r s : Pattern} {rs ss : List Pattern} {c : Cursor}

theorem reads_sequence_append {c' : Cursor} : (sequence (rs ++ ss)).Reads c c' ↔
    ∃ d, (sequence rs).Reads c d ∧ (sequence ss).Reads d c' := by
  induction rs generalizing c with
  | nil => simp [reads_sequence_nil]
  | cons r rs ih =>
    rw [List.cons_append, reads_sequence_cons]
    simp only [ih, reads_sequence_cons]
    constructor
    · intro h
      obtain ⟨d, hr, e, hrs, hss⟩ := h
      exact ⟨e, ⟨d, hr, hrs⟩, hss⟩
    · intro h
      obtain ⟨e, ⟨d, hr, hrs⟩, hss⟩ := h
      exact ⟨d, hr, e, hrs, hss⟩

theorem admits_cons : Admits (r :: rs) c ↔ ∃ d, r.Reads c d ∧ Admits rs d := by
  unfold Admits
  simp only [reads_sequence_cons]
  constructor
  · intro h
    obtain ⟨c', d, hr, hrs⟩ := h
    exact ⟨d, hr, c', hrs⟩
  · intro h
    obtain ⟨d, hr, c', hrs⟩ := h
    exact ⟨c', d, hr, hrs⟩

@[simp] theorem admits_sequence : Admits (sequence rs :: ss) c ↔ Admits (rs ++ ss) c := by
  rw [admits_cons]
  unfold Admits
  simp only [reads_sequence_append]
  constructor
  · intro h
    obtain ⟨d, hrs, c', hss⟩ := h
    exact ⟨c', d, hrs, hss⟩
  · intro h
    obtain ⟨c', d, hrs, hss⟩ := h
    exact ⟨d, hrs, c', hss⟩

@[simp] theorem admits_alt :
    Admits (alt r s :: rs) c ↔ Admits (r :: rs) c ∨ Admits (s :: rs) c := by
  simp only [admits_cons, Reads, or_and_right, exists_or]

@[simp] theorem admits_char {x : Char} : Admits (char x :: rs) c ↔
    ∃ rest, c.rest = x :: rest ∧ Admits rs ⟨false, rest⟩ := by
  rw [admits_cons]
  simp only [reads_char]
  constructor
  · intro h
    obtain ⟨_, ⟨rest, hrest, rfl⟩, hrs⟩ := h
    exact ⟨rest, hrest, hrs⟩
  · intro h
    obtain ⟨rest, hrest, hrs⟩ := h
    exact ⟨⟨false, rest⟩, ⟨rest, hrest, rfl⟩, hrs⟩

theorem admits_char_self {x : Char} {atStart : Bool} {rest : List Char} :
    Admits (char x :: rs) ⟨atStart, x :: rest⟩ ↔ Admits rs ⟨false, rest⟩ := by
  simp

@[simp] theorem admits_oneOf {ranges : List (Char × Char)} : Admits (oneOf ranges :: rs) c ↔
    ∃ x rest, c.rest = x :: rest ∧ inRanges ranges x = true ∧ Admits rs ⟨false, rest⟩ := by
  rw [admits_cons]
  constructor
  · intro h
    obtain ⟨_, ⟨x, rest, hx, hrest, rfl⟩, hrs⟩ := h
    exact ⟨x, rest, hrest, hx, hrs⟩
  · intro h
    obtain ⟨x, rest, hrest, hx, hrs⟩ := h
    exact ⟨⟨false, rest⟩, ⟨x, rest, hx, hrest, rfl⟩, hrs⟩

/-- `.*$` can be read from everywhere. -/
@[simp] theorem admits_to_end : Admits [star any, endOfText] c := by
  obtain ⟨c', hreads, hrest⟩ := reads_star_any c
  exact ⟨c', c', hreads, c', ⟨hrest, rfl⟩, rfl⟩

/-- An expression that begins with `^` matches at the start of the text or not at all. -/
theorem occursIn_startOfText {text : List Char} :
    (sequence (startOfText :: rs)).OccursIn text ↔ Admits rs ⟨true, text⟩ := by
  constructor
  · intro h
    obtain ⟨before, after, c', rfl, d, ⟨hstart, rfl⟩, hrs⟩ := h
    cases before with
    | nil => exact ⟨c', hrs⟩
    | cons x before => cases hstart
  · intro h
    obtain ⟨c', hrs⟩ := h
    exact ⟨[], text, c', rfl, ⟨true, text⟩, ⟨rfl, rfl⟩, hrs⟩

end admits

section matcher

/-- The positions that a loop reaches, when each round but the last must read something. -/
def starEnds (step : Cursor → List Cursor) : ℕ → Cursor → List Cursor
  | 0, c => [c]
  | n + 1, c => c :: ((step c).filter fun d => decide (d.rest.length < c.rest.length)).flatMap
      (starEnds step n)

/-- The positions up to which the pattern can read. -/
def ends : Pattern → Cursor → List Cursor
  | empty, c => [c]
  | any, c =>
    match c.rest with
    | [] => []
    | _ :: rest => [⟨false, rest⟩]
  | oneOf ranges, c =>
    match c.rest with
    | [] => []
    | x :: rest => if inRanges ranges x = true then [⟨false, rest⟩] else []
  | startOfText, c => if c.atStart = true then [c] else []
  | endOfText, c => if c.rest = [] then [c] else []
  | seq r s, c => (r.ends c).flatMap s.ends
  | alt r s, c => r.ends c ++ s.ends c
  | star r, c => starEnds r.ends c.rest.length c

/-- The positions of a text. -/
def cursors : Bool → List Char → List Cursor
  | atStart, [] => [⟨atStart, []⟩]
  | atStart, x :: rest => ⟨atStart, x :: rest⟩ :: cursors false rest

def occursIn (r : Pattern) (s : List Char) : Bool :=
  (cursors true s).any fun c => !(r.ends c).isEmpty

theorem mem_starEnds {R : Cursor → Cursor → Prop} {step : Cursor → List Cursor}
    (hstep : ∀ c d, d ∈ step c ↔ R c d)
    (hprogress : ∀ c d, R c d → d = c ∨ d.rest.length < c.rest.length) {n : ℕ} {c c' : Cursor}
    (hn : c.rest.length ≤ n) : c' ∈ starEnds step n c ↔ ReflTransGen R c c' := by
  induction n generalizing c with
  | zero =>
    rw [starEnds, List.mem_singleton]
    constructor
    · rintro rfl
      exact ReflTransGen.refl
    · intro h
      induction h with
      | refl => rfl
      | tail _ hR ih =>
        rcases hprogress _ _ hR with rfl | hlt
        · exact ih
        · rw [ih] at hlt
          omega
  | succ n ih =>
    rw [starEnds, List.mem_cons, List.mem_flatMap]
    constructor
    · intro h
      rcases h with rfl | ⟨d, hd, hc'⟩
      · exact ReflTransGen.refl
      · obtain ⟨hd, hlt⟩ := List.mem_filter.mp hd
        have hlength : d.rest.length ≤ n := by
          have := of_decide_eq_true hlt
          omega
        exact ReflTransGen.head ((hstep c d).mp hd) ((ih hlength).mp hc')
    · intro h
      induction h using ReflTransGen.head_induction_on with
      | refl => exact Or.inl rfl
      | @head c d hR hrest ihrest =>
        rcases hprogress c d hR with rfl | hlt
        · exact ihrest hn
        · refine Or.inr ⟨d, List.mem_filter.mpr ⟨(hstep c d).mpr hR, decide_eq_true hlt⟩, ?_⟩
          exact (ih (by omega)).mpr hrest

theorem mem_ends {r : Pattern} {c c' : Cursor} : c' ∈ r.ends c ↔ r.Reads c c' := by
  induction r generalizing c c' with
  | empty => exact List.mem_singleton
  | any =>
    obtain ⟨atStart, rest⟩ := c
    cases rest with
    | nil => exact iff_of_false List.not_mem_nil not_reads_any_nil
    | cons x rest => exact List.mem_singleton.trans reads_any_cons.symm
  | oneOf ranges =>
    obtain ⟨atStart, rest⟩ := c
    cases rest with
    | nil => exact iff_of_false List.not_mem_nil not_reads_oneOf_nil
    | cons x rest =>
      rw [reads_oneOf_cons]
      by_cases hx : inRanges ranges x = true
      · simp [ends, hx]
      · simp [ends, hx]
  | startOfText =>
    by_cases hc : c.atStart = true
    · simp [ends, Reads, hc]
    · simp [ends, Reads, hc]
  | endOfText =>
    by_cases hc : c.rest = []
    · simp [ends, Reads, hc]
    · simp [ends, Reads, hc]
  | seq r s ihr ihs => simp only [ends, Reads, List.mem_flatMap, ihr, ihs]
  | alt r s ihr ihs => simp only [ends, Reads, List.mem_append, ihr, ihs]
  | star r ih =>
    exact mem_starEnds (fun _ _ => ih) (fun _ _ h => h.progress) le_rfl

theorem mem_cursors {atStart : Bool} {s : List Char} {c : Cursor} :
    c ∈ cursors atStart s ↔
      ∃ before after, s = before ++ after ∧ c = ⟨before.isEmpty && atStart, after⟩ := by
  induction s generalizing atStart with
  | nil =>
    rw [cursors, List.mem_singleton]
    constructor
    · rintro rfl
      exact ⟨[], [], rfl, rfl⟩
    · intro h
      obtain ⟨before, after, hsplit, rfl⟩ := h
      obtain ⟨rfl, rfl⟩ := List.append_eq_nil_iff.mp hsplit.symm
      rfl
  | cons x s ih =>
    rw [cursors, List.mem_cons, ih]
    constructor
    · intro h
      rcases h with rfl | ⟨before, after, rfl, rfl⟩
      · exact ⟨[], x :: s, rfl, rfl⟩
      · exact ⟨x :: before, after, rfl, by simp⟩
    · intro h
      obtain ⟨before, after, hsplit, rfl⟩ := h
      cases before with
      | nil =>
        cases hsplit
        exact Or.inl rfl
      | cons y before =>
        obtain ⟨rfl, rfl⟩ := List.cons.inj hsplit
        exact Or.inr ⟨before, after, rfl, by simp⟩

/-- The matcher finds a match exactly when there is one. -/
theorem occursIn_iff {r : Pattern} {s : List Char} : r.occursIn s = true ↔ r.OccursIn s := by
  unfold occursIn OccursIn
  rw [List.any_eq_true]
  constructor
  · intro h
    obtain ⟨c, hc, hends⟩ := h
    obtain ⟨before, after, hsplit, rfl⟩ := mem_cursors.mp hc
    rw [Bool.and_true] at hends
    obtain ⟨c', hc'⟩ := List.isEmpty_eq_false_iff_exists_mem.mp (by simpa using hends)
    exact ⟨before, after, c', hsplit, mem_ends.mp hc'⟩
  · intro h
    obtain ⟨before, after, c', hsplit, hreads⟩ := h
    refine ⟨⟨before.isEmpty, after⟩, mem_cursors.mpr ⟨before, after, hsplit, by simp⟩, ?_⟩
    have hmem := mem_ends.mpr hreads
    have hnonempty := List.isEmpty_eq_false_iff_exists_mem.mpr ⟨c', hmem⟩
    rw [hnonempty]
    rfl

end matcher
end Pattern
end Foundation
