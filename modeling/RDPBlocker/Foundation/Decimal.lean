import Mathlib.Data.Nat.Notation
import RDPBlocker.Foundation.Pattern

/-! Decimal numbers in a text, and patterns for them and for their digits. -/
namespace Foundation

theorem toDigits_of_lt_hundred {n : ℕ} (h : 10 ≤ n) (h' : n < 100) :
    Nat.toDigits 10 n = [(n / 10).digitChar, (n % 10).digitChar] := by
  have hten : n / 10 < 10 := by omega
  rw [Nat.toDigits_of_base_le (by decide) h, Nat.toDigits_of_lt_base hten]
  rfl

theorem toDigits_of_lt_thousand {n : ℕ} (h : 100 ≤ n) (h' : n < 1000) :
    Nat.toDigits 10 n = [(n / 100).digitChar, (n / 10 % 10).digitChar, (n % 10).digitChar] := by
  have hhundred : n / 10 / 10 = n / 100 := Nat.div_div_eq_div_mul n 10 10
  rw [Nat.toDigits_of_base_le (by decide) (by omega),
    toDigits_of_lt_hundred (by omega) (by omega), hhundred]
  rfl

theorem not_mem_toDigits {x : Char} (hx : x.isDigit = false) (n : ℕ) : x ∉ Nat.toDigits 10 n := by
  intro hmem
  rw [Nat.isDigit_of_mem_toDigits (by decide) (by decide) hmem] at hx
  cases hx

theorem toDigits_inj {m n : ℕ} (h : Nat.toDigits 10 m = Nat.toDigits 10 n) : m = n := by
  rw [← Nat.ofDigitChars_ten_toDigits (n := m), h, Nat.ofDigitChars_ten_toDigits]

theorem append_separator_inj {x : Char} {v w s t : List Char} (hv : x ∉ v) (hw : x ∉ w) :
    v ++ x :: s = w ++ x :: t ↔ v = w ∧ s = t := by
  induction v generalizing w with
  | nil =>
    cases w with
    | nil => simp
    | cons y w =>
      have hxy : x ≠ y := fun heq => hw (heq ▸ List.mem_cons_self)
      simp [hxy]
  | cons y v ih =>
    rw [List.mem_cons, not_or] at hv
    cases w with
    | nil => simp [Ne.symm hv.1]
    | cons z w =>
      rw [List.mem_cons, not_or] at hw
      simp only [List.cons_append, List.cons.injEq, ih hv.2 hw.2, and_assoc]

/-- A number ends where something that is no digit begins. -/
theorem toDigits_append_inj {m n : ℕ} {x : Char} (hx : x.isDigit = false) {u v : List Char} :
    Nat.toDigits 10 m ++ x :: u = Nat.toDigits 10 n ++ x :: v ↔ m = n ∧ u = v := by
  rw [append_separator_inj (not_mem_toDigits hx m) (not_mem_toDigits hx n)]
  exact and_congr_left fun _ => ⟨toDigits_inj, fun h => by rw [h]⟩

namespace Pattern

def number (n : ℕ) : List Pattern := (Nat.toDigits 10 n).map char

/-- One digit of a range. -/
def digit (low high : ℕ) : Pattern := oneOf [(low.digitChar, high.digitChar)]

variable {rs : List Pattern} {c : Cursor} {atStart : Bool} {u : List Char}

theorem admits_word {word : List Char} : Admits (word.map char ++ rs) c ↔
    ∃ rest, c.rest = word ++ rest ∧ Admits rs ⟨c.atStart && word.isEmpty, rest⟩ := by
  induction word generalizing c with
  | nil =>
    obtain ⟨atStart, rest⟩ := c
    simp
  | cons x word ih =>
    simp only [List.map_cons, List.cons_append, admits_char, ih]
    constructor
    · intro h
      obtain ⟨_, hrest, rest, rfl, hrs⟩ := h
      exact ⟨rest, hrest, by simpa using hrs⟩
    · intro h
      obtain ⟨rest, hrest, hrs⟩ := h
      exact ⟨word ++ rest, hrest, rest, rfl, by simpa using hrs⟩

theorem admits_number {m n : ℕ} {x : Char} (hx : x.isDigit = false) :
    Admits (number n ++ char x :: rs) ⟨atStart, Nat.toDigits 10 m ++ x :: u⟩ ↔
      m = n ∧ Admits rs ⟨false, u⟩ := by
  unfold number
  rw [admits_word]
  simp only [admits_char]
  constructor
  · intro h
    obtain ⟨_, hrest, v, rfl, hrs⟩ := h
    obtain ⟨rfl, rfl⟩ := (toDigits_append_inj hx).mp hrest
    exact ⟨rfl, hrs⟩
  · intro h
    obtain ⟨rfl, hrs⟩ := h
    exact ⟨x :: u, rfl, u, rfl, hrs⟩

theorem inRanges_digitChar {low high n : ℕ} (hlow : low < 10) (hhigh : high < 10) (hn : n < 10) :
    inRanges [(low.digitChar, high.digitChar)] n.digitChar = true ↔ low ≤ n ∧ n ≤ high := by
  have hall : ∀ low high n : Fin 10,
      inRanges [(Nat.digitChar low, Nat.digitChar high)] (Nat.digitChar n) = true ↔
        low ≤ n ∧ n ≤ high := by decide
  exact hall ⟨low, hlow⟩ ⟨high, hhigh⟩ ⟨n, hn⟩

theorem admits_digit {low high n : ℕ} (hlow : low < 10) (hhigh : high < 10) (hn : n < 10) :
    Admits (digit low high :: rs) ⟨atStart, n.digitChar :: u⟩ ↔
      (low ≤ n ∧ n ≤ high) ∧ Admits rs ⟨false, u⟩ := by
  rw [digit, admits_oneOf, ← inRanges_digitChar hlow hhigh hn]
  constructor
  · intro h
    obtain ⟨x, rest, hrest, hx, hrs⟩ := h
    cases hrest
    exact ⟨hx, hrs⟩
  · intro h
    obtain ⟨hx, hrs⟩ := h
    exact ⟨n.digitChar, u, rfl, hx, hrs⟩

end Pattern
end Foundation
