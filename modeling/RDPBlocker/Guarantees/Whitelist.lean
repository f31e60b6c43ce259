import RDPBlocker.Foundation.Decimal
import RDPBlocker.Program.Whitelist

/-! Which addresses the shipped white list covers. -/
namespace RDPBlocker
open Foundation Pattern

/-- An octet and the dot after it. -/
def octet (n : ℕ) (rs : List Pattern) : List Pattern := number n ++ char '.' :: rs

/-- `.*$`. -/
def toEnd : List Pattern := [star any, endOfText]

/-- `(([6-9][4-9])|(1[0-2][0-7]))`. -/
def sharedBlock : Pattern :=
  alt (sequence [sequence [digit 6 9, digit 4 9]])
    (sequence [sequence [digit 1 1, digit 0 2, digit 0 7]])

/-- `((1[6-9])|(2[0-9])|(3[0-1]))`. -/
def privateBlock : Pattern :=
  alt (sequence [sequence [digit 1 1, digit 6 9]])
    (alt (sequence [sequence [digit 2 2, digit 0 9]]) (sequence [sequence [digit 3 3, digit 0 1]]))

/-- The second octets of 100.64.0.0-100.127.255.255 whose two last digits `sharedBlock` does not
combine. -/
def SharedGap (b : ℕ) : Prop :=
  70 ≤ b ∧ b ≤ 73 ∨ 80 ≤ b ∧ b ≤ 83 ∨ 90 ≤ b ∧ b ≤ 93 ∨ 108 ≤ b ∧ b ≤ 109 ∨ 118 ≤ b ∧ b ≤ 119

/-- What the shipped expressions say after `^`. -/
def shippedPatterns : List (List Pattern) :=
  [octet 0 toEnd, octet 10 toEnd, octet 100 (sharedBlock :: toEnd),
    octet 127 toEnd, octet 172 (privateBlock :: char '.' :: toEnd), octet 192 (octet 168 toEnd)]

theorem parse_shipped : shippedWhitelist.map parse =
    shippedPatterns.map fun rs => some (sequence (startOfText :: rs)) := by decide

section reading
variable {rs : List Pattern} {atStart : Bool} {u : List Char}

theorem admits_octet {m n : ℕ} :
    Admits (octet n rs) ⟨atStart, Nat.toDigits 10 m ++ '.' :: u⟩ ↔ m = n ∧ Admits rs ⟨false, u⟩ :=
  admits_number (by decide)

/-- A dot is not in any range of digits. -/
theorem not_admits_digit_dot {low high : ℕ} (hlow : low < 10) (hhigh : high < 10) :
    ¬ Admits (digit low high :: rs) ⟨atStart, '.' :: u⟩ := by
  have hall : ∀ low high : Fin 10,
      inRanges [(Nat.digitChar low, Nat.digitChar high)] '.' = false := by decide
  rw [digit, admits_oneOf]
  intro h
  obtain ⟨x, rest, hrest, hx, _⟩ := h
  cases hrest
  rw [hall ⟨low, hlow⟩ ⟨high, hhigh⟩] at hx
  cases hx

theorem not_admits_dot_digit {n : ℕ} (hn : n < 10) :
    ¬ Admits (char '.' :: rs) ⟨atStart, n.digitChar :: u⟩ := by
  have hall : ∀ n : Fin 10, Nat.digitChar n ≠ '.' := by decide
  rw [admits_char]
  intro h
  obtain ⟨rest, hrest, _⟩ := h
  exact hall ⟨n, hn⟩ (List.cons.inj hrest).1

theorem admits_sharedBlock {b : ℕ} (hb : b < 256) :
    Admits (sharedBlock :: toEnd) ⟨false, Nat.toDigits 10 b ++ '.' :: u⟩ ↔
      (64 ≤ b ∧ b ≤ 127) ∧ ¬ SharedGap b := by
  unfold sharedBlock toEnd SharedGap
  rcases lt_or_ge b 10 with hten | hten
  · rw [Nat.toDigits_of_lt_base hten]
    simp (disch := omega) only [admits_alt, admits_sequence, List.cons_append, List.nil_append,
      admits_digit, not_admits_digit_dot, and_false, or_false, false_iff]
    omega
  · rcases lt_or_ge b 100 with hhundred | hhundred
    · rw [toDigits_of_lt_hundred hten hhundred]
      simp (disch := omega) only [admits_alt, admits_sequence, List.cons_append, List.nil_append,
        admits_digit, not_admits_digit_dot, admits_to_end, and_true, and_false, or_false]
      omega
    · rw [toDigits_of_lt_thousand hhundred (by omega)]
      simp (disch := omega) only [admits_alt, admits_sequence, List.cons_append, List.nil_append,
        admits_digit, admits_to_end, and_true]
      omega

theorem admits_privateBlock {b : ℕ} (hb : b < 256) :
    Admits (privateBlock :: char '.' :: toEnd) ⟨false, Nat.toDigits 10 b ++ '.' :: u⟩ ↔
      16 ≤ b ∧ b ≤ 31 := by
  unfold privateBlock toEnd
  rcases lt_or_ge b 10 with hten | hten
  · rw [Nat.toDigits_of_lt_base hten]
    simp (disch := omega) only [admits_alt, admits_sequence, List.cons_append, List.nil_append,
      admits_digit, not_admits_digit_dot, and_false, or_false, false_iff]
    omega
  · rcases lt_or_ge b 100 with hhundred | hhundred
    · rw [toDigits_of_lt_hundred hten hhundred]
      simp (disch := omega) only [admits_alt, admits_sequence, List.cons_append, List.nil_append,
        admits_digit, admits_char_self, admits_to_end, and_true]
      omega
    · rw [toDigits_of_lt_thousand hhundred (by omega)]
      simp (disch := omega) only [admits_alt, admits_sequence, List.cons_append, List.nil_append,
        admits_digit, not_admits_dot_digit, and_false, or_false, false_iff]
      omega

end reading

theorem IPv4Address.toList_dottedQuad (ip : IPv4Address) : ip.dottedQuad.toList =
    Nat.toDigits 10 ip.a ++ '.' :: (Nat.toDigits 10 ip.b ++ '.' ::
      (Nat.toDigits 10 ip.c ++ '.' :: Nat.toDigits 10 ip.d)) := by
  unfold dottedQuad
  simp only [String.toList_append, Nat.toList_repr, List.append_assoc]
  rfl

theorem IPv4Address.printable_dottedQuad (ip : IPv4Address) : Printable ip.dottedQuad := by
  have hdigit : ∀ n x, x ∈ Nat.toDigits 10 n → ' ' ≤ x ∧ x ≤ '~' := by
    intro n x hx
    have hrange := Nat.isDigit_of_mem_toDigits (by decide) (by decide) hx
    rw [Char.isDigit, Bool.and_eq_true, decide_eq_true_eq, decide_eq_true_eq] at hrange
    exact ⟨le_trans (by decide) hrange.1, le_trans hrange.2 (by decide)⟩
  intro x hx
  rw [toList_dottedQuad] at hx
  simp only [List.mem_append, List.mem_cons] at hx
  rcases hx with hx | rfl | hx | rfl | hx | rfl | hx
  · exact hdigit _ x hx
  · decide
  · exact hdigit _ x hx
  · decide
  · exact hdigit _ x hx
  · decide
  · exact hdigit _ x hx

variable {B : Boost}

/-- The loop over the white list, with the expressions read as patterns. -/
theorem isWhiteAddress_iff_admits (hB : B.SearchesPatterns) (haddr : B.SearchesAddresses)
    {c : ApplicationIPConfig B} (hc : c.mWhitelist.map (·.expression) = shippedWhitelist)
    (ip : IPv4Address) : c.isWhiteAddress ip.dottedQuad = .ok true ↔
      ∃ rs ∈ shippedPatterns, Admits rs ⟨true, ip.dottedQuad.toList⟩ := by
  have hshipped : ∀ p ∈ shippedWhitelist, Printable p := by decide
  have hsearch : ∀ p ∈ shippedWhitelist, B.regexSearch p ip.dottedQuad = some true ↔
      ∃ r, parse p = some r ∧ r.OccursIn ip.dottedQuad.toList := by
    intro p hp
    have hmem : parse p ∈ shippedPatterns.map fun rs => some (sequence (startOfText :: rs)) := by
      rw [← parse_shipped]
      exact List.mem_map_of_mem hp
    obtain ⟨rs, _, hparse⟩ := List.mem_map.mp hmem
    obtain ⟨found, hfound⟩ := haddr p hp ip
    have hiff := (hB p _ (hshipped p hp) hparse.symm).2 _ found ip.printable_dottedQuad hfound
    rw [hfound, Option.some.injEq, hiff, ← hparse]
    simp only [Option.some.injEq, exists_eq_left']
  have hreturns : ∀ expression ∈ c.mWhitelist, regexIsMatch expression ip.dottedQuad =
      .ok (decide (B.regexSearch expression.expression ip.dottedQuad = some true)) := by
    intro expression hmem
    have hp : expression.expression ∈ shippedWhitelist := by
      rw [← hc]
      exact List.mem_map_of_mem hmem
    obtain ⟨found, hfound⟩ := haddr _ hp ip
    rw [regexIsMatch_eq_ok]
    simp [hfound]
  have hany : c.isWhiteAddress ip.dottedQuad = .ok (c.mWhitelist.any fun expression =>
      decide (B.regexSearch expression.expression ip.dottedQuad = some true)) :=
    anyM_eq_ok hreturns
  calc c.isWhiteAddress ip.dottedQuad = .ok true
      ↔ ∃ p ∈ shippedWhitelist, B.regexSearch p ip.dottedQuad = some true := by
        rw [hany, Except.ok.injEq, List.any_eq_true, ← hc]
        simp only [decide_eq_true_eq, List.mem_map, exists_exists_and_eq_and]
    _ ↔ ∃ p ∈ shippedWhitelist, ∃ r, parse p = some r ∧ r.OccursIn ip.dottedQuad.toList :=
        exists_congr fun p => and_congr_right (hsearch p)
    _ ↔ ∃ parsed ∈ shippedWhitelist.map parse,
          ∃ r, parsed = some r ∧ r.OccursIn ip.dottedQuad.toList := by
        simp only [List.mem_map, exists_exists_and_eq_and]
    _ ↔ ∃ rs ∈ shippedPatterns, Admits rs ⟨true, ip.dottedQuad.toList⟩ := by
        rw [parse_shipped]
        simp only [List.mem_map, exists_exists_and_eq_and, Option.some.injEq, exists_eq_left',
          occursIn_startOfText]

/-- What the six expressions accept, octet by octet. -/
theorem isWhiteAddress_iff (hB : B.SearchesPatterns) (haddr : B.SearchesAddresses)
    {c : ApplicationIPConfig B} (hc : c.mWhitelist.map (·.expression) = shippedWhitelist)
    (ip : IPv4Address) : c.isWhiteAddress ip.dottedQuad = .ok true ↔
      ip.a.val = 0 ∨ ip.a.val = 10 ∨
        (ip.a.val = 100 ∧ (64 ≤ ip.b.val ∧ ip.b.val ≤ 127) ∧ ¬ SharedGap ip.b) ∨
        ip.a.val = 127 ∨ (ip.a.val = 172 ∧ 16 ≤ ip.b.val ∧ ip.b.val ≤ 31) ∨
        (ip.a.val = 192 ∧ ip.b.val = 168) := by
  have htoEnd : ∀ c, Admits toEnd c := fun _ => admits_to_end
  rw [isWhiteAddress_iff_admits hB haddr hc ip, ip.toList_dottedQuad]
  simp only [shippedPatterns, List.mem_cons, List.not_mem_nil, or_false, exists_eq_or_imp,
    exists_eq_left, admits_octet, htoEnd, and_true, admits_sharedBlock ip.b.isLt,
    admits_privateBlock ip.b.isLt]

/-- The third expression misses the address. -/
def IPv4Address.Missed (ip : IPv4Address) : Prop := ip.a.val = 100 ∧ SharedGap ip.b

theorem SharedGap.inside {b : ℕ} (h : SharedGap b) : 64 ≤ b ∧ b ≤ 127 := by
  unfold SharedGap at h
  omega

/-- The shipped white list decides an address as its comments say exactly when the third expression
does not miss it. -/
theorem whitelist_covers_documented_iff (hB : B.SearchesPatterns) (haddr : B.SearchesAddresses)
    {c : ApplicationIPConfig B} (hc : c.mWhitelist.map (·.expression) = shippedWhitelist)
    (ip : IPv4Address) :
    (c.isWhiteAddress ip.dottedQuad = .ok true ↔ ip.InDocumentedRange) ↔ ¬ ip.Missed := by
  rw [isWhiteAddress_iff hB haddr hc, ip.inDocumentedRange_iff]
  unfold IPv4Address.Missed
  by_cases ha : ip.a.val = 100
  · have hinside := SharedGap.inside (b := ip.b)
    simp only [ha, true_and, Nat.reduceEqDiff, OfNat.ofNat_ne_zero, false_and, false_or, or_false]
    exact ⟨fun h hgap => (h.mpr (hinside hgap)).2 hgap, fun hgap => and_iff_left hgap⟩
  · simp only [ha, false_and, not_false_iff]

/-- The shipped white list, as the constructor of `boost::regex` accepts it. -/
def shippedIpConfig : ApplicationIPConfig Boost.patterns where
  mWhitelist := shippedWhitelist.filterMap fun p =>
    if h : Boost.patterns.regexAccepts p = true then some ⟨p, h⟩ else none

theorem shippedIpConfig_expressions :
    shippedIpConfig.mWhitelist.map (·.expression) = shippedWhitelist := by decide

theorem whitelist_covers_documented_iff_loopback :
    (shippedIpConfig.isWhiteAddress (IPv4Address.dottedQuad ⟨127, 0, 0, 1⟩) = .ok true ↔
        IPv4Address.InDocumentedRange ⟨127, 0, 0, 1⟩) ∧
      ¬ IPv4Address.Missed ⟨127, 0, 0, 1⟩ := by
  have hmissed : ¬ IPv4Address.Missed ⟨127, 0, 0, 1⟩ := fun h => absurd h.1 (by decide)
  exact ⟨(whitelist_covers_documented_iff Boost.patterns_searchesPatterns
    Boost.patterns_searchesAddresses shippedIpConfig_expressions ⟨127, 0, 0, 1⟩).mpr hmissed,
    hmissed⟩

/-- 100.70.0.1 is in the documented ranges, and is not white. -/
theorem shared_address_is_missed :
    IPv4Address.dottedQuad ⟨100, 70, 0, 1⟩ = "100.70.0.1" ∧
      IPv4Address.InDocumentedRange ⟨100, 70, 0, 1⟩ ∧
      shippedIpConfig.isWhiteAddress "100.70.0.1" = .ok false := by
  refine ⟨by decide, by decide, by decide⟩

end RDPBlocker
