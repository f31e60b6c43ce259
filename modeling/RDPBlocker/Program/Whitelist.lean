import RDPBlocker.Foundation.PatternSyntax
import RDPBlocker.Program.Config

/-! The white list of the shipped configuration, and the addresses that it is for. -/
namespace RDPBlocker
open Foundation

/-- `IP_Address.whitelist` of config.yaml. -/
def shippedWhitelist : List String :=
  ["^0\\..*$", "^10\\..*$", "^100\\.(([6-9][4-9])|(1[0-2][0-7])).*$", "^127\\..*$",
    "^172\\.((1[6-9])|(2[0-9])|(3[0-1]))\\..*$", "^192\\.168\\..*$"]

structure IPv4Address where
  a : Fin 256
  b : Fin 256
  c : Fin 256
  d : Fin 256
deriving DecidableEq, Repr

namespace IPv4Address

/-- The text `a.b.c.d`. -/
def dottedQuad (ip : IPv4Address) : String :=
  ip.a.val.repr ++ "." ++ ip.b.val.repr ++ "." ++ ip.c.val.repr ++ "." ++ ip.d.val.repr

def toNat (ip : IPv4Address) : ℕ := ((ip.a * 256 + ip.b) * 256 + ip.c) * 256 + ip.d

end IPv4Address

/-- The comments of config.yaml at the expressions: the first and the last address of each range. -/
def documentedRanges : List (IPv4Address × IPv4Address) :=
  [(⟨0, 0, 0, 0⟩, ⟨0, 255, 255, 255⟩), (⟨10, 0, 0, 0⟩, ⟨10, 255, 255, 255⟩),
    (⟨100, 64, 0, 0⟩, ⟨100, 127, 255, 255⟩), (⟨127, 0, 0, 0⟩, ⟨127, 255, 255, 255⟩),
    (⟨172, 16, 0, 0⟩, ⟨172, 31, 255, 255⟩), (⟨192, 168, 0, 0⟩, ⟨192, 168, 255, 255⟩)]

def IPv4Address.InDocumentedRange (ip : IPv4Address) : Prop :=
  ∃ range ∈ documentedRanges, range.1.toNat ≤ ip.toNat ∧ ip.toNat ≤ range.2.toNat

instance (ip : IPv4Address) : Decidable ip.InDocumentedRange := List.decidableBEx _ _

namespace IPv4Address

/-- The addresses of a range that starts and ends with a second octet. -/
theorem between_iff (ip : IPv4Address) (n low high : Fin 256) :
    toNat ⟨n, low, 0, 0⟩ ≤ ip.toNat ∧ ip.toNat ≤ toNat ⟨n, high, 255, 255⟩ ↔
      ip.a.val = n.val ∧ low.val ≤ ip.b.val ∧ ip.b.val ≤ high.val := by
  obtain ⟨a, b, c, d⟩ := ip
  unfold toNat
  dsimp only
  omega

theorem inDocumentedRange_iff (ip : IPv4Address) : ip.InDocumentedRange ↔
    ip.a.val = 0 ∨ ip.a.val = 10 ∨ (ip.a.val = 100 ∧ 64 ≤ ip.b.val ∧ ip.b.val ≤ 127) ∨
      ip.a.val = 127 ∨ (ip.a.val = 172 ∧ 16 ≤ ip.b.val ∧ ip.b.val ≤ 31) ∨
        (ip.a.val = 192 ∧ ip.b.val = 168) := by
  simp only [InDocumentedRange, documentedRanges, List.mem_cons, List.not_mem_nil, or_false,
    exists_eq_or_imp, exists_eq_left, between_iff]
  omega

end IPv4Address

/-- Texts of one line in which a character is a byte. -/
def Printable (s : String) : Prop := ∀ x ∈ s.toList, ' ' ≤ x ∧ x ≤ '~'

instance (s : String) : Decidable (Printable s) := List.decidableBAll _ _

/-- Perl-syntax search, for the part of the syntax that `Pattern.parse` reads: a search that does
not throw finds what the pattern describes. -/
def Boost.SearchesPatterns (B : Boost) : Prop :=
  ∀ p r, Printable p → Pattern.parse p = some r → B.regexAccepts p = true ∧
    ∀ s found, Printable s → B.regexSearch p s = some found →
      (found = true ↔ r.OccursIn s.toList)

/-- No search for a shipped expression gets too complex in an address. -/
def Boost.SearchesAddresses (B : Boost) : Prop :=
  ∀ p ∈ shippedWhitelist, ∀ ip : IPv4Address, ∃ found, B.regexSearch p ip.dottedQuad = some found

/-- An instance that accepts this part of the syntax and nothing else. -/
def Boost.patterns : Boost where
  fromString := Boost.plain.fromString
  regexAccepts p := (Pattern.parse p).isSome
  regexSearch p s := some ((Pattern.parse p).any fun r => r.occursIn s.toList)
  fromString_empty := Boost.plain.fromString_empty
  fromString_dash := Boost.plain.fromString_dash

theorem Boost.patterns_searchesPatterns : Boost.patterns.SearchesPatterns := by
  intro p r _ hparse
  refine ⟨?_, fun s found _ hfound => ?_⟩
  · change (Pattern.parse p).isSome = true
    rw [hparse]
    rfl
  · change some ((Pattern.parse p).any _) = some found at hfound
    rw [← Option.some.inj hfound, hparse]
    exact Pattern.occursIn_iff

theorem Boost.patterns_searchesAddresses : Boost.patterns.SearchesAddresses :=
  fun _ _ _ => ⟨_, rfl⟩

end RDPBlocker
