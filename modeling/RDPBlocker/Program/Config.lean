import Mathlib.Data.List.AList
import Mathlib.Data.Finset.Basic
import Mathlib.Data.List.Infix
import RDPBlocker.Foundation.Throwing
import RDPBlocker.Program.RemoteAddressStatus

/-! The loaded configuration and the two Boost components that read it. -/
namespace RDPBlocker
open Foundation

/-- What the program relies on of Boost. `regexSearch p s` is meaningful for accepted `p`. -/
structure Boost where
  /-- `ip::address::from_string` returns, it does not throw. -/
  fromString : String → Bool
  /-- The `regex` constructor returns, it does not throw. -/
  regexAccepts : String → Bool
  /-- Whether the first `sregex_iterator` is not the empty one, that is, some part of the data
  matches; `none` where the search throws, because the matching gets too complex. -/
  regexSearch : String → String → Option Bool
  fromString_empty : fromString "" = false
  fromString_dash : fromString "-" = false

/-- The characters that Perl syntax gives a meaning to. -/
def metacharacters : List Char := ['.', '[', '{', '}', '(', ')', '\\', '*', '+', '?', '|', '^', '$']

def MetacharacterFree (p : String) : Prop := ∀ c ∈ p.toList, c ∉ metacharacters

instance (p : String) : Decidable (MetacharacterFree p) :=
  List.decidableBAll (fun c => c ∉ metacharacters) p.toList

/-- Perl-syntax search on expressions that only contain ordinary characters. -/
def Boost.SearchesLiterals (B : Boost) : Prop :=
  ∀ p, MetacharacterFree p →
    B.regexAccepts p = true ∧ ∀ s, B.regexSearch p s = some (decide (p.toList <:+: s.toList))

/-- Matching is a predicate: neither the constructor of an expression throws nor a search. -/
def Boost.NeverThrows (B : Boost) : Prop :=
  ∀ p, B.regexAccepts p = true ∧ ∀ s, ∃ found, B.regexSearch p s = some found

def isOctet (s : List Char) : Bool :=
  decide (0 < s.length) && decide (s.length ≤ 3) && s.all Char.isDigit &&
    decide (s.foldl (fun n c => 10 * n + (c.toNat - '0'.toNat)) 0 ≤ 255)

/-- A small instance: dotted-quad addresses, and literal search only. -/
def Boost.plain : Boost where
  fromString s :=
    let parts := s.toList.splitOn '.'
    decide (parts.length = 4) && parts.all isOctet
  regexAccepts p := decide (MetacharacterFree p)
  regexSearch p s := some (decide (p.toList <:+: s.toList))
  fromString_empty := by decide
  fromString_dash := by decide

theorem Boost.plain_searchesLiterals : Boost.plain.SearchesLiterals := by
  intro p hp
  exact ⟨decide_eq_true hp, fun _ => rfl⟩

variable {B : Boost}

/-- A constructed `boost::regex`. -/
structure Regex (B : Boost) where
  expression : String
  accepted : B.regexAccepts expression = true

/-- `boost::regex_error`, with the expression that caused it. -/
structure RegexError where
  expression : String
deriving DecidableEq, Repr

/-- What matching throws: the constructor a `regex_error`, the search a `runtime_error`. -/
inductive MatchException
  | invalid (err : RegexError)
  | tooComplex (expression data : String)
deriving DecidableEq, Repr

/-- `regex_is_match(const boost::regex&, const std::string&)`. -/
def regexIsMatch (regexExpr : Regex B) (data : String) : Except MatchException Bool :=
  match B.regexSearch regexExpr.expression data with
  | some found => .ok found
  | none => .error (.tooComplex regexExpr.expression data)

/-- `regex_is_match(const std::string&, const std::string&)`, which builds the expression. -/
def regexIsMatchString (B : Boost) (regexExpr data : String) : Except MatchException Bool :=
  if haccept : B.regexAccepts regexExpr = true then
    regexIsMatch (⟨regexExpr, haccept⟩ : Regex B) data
  else .error (.invalid ⟨regexExpr⟩)

/-- `random_int`; `distrib` is what the generator draws from the closed interval. -/
def randomInt (min max distrib : ℤ) : ℤ := if max > min then distrib else 0

structure ApplicationBlockConfig where
  mBlockTime : ℤ := 600
  mRandomDelayMin : ℤ := 0
  mRandomDelayMax : ℤ := 30

def ApplicationBlockConfig.blockTime (c : ApplicationBlockConfig) (distrib : ℤ) : ℤ :=
  let randomDelay := randomInt c.mRandomDelayMin c.mRandomDelayMax distrib
  toInt32 (c.mBlockTime + randomDelay)

structure ApplicationFailBanConfig where
  mEnable : Bool := true
  mThreshold : ℤ := 3
  mExpireTime : ℤ := 900

def ApplicationFailBanConfig.expireTime (c : ApplicationFailBanConfig) : ℤ := c.mExpireTime

structure ApplicationWorkstationNameConfig where
  mEnableCheck : Bool := false
  mCheckBind : Bool := true
  mAutoBind : Bool := true
  mBindTable : AList fun _ : String => String := ∅
  mBlocklist : Finset String := ∅
  mWhitelist : Finset String := ∅

namespace ApplicationWorkstationNameConfig

def isBlockName (c : ApplicationWorkstationNameConfig) (value : String) : Bool :=
  decide (value ∈ c.mBlocklist)

def isWhiteName (c : ApplicationWorkstationNameConfig) (value : String) : Bool :=
  decide (value ∈ c.mWhitelist)

def createBindRecord (c : ApplicationWorkstationNameConfig) (username workstationName : String) :
    ApplicationWorkstationNameConfig :=
  { c with mBindTable := c.mBindTable.insert username workstationName }

def existsBindRecord (c : ApplicationWorkstationNameConfig) (username : String) : Bool :=
  (c.mBindTable.lookup username).isSome

def checkBindRecord (B : Boost) (c : ApplicationWorkstationNameConfig)
    (username workstationName : String) : Except MatchException Bool :=
  match c.mBindTable.lookup username with
  | none => .ok false
  | some regexp => regexIsMatchString B regexp workstationName

end ApplicationWorkstationNameConfig

structure ApplicationIPConfig (B : Boost) where
  mWhitelist : List (Regex B) := []

/-- The loop ends at the first expression that is found in the address. -/
def ApplicationIPConfig.isWhiteAddress (c : ApplicationIPConfig B) (ipAddress : String) :
    Except MatchException Bool :=
  c.mWhitelist.anyM fun expression => regexIsMatch expression ipAddress

structure ApplicationConfig (B : Boost) where
  mRulePrefix : String := "AUTO_BLOCKED_"
  mBlock : ApplicationBlockConfig := {}
  mFailBan : ApplicationFailBanConfig := {}
  mWorkstationNameConfig : ApplicationWorkstationNameConfig := {}
  mIpConfig : ApplicationIPConfig B := {}

/-- `is_vaild_ip_address`: the exception of `from_string` becomes `false`. -/
def isVaildIpAddress (B : Boost) (value : String) : Bool := B.fromString value

/-- The two address texts that stand for an absent address are not valid. -/
theorem ne_of_isVaildIpAddress {value : String} (h : isVaildIpAddress B value = true) :
    value ≠ "-" ∧ value ≠ "" := by
  unfold isVaildIpAddress at h
  constructor
  · intro hv
    rw [hv, B.fromString_dash] at h
    cases h
  · intro hv
    rw [hv, B.fromString_empty] at h
    cases h

/-- The fields of a decoded event. -/
abbrev EventAttr := AList fun _ : String => String

/-- `operator[]` of the event map: an absent key reads as the empty string. -/
def EventAttr.get (a : EventAttr) (key : String) : String := (a.lookup key).getD ""

/-- A call of `create_block_remote_address_tasks`. -/
structure BlockRequest where
  remoteAddress : String
  blockTime : ℤ
deriving DecidableEq, Repr

theorem regexIsMatch_eq_ok {regexExpr : Regex B} {data : String} {found : Bool} :
    regexIsMatch regexExpr data = .ok found ↔
      B.regexSearch regexExpr.expression data = some found := by
  unfold regexIsMatch
  cases B.regexSearch regexExpr.expression data <;> simp

theorem regexIsMatchString_eq_ok {regexExpr data : String} {found : Bool} :
    regexIsMatchString B regexExpr data = .ok found ↔
      B.regexAccepts regexExpr = true ∧ B.regexSearch regexExpr data = some found := by
  unfold regexIsMatchString
  by_cases haccept : B.regexAccepts regexExpr = true
  · rw [dif_pos haccept, regexIsMatch_eq_ok, and_iff_right haccept]
  · simp [haccept]

/-- An address that is not white has been looked for in vain with every expression. -/
theorem isWhiteAddress_eq_false {c : ApplicationIPConfig B} {ipAddress : String} :
    c.isWhiteAddress ipAddress = .ok false ↔
      ∀ expression ∈ c.mWhitelist, regexIsMatch expression ipAddress = .ok false := anyM_eq_false

/-- `is_white_address` returns for the address, if it is asked. -/
def WhitelistReturns (g : ApplicationConfig B) (ipAddress : String) : Prop :=
  isVaildIpAddress B ipAddress = true → ∃ white, g.mIpConfig.isWhiteAddress ipAddress = .ok white

end RDPBlocker
