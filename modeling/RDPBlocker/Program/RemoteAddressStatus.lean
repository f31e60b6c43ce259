import Mathlib.Algebra.Order.Ring.Int
import Mathlib.Tactic.Common

/-! The record kept for one remote address. Every method that reads the clock takes the
reading, a `std::time_t` in whole seconds, as an argument. -/
namespace RDPBlocker

/-- The value a 32-bit `int` holds after an arithmetic operation on it. -/
def toInt32 (x : ℤ) : ℤ := x.bmod (2 ^ 32)

def IsInt32 (x : ℤ) : Prop := -2 ^ 31 ≤ x ∧ x < 2 ^ 31

instance (x : ℤ) : Decidable (IsInt32 x) := inferInstanceAs (Decidable (_ ∧ _))

theorem isInt32_toInt32 (x : ℤ) : IsInt32 (toInt32 x) := by
  unfold IsInt32 toInt32 Int.bmod
  dsimp only
  split_ifs <;> omega

theorem toInt32_eq_self {x : ℤ} : toInt32 x = x ↔ IsInt32 x := by
  constructor
  · intro h
    rw [← h]
    exact isInt32_toInt32 x
  · intro h
    unfold IsInt32 at h
    unfold toInt32 Int.bmod
    dsimp only
    split_ifs <;> omega

theorem toInt32_eq {x : ℤ} (h0 : 0 ≤ x) (h1 : x < 2 ^ 31) : toInt32 x = x :=
  toInt32_eq_self.mpr ⟨by omega, h1⟩

theorem toInt32_le {x : ℤ} (h0 : 0 ≤ x) : toInt32 x ≤ x := by
  unfold toInt32 Int.bmod
  dsimp only
  split_ifs <;> omega

theorem toInt32_add_one (x : ℤ) : toInt32 (toInt32 x + 1) = toInt32 (x + 1) :=
  Int.bmod_add_bmod

structure Timer where
  mTime : ℤ
deriving DecidableEq, Repr

namespace Timer

def initializeTime (_ : Timer) (now : ℤ) : Timer := ⟨now⟩

/-- The constructor: `m_time(0)`, then `initialize()`. -/
def new (now : ℤ) : Timer := initializeTime ⟨0⟩ now

def elapsed (t : Timer) (now : ℤ) : ℤ := now - t.mTime

def isTimeout (t : Timer) (now value : ℤ) : Bool := decide (t.elapsed now > value)

def get (t : Timer) : ℤ := t.mTime

def set (_ : Timer) (value : ℤ) : Timer := ⟨value⟩

def reset (_ : Timer) (now : ℤ) : Timer := ⟨now⟩

end Timer

structure RemoteAddressStatus where
  mCount : ℤ
  mExpireTime : ℤ
  mExpireTimer : Timer
  mBlockTime : ℤ
  mBlockedTimer : Timer
deriving DecidableEq, Repr

namespace RemoteAddressStatus

def new (now : ℤ) : RemoteAddressStatus := ⟨0, 0, Timer.new now, 0, Timer.new now⟩

def getCount (st : RemoteAddressStatus) : ℤ := st.mCount

def setCount (st : RemoteAddressStatus) (count : ℤ) : RemoteAddressStatus :=
  { st with mCount := count }

/-- The source returns the block time here. -/
def getExpireTime (st : RemoteAddressStatus) : ℤ := st.mBlockTime

def setExpireTime (st : RemoteAddressStatus) (now : ℤ) (expiredTime : ℤ) :
    RemoteAddressStatus :=
  { st with mExpireTime := expiredTime, mExpireTimer := st.mExpireTimer.initializeTime now }

def resetExpireTimer (st : RemoteAddressStatus) (now : ℤ) : RemoteAddressStatus :=
  { st with mExpireTimer := st.mExpireTimer.reset now }

def isExpired (st : RemoteAddressStatus) (now : ℤ) : Bool :=
  if st.mExpireTime ≤ 0 then false else st.mExpireTimer.isTimeout now st.mExpireTime

def getBlockTime (st : RemoteAddressStatus) : ℤ := st.mBlockTime

def setBlockTime (st : RemoteAddressStatus) (now : ℤ) (blockTime : ℤ) :
    RemoteAddressStatus :=
  { st with mBlockTime := blockTime, mBlockedTimer := st.mBlockedTimer.initializeTime now }

def resetBlockTimer (st : RemoteAddressStatus) (now : ℤ) : RemoteAddressStatus :=
  { st with mBlockedTimer := st.mBlockedTimer.reset now }

def isBlocked (st : RemoteAddressStatus) (now : ℤ) : Bool :=
  if st.mBlockTime ≤ 0 then false else !st.mBlockedTimer.isTimeout now st.mBlockTime

theorem isBlocked_iff (st : RemoteAddressStatus) (now : ℤ) :
    st.isBlocked now = true ↔ 0 < st.mBlockTime ∧ now ≤ st.mBlockedTimer.mTime + st.mBlockTime := by
  unfold isBlocked Timer.isTimeout Timer.elapsed
  by_cases h : st.mBlockTime ≤ 0
  · simp only [h, if_true, Bool.false_eq_true, false_iff]
    omega
  · simp only [h, if_false, Bool.not_eq_true', decide_eq_false_iff_not]
    omega

theorem isExpired_iff (st : RemoteAddressStatus) (now : ℤ) :
    st.isExpired now = true ↔ 0 < st.mExpireTime ∧ st.mExpireTimer.mTime + st.mExpireTime < now := by
  unfold isExpired Timer.isTimeout Timer.elapsed
  by_cases h : st.mExpireTime ≤ 0
  · simp only [h, if_true, Bool.false_eq_true, false_iff]
    omega
  · simp only [h, if_false, decide_eq_true_eq]
    omega

end RemoteAddressStatus
end RDPBlocker
