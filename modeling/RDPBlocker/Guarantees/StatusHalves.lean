import Mathlib.Data.List.Induction
import RDPBlocker.Foundation.Noninterference
import RDPBlocker.Program.RemoteAddressStatus

/-! Which calls on the record of an address reach which of its halves. -/
namespace RDPBlocker
open Foundation

/-- The methods that change the record. -/
inductive StatusCall
  | setCount (count : ℤ)
  | setExpireTime (expiredTime : ℤ)
  | resetExpireTimer
  | setBlockTime (blockTime : ℤ)
  | resetBlockTimer
deriving DecidableEq, Repr

inductive StatusSide
  | count
  | expire
  | block
deriving DecidableEq, Repr

namespace StatusCall

def side : StatusCall → StatusSide
  | setCount _ => .count
  | setExpireTime _ | resetExpireTimer => .expire
  | setBlockTime _ | resetBlockTimer => .block

/-- The value given to the setter of the expiry half, and of the ban half. -/
def expireTime : StatusCall → Option ℤ
  | setExpireTime expiredTime => some expiredTime
  | _ => none

def blockTime : StatusCall → Option ℤ
  | setBlockTime blockTime => some blockTime
  | _ => none

end StatusCall

/-- A call, with what the clock shows then. -/
structure TimedCall where
  now : ℤ
  call : StatusCall
deriving DecidableEq, Repr

def RemoteAddressStatus.serve (st : RemoteAddressStatus) (c : TimedCall) : RemoteAddressStatus :=
  match c.call with
  | .setCount count => st.setCount count
  | .setExpireTime expiredTime => st.setExpireTime c.now expiredTime
  | .resetExpireTimer => st.resetExpireTimer c.now
  | .setBlockTime blockTime => st.setBlockTime c.now blockTime
  | .resetBlockTimer => st.resetBlockTimer c.now

/-- A record, from its construction on. -/
def statusAfter (created : ℤ) (calls : List TimedCall) : RemoteAddressStatus :=
  calls.foldl RemoteAddressStatus.serve (.new created)

def TimedCall.onSide (side : StatusSide) (c : TimedCall) : Bool := decide (c.call.side = side)

def onlySide (side : StatusSide) (calls : List TimedCall) : List TimedCall :=
  calls.filter (TimedCall.onSide side)

/-- The value last given to a setter, and zero if there is none. -/
def lastGiven (value : StatusCall → Option ℤ) (calls : List TimedCall) : ℤ :=
  (calls.filterMap fun c => value c.call).getLast?.getD 0

theorem lastGiven_concat (value : StatusCall → Option ℤ) (calls : List TimedCall)
    (c : TimedCall) :
    lastGiven value (calls ++ [c]) = (value c.call).getD (lastGiven value calls) := by
  unfold lastGiven
  rw [List.filterMap_append, List.getLast?_append]
  cases hc : value c.call with
  | none => simp [hc]
  | some x => simp [hc]

theorem lastGiven_onlySide {value : StatusCall → Option ℤ} {side : StatusSide}
    (h : ∀ call, call.side = side → value call = none) (calls : List TimedCall) :
    lastGiven value (onlySide side calls) = 0 := by
  have hnone : (onlySide side calls).filterMap (fun c => value c.call) = [] := by
    rw [List.filterMap_eq_nil_iff]
    intro c hc
    exact h c.call (of_decide_eq_true (List.mem_filter.mp hc).2)
  unfold lastGiven
  rw [hnone]
  rfl

section halves

theorem expire_isolated : Isolated RemoteAddressStatus.serve (TimedCall.onSide .expire)
    fun st => (st.mExpireTime, st.mExpireTimer) where
  hidden st c hc := by
    rcases c with ⟨now, call⟩
    cases call with
    | setExpireTime _ => cases hc
    | resetExpireTimer => cases hc
    | _ => rfl
  shown st st' c hc h := by
    rcases c with ⟨now, call⟩
    cases call with
    | setExpireTime _ => rfl
    | resetExpireTimer =>
      have htime := (Prod.mk.inj h).1
      simp only [RemoteAddressStatus.serve, RemoteAddressStatus.resetExpireTimer, Timer.reset, htime]
    | _ => cases hc

theorem block_isolated : Isolated RemoteAddressStatus.serve (TimedCall.onSide .block)
    fun st => (st.mBlockTime, st.mBlockedTimer) where
  hidden st c hc := by
    rcases c with ⟨now, call⟩
    cases call with
    | setBlockTime _ => cases hc
    | resetBlockTimer => cases hc
    | _ => rfl
  shown st st' c hc h := by
    rcases c with ⟨now, call⟩
    cases call with
    | setBlockTime _ => rfl
    | resetBlockTimer =>
      have htime := (Prod.mk.inj h).1
      simp only [RemoteAddressStatus.serve, RemoteAddressStatus.resetBlockTimer, Timer.reset, htime]
    | _ => cases hc

theorem count_isolated : Isolated RemoteAddressStatus.serve (TimedCall.onSide .count)
    RemoteAddressStatus.getCount where
  hidden st c hc := by
    rcases c with ⟨now, call⟩
    cases call with
    | setCount _ => cases hc
    | _ => rfl
  shown st st' c hc _ := by
    rcases c with ⟨now, call⟩
    cases call with
    | setCount _ => rfl
    | _ => cases hc

end halves

variable (created now : ℤ) (calls : List TimedCall)

theorem isExpired_onlySide : (statusAfter created calls).isExpired now =
    (statusAfter created (onlySide .expire calls)).isExpired now := by
  have h := expire_isolated.foldl_filter (.new created) calls
  obtain ⟨htime, htimer⟩ := Prod.mk.inj h
  unfold statusAfter onlySide RemoteAddressStatus.isExpired
  rw [htime, htimer]

theorem isBlocked_onlySide : (statusAfter created calls).isBlocked now =
    (statusAfter created (onlySide .block calls)).isBlocked now := by
  have h := block_isolated.foldl_filter (.new created) calls
  obtain ⟨htime, htimer⟩ := Prod.mk.inj h
  unfold statusAfter onlySide RemoteAddressStatus.isBlocked
  rw [htime, htimer]

theorem getBlockTime_onlySide : (statusAfter created calls).getBlockTime =
    (statusAfter created (onlySide .block calls)).getBlockTime :=
  (Prod.mk.inj (block_isolated.foldl_filter (.new created) calls)).1

theorem getCount_onlySide : (statusAfter created calls).getCount =
    (statusAfter created (onlySide .count calls)).getCount :=
  count_isolated.foldl_filter (.new created) calls

theorem getBlockTime_eq : (statusAfter created calls).getBlockTime =
    lastGiven StatusCall.blockTime calls := by
  induction calls using List.reverseRecOn with
  | nil => rfl
  | append_singleton calls c ih =>
    rw [lastGiven_concat, ← ih]
    unfold statusAfter
    rw [List.foldl_concat]
    rcases c with ⟨now, call⟩
    cases call <;> rfl

/-- The getter of the expiry half reads the other half. -/
theorem getExpireTime_eq : (statusAfter created calls).getExpireTime =
    lastGiven StatusCall.blockTime calls := getBlockTime_eq created calls

/-- Each half is as if the calls of the other half and of the counter had not been made, and its
getter returns what its own setter was given last. -/
structure HalvesIndependent : Prop where
  getExpireTime_eq : (statusAfter created calls).getExpireTime =
    (statusAfter created (onlySide .expire calls)).getExpireTime
  isExpired_eq : (statusAfter created calls).isExpired now =
    (statusAfter created (onlySide .expire calls)).isExpired now
  getBlockTime_eq : (statusAfter created calls).getBlockTime =
    (statusAfter created (onlySide .block calls)).getBlockTime
  isBlocked_eq : (statusAfter created calls).isBlocked now =
    (statusAfter created (onlySide .block calls)).isBlocked now
  getCount_eq : (statusAfter created calls).getCount =
    (statusAfter created (onlySide .count calls)).getCount
  getExpireTime_last :
    (statusAfter created calls).getExpireTime = lastGiven StatusCall.expireTime calls
  getBlockTime_last :
    (statusAfter created calls).getBlockTime = lastGiven StatusCall.blockTime calls

/-- Only `get_expire_time` mixes the halves: it can be right only while both times are zero. -/
theorem halves_independent_iff : HalvesIndependent created now calls ↔
    lastGiven StatusCall.expireTime calls = 0 ∧ lastGiven StatusCall.blockTime calls = 0 := by
  have hown : (statusAfter created (onlySide .expire calls)).getExpireTime = 0 := by
    rw [getExpireTime_eq]
    refine lastGiven_onlySide ?_ calls
    intro call hside
    cases call with
    | setBlockTime _ => cases hside
    | _ => rfl
  constructor
  · intro h
    have hblock : lastGiven StatusCall.blockTime calls = 0 := by
      rw [← getExpireTime_eq created, h.getExpireTime_eq, hown]
    have hexpire : lastGiven StatusCall.expireTime calls = 0 := by
      rw [← h.getExpireTime_last, getExpireTime_eq, hblock]
    exact ⟨hexpire, hblock⟩
  · intro h
    obtain ⟨hexpire, hblock⟩ := h
    have hget : (statusAfter created calls).getExpireTime = 0 := by
      rw [getExpireTime_eq, hblock]
    exact {
      getExpireTime_eq := hget.trans hown.symm
      isExpired_eq := isExpired_onlySide created now calls
      getBlockTime_eq := getBlockTime_onlySide created calls
      isBlocked_eq := isBlocked_onlySide created now calls
      getCount_eq := getCount_onlySide created calls
      getExpireTime_last := hget.trans hexpire.symm
      getBlockTime_last := getBlockTime_eq created calls }

/-- An address whose failed logins have led to a ban: the expiry time reads as the block time. -/
theorem ban_replaces_expire_time :
    (statusAfter 0 [⟨0, .setExpireTime 1200⟩, ⟨0, .resetExpireTimer⟩, ⟨0, .setCount 1⟩,
        ⟨5, .setBlockTime 615⟩]).getExpireTime = 615 ∧
      ¬ HalvesIndependent 0 5 [⟨0, .setExpireTime 1200⟩, ⟨0, .resetExpireTimer⟩, ⟨0, .setCount 1⟩,
        ⟨5, .setBlockTime 615⟩] := by
  refine ⟨by decide, ?_⟩
  intro h
  exact absurd h.getExpireTime_last (by decide)

end RDPBlocker
