import Mathlib.Order.BooleanAlgebra.Set
import RDPBlocker.Foundation.Ownership
import RDPBlocker.Program.HandleWrapper

/-! What the operations on wrappers do to the ownership of handles. -/
namespace RDPBlocker
open Foundation Function
variable {P HandleType : Type*} [DecidableEq HandleType]

def openHandles (calls : List (HandleCall HandleType)) : Set HandleType := {h | IsOpen calls h}

theorem openHandles_opened (calls : List (HandleCall HandleType)) (value : HandleType) :
    openHandles (calls ++ [.opened value]) = insert value (openHandles calls) := by
  ext h
  exact isOpen_opened calls value h

/-- What a wrapper closes is the handle that it has. -/
theorem openHandles_close (T : HandleTraits HandleType) (w : HandleWrapper HandleType)
    (calls : List (HandleCall HandleType)) :
    openHandles (calls ++ (w.close T).2) = openHandles calls \ {h | w.owned T = some h} := by
  ext h
  cases hw : w.owned T with
  | none =>
    rw [HandleWrapper.close_of_not_owned hw, List.append_nil]
    exact ⟨fun hopen => ⟨hopen, fun heq => by cases heq⟩, And.left⟩
  | some value =>
    rw [HandleWrapper.close_of_owned hw]
    refine (isOpen_closed calls value h).trans ⟨fun hand => ⟨hand.2, ?_⟩, fun hand => ⟨?_, hand.1⟩⟩
    · exact fun heq => hand.1 (Option.some.inj heq).symm
    · exact fun heq => hand.2 (congrArg some heq.symm)

/-- Each call of `Traits::Close` is for a handle that is open. -/
def ClosedOnce (calls : List (HandleCall HandleType)) : Prop :=
  AtEach (fun past c => ∀ h, c = .closed h → IsOpen past h) calls

theorem ClosedOnce.opened {calls : List (HandleCall HandleType)} (hcalls : ClosedOnce calls)
    (value : HandleType) : ClosedOnce (calls ++ [.opened value]) :=
  atEach_concat.mpr ⟨hcalls, fun h heq => by cases heq⟩

theorem ClosedOnce.close {calls : List (HandleCall HandleType)} (hcalls : ClosedOnce calls)
    {T : HandleTraits HandleType} {w : HandleWrapper HandleType}
    (hw : ∀ h, w.owned T = some h → IsOpen calls h) : ClosedOnce (calls ++ (w.close T).2) := by
  cases howned : w.owned T with
  | none =>
    rw [HandleWrapper.close_of_not_owned howned, List.append_nil]
    exact hcalls
  | some value =>
    rw [HandleWrapper.close_of_owned howned]
    refine atEach_concat.mpr ⟨hcalls, ?_⟩
    intro h heq
    cases heq
    exact hw value howned

/-- The handle of each wrapper that is there. -/
def WrapperMemory.slots (T : HandleTraits HandleType) (memory : WrapperMemory P HandleType) (p : P) :
    Option HandleType := (memory p).bind (HandleWrapper.owned T)

namespace Wrappers
variable {T : HandleTraits HandleType}

def ledger (T : HandleTraits HandleType) (s : Wrappers P HandleType) : Ledger P HandleType :=
  ⟨openHandles s.calls, s.memory.slots T⟩

theorem ledger_start : (start : Wrappers P HandleType).ledger T = .empty := by
  unfold ledger Ledger.empty
  congr
  ext h
  exact iff_of_false (fun hopen => by cases hopen) id

theorem slots_of_none {s : Wrappers P HandleType} {p : P} (h : s.memory p = none) :
    s.memory.slots T p = none := by
  unfold WrapperMemory.slots
  rw [h, Option.bind_none]

theorem slots_of_some {s : Wrappers P HandleType} {p : P} {w : HandleWrapper HandleType}
    (h : s.memory p = some w) : s.memory.slots T p = w.owned T := by
  unfold WrapperMemory.slots
  rw [h, Option.bind_some]

variable [DecidableEq P] {s : Wrappers P HandleType} {p src : P} {w : HandleWrapper HandleType}

theorem slots_update (memory : WrapperMemory P HandleType) (p : P)
    (w : Option (HandleWrapper HandleType)) :
    WrapperMemory.slots T (update memory p w) =
      update (memory.slots T) p (w.bind (HandleWrapper.owned T)) := by
  funext q
  exact apply_update (fun _ => (Option.bind · (HandleWrapper.owned T))) memory p w q

/-- `Close` leaves no handle in the wrapper, and the destructor leaves no wrapper. -/
theorem ledger_close (hw : s.memory p = some w) {after : Option (HandleWrapper HandleType)}
    (hafter : after.bind (HandleWrapper.owned T) = none) :
    ledger T ⟨update s.memory p after, s.calls ++ (w.close T).2⟩ = (s.ledger T).release p := by
  unfold ledger Ledger.release
  dsimp only
  rw [slots_update, hafter, openHandles_close, slots_of_some hw]

theorem ledger_opened {value : HandleType} (hvalue : value ≠ T.invalidValue) :
    ledger T ⟨update s.memory p (some (.ofHandle value)), s.calls ++ [.opened value]⟩ =
      (s.ledger T).give p value := by
  unfold ledger Ledger.give
  rw [slots_update, openHandles_opened, Option.bind_some, HandleWrapper.ofHandle,
    HandleWrapper.owned_mk hvalue]

/-- The handle is opened before the old one is closed, which is another one. -/
theorem ledger_assignHandle (hs : (s.ledger T).Unshared) (hw : s.memory p = some w)
    {value : HandleType} (hvalue : s.Fresh T value) :
    ledger T ⟨update s.memory p (some (w.assignHandle T value).1),
        s.calls ++ .opened value :: (w.assignHandle T value).2⟩ =
      ((s.ledger T).release p).give p value := by
  obtain ⟨hvalid, hnew⟩ := hvalue
  have hother : value ∉ {h | w.owned T = some h} := by
    intro howned
    exact hnew (hs.live_of_slot p value ((slots_of_some hw).trans howned))
  unfold ledger Ledger.give Ledger.release HandleWrapper.assignHandle HandleWrapper.attach
  dsimp only
  rw [List.append_cons, openHandles_close, openHandles_opened, slots_update, Option.bind_some,
    HandleWrapper.owned_mk hvalid, slots_of_some hw, update_idem,
    Set.insert_sdiff_of_notMem _ hother]

theorem ledger_takeHandle (hw : s.memory src = some w) :
    ledger T { s with memory := s.memory.takeHandle T p src w } = (s.ledger T).take p src := by
  unfold ledger Ledger.take WrapperMemory.takeHandle
  dsimp only
  rw [slots_update, slots_update, slots_of_some hw]
  congr
  exact HandleWrapper.owned_new

end Wrappers

namespace WrapperAction
variable [DecidableEq P]

def onLedger : WrapperAction P HandleType → Ledger P HandleType → Ledger P HandleType
  | construct _, l => l
  | constructFrom this value, l => l.give this value
  | assignHandle this value, l => (l.release this).give this value
  | moveConstruct this src, l => l.take this src
  | transferAssign this src, l => l.take this src
  | close this, l => l.release this
  | destroy this, l => l.release this

/-- The handles given to a wrapper are new, and a new wrapper has none yet. -/
def Allowed : WrapperAction P HandleType → Ledger P HandleType → Prop
  | constructFrom this value, l => l.slots this = none ∧ value ∉ l.live
  | assignHandle _ value, l => value ∉ l.live
  | moveConstruct this _, l => l.slots this = none
  | _, _ => True

/-- A transfer assignment forgets the handle of its target. -/
def overwritten : WrapperAction P HandleType → Ledger P HandleType → Set HandleType
  | transferAssign this _, l => {h | l.slots this = some h}
  | _, _ => ∅

variable {l : Ledger P HandleType} {a : WrapperAction P HandleType}

omit [DecidableEq HandleType] in
theorem unshared_onLedger (hl : l.Unshared) (ha : a.Allowed l) : (a.onLedger l).Unshared := by
  cases a with
  | construct this => exact hl
  | constructFrom this value => exact hl.give ha.2
  | assignHandle this value => exact hl.release.give fun hlive => ha hlive.1
  | moveConstruct this src => exact hl.take
  | transferAssign this src => exact hl.take
  | close this => exact hl.release
  | destroy this => exact hl.release

omit [DecidableEq HandleType] in
theorem lost_onLedger (hl : l.Unshared) (ha : a.Allowed l) :
    (a.onLedger l).lost = l.lost ∪ a.overwritten l := by
  cases a with
  | construct this => exact (Set.union_empty _).symm
  | constructFrom this value => exact (Ledger.give_lost ha.1 ha.2).trans (Set.union_empty _).symm
  | assignHandle this value =>
    have hfree : (l.release this).slots this = none := update_self this _ l.slots
    have hnew : value ∉ (l.release this).live := fun hlive => ha hlive.1
    have hlost := (Ledger.give_lost hfree hnew).trans (Ledger.release_lost l this)
    exact hlost.trans (Set.union_empty _).symm
  | moveConstruct this src =>
    have hnone : {h | l.slots this = some h} = ∅ := by
      ext h
      have hthis : l.slots this = none := ha
      change l.slots this = some h ↔ False
      rw [hthis]
      exact iff_of_false (fun heq => by cases heq) id
    exact (Ledger.take_lost hl).trans (congrArg _ hnone)
  | transferAssign this src => exact Ledger.take_lost hl
  | close this => exact (Ledger.release_lost l this).trans (Set.union_empty _).symm
  | destroy this => exact (Ledger.release_lost l this).trans (Set.union_empty _).symm

end WrapperAction

namespace Wrappers
variable [DecidableEq P] {T : HandleTraits HandleType} {s s' : Wrappers P HandleType}
  {a : WrapperAction P HandleType}

/-- Every operation of the source does to the ownership what its name says. -/
theorem step_ledger (hs : (s.ledger T).Unshared) (h : s.step T a = some s') :
    a.Allowed (s.ledger T) ∧ s'.ledger T = a.onLedger (s.ledger T) := by
  cases step_effect h with
  | @construct this hthis =>
    refine ⟨trivial, ?_⟩
    unfold ledger WrapperAction.onLedger
    dsimp only
    rw [slots_update, Option.bind_some, HandleWrapper.owned_new, ← slots_of_none hthis,
      update_eq_self]
  | constructFrom hthis hfresh => exact ⟨⟨slots_of_none hthis, hfresh.2⟩, ledger_opened hfresh.1⟩
  | assignHandle hthis hfresh => exact ⟨hfresh.2, ledger_assignHandle hs hthis hfresh⟩
  | moveConstruct hthis hsrc => exact ⟨slots_of_none hthis, ledger_takeHandle hsrc⟩
  | transferAssign hthis hsrc => exact ⟨trivial, ledger_takeHandle hsrc⟩
  | close hthis => exact ⟨trivial, ledger_close hthis (HandleWrapper.owned_close _)⟩
  | destroy hthis => exact ⟨trivial, ledger_close hthis rfl⟩

theorem step_closedOnce (hs : (s.ledger T).Unshared) (hcalls : ClosedOnce s.calls)
    (h : s.step T a = some s') : ClosedOnce s'.calls := by
  have hopen : ∀ {this w}, s.memory this = some w → ∀ g, w.owned T = some g → IsOpen s.calls g :=
    fun hw g hg => hs.live_of_slot _ g ((slots_of_some hw).trans hg)
  cases step_effect h with
  | construct hthis => exact hcalls
  | @constructFrom this value hthis hfresh => exact hcalls.opened value
  | @assignHandle this value w hthis hfresh =>
    dsimp only
    rw [List.append_cons]
    refine (hcalls.opened value).close fun g hg => ?_
    exact (isOpen_opened s.calls value g).mpr (Or.inr (hopen hthis g hg))
  | moveConstruct hthis hsrc => exact hcalls
  | transferAssign hthis hsrc => exact hcalls
  | close hthis => exact hcalls.close (hopen hthis)
  | destroy hthis => exact hcalls.close (hopen hthis)

/-- What every program keeps: no handle has two wrappers, and none is closed that is not open. -/
structure Sound (T : HandleTraits HandleType) (s : Wrappers P HandleType) : Prop where
  unshared : (s.ledger T).Unshared
  closedOnce : ClosedOnce s.calls

omit [DecidableEq P] in
theorem Sound.start : Sound T (start : Wrappers P HandleType) where
  unshared := by
    rw [ledger_start]
    exact Ledger.empty_unshared
  closedOnce := atEach_nil _

theorem Sound.step (hs : s.Sound T) (h : s.step T a = some s') : s'.Sound T where
  unshared := by
    obtain ⟨hallowed, hledger⟩ := step_ledger hs.unshared h
    rw [hledger]
    exact WrapperAction.unshared_onLedger hs.unshared hallowed
  closedOnce := step_closedOnce hs.unshared hs.closedOnce h

theorem Sound.run {actions : List (WrapperAction P HandleType)}
    (h : Wrappers.start.run T actions = some s) : s.Sound T := by
  induction actions using List.reverseRecOn generalizing s with
  | nil =>
    cases h
    exact Sound.start
  | append_singleton actions a ih =>
    obtain ⟨u, hu, hstep⟩ := run_concat_eq_some.mp h
    exact (ih hu).step hstep

theorem lost_step (hs : s.Sound T) (h : s.step T a = some s') :
    (s'.ledger T).lost = (s.ledger T).lost ∪ a.overwritten (s.ledger T) := by
  obtain ⟨hallowed, hledger⟩ := step_ledger hs.unshared h
  rw [hledger]
  exact WrapperAction.lost_onLedger hs.unshared hallowed

/-- A program loses no handle exactly when it never overwrites one. -/
theorem lost_run {actions : List (WrapperAction P HandleType)}
    (h : Wrappers.start.run T actions = some s) : (s.ledger T).lost = ∅ ↔
      AtEach (fun past a => ∀ u, Wrappers.start.run T past = some u →
        a.overwritten (u.ledger T) = ∅) actions := by
  induction actions using List.reverseRecOn generalizing s with
  | nil =>
    cases h
    rw [ledger_start]
    exact iff_of_true Ledger.empty_lost (atEach_nil _)
  | append_singleton actions a ih =>
    obtain ⟨u, hu, hstep⟩ := run_concat_eq_some.mp h
    rw [lost_step (Sound.run hu) hstep, Set.union_empty_iff, atEach_concat, ih hu]
    refine and_congr_right fun _ => ⟨fun hover v hv => ?_, fun hover => hover u hu⟩
    rw [hu] at hv
    cases hv
    exact hover

end Wrappers
end RDPBlocker
