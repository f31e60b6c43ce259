import RDPBlocker.Refinement.HandleOwnership

/-! When wrappers close every handle that they are given, and each of them once. -/
namespace RDPBlocker
open Foundation Function
variable {P HandleType : Type*} [DecidableEq P] [DecidableEq HandleType]

namespace Wrappers
variable {T : HandleTraits HandleType} {s s' : Wrappers P HandleType}
  {actions : List (WrapperAction P HandleType)}

/-- Each open handle is in one wrapper, and no closed one is in any. -/
structure Accounted (T : HandleTraits HandleType) (s : Wrappers P HandleType) : Prop where
  open_held : ∀ h, IsOpen s.calls h → ∃! this, s.memory.slots T this = some h
  held_open : ∀ this h, s.memory.slots T this = some h → IsOpen s.calls h
  closedOnce : ClosedOnce s.calls
  all_closed : (∀ this, s.memory this = none) → ∀ h, ¬ IsOpen s.calls h

/-- In every state of the program all handles are accounted for, and an assignment of a wrapper to
itself changes nothing. -/
structure ClosesExactlyOnce (T : HandleTraits HandleType)
    (actions : List (WrapperAction P HandleType)) : Prop where
  accounted : ∀ past later s, actions = past ++ later → start.run T past = some s →
    s.Accounted T
  selfTransfer : ∀ past this later s s', actions = past ++ .transferAssign this this :: later →
    start.run T past = some s → s.step T (.transferAssign this this) = some s' →
    s'.memory this = s.memory this

/-- Whenever a wrapper is assigned to another one or to itself, the target has no handle. -/
def TransfersToEmpty (T : HandleTraits HandleType) (actions : List (WrapperAction P HandleType)) :
    Prop :=
  AtEach (fun past a => ∀ this src s, a = .transferAssign this src → start.run T past = some s →
    s.memory.slots T this = none) actions

omit [DecidableEq P] in
theorem accounted_iff (hs : s.Sound T) : s.Accounted T ↔ (s.ledger T).lost = ∅ := by
  rw [Ledger.lost_eq_empty hs.unshared]
  constructor
  · exact fun h => h.open_held
  · intro hheld
    refine ⟨hheld, hs.unshared.live_of_slot, hs.closedOnce, ?_⟩
    intro hnone h hopen
    obtain ⟨this, hthis, _⟩ := hheld h hopen
    have hslot : s.memory.slots T this = some h := hthis
    rw [slots_of_none (hnone this)] at hslot
    cases hslot

theorem transfersToEmpty_iff : TransfersToEmpty T actions ↔
    AtEach (fun past a => ∀ u, start.run T past = some u →
      a.overwritten (u.ledger T) = ∅) actions := by
  refine forall₄_congr fun past a later _ => ⟨fun h u hu => ?_, fun h this src u ha hu => ?_⟩
  · cases a with
    | transferAssign this src =>
      rw [Set.eq_empty_iff_forall_notMem]
      intro g hg
      have hslot : u.memory.slots T this = some g := hg
      rw [h this src u rfl hu] at hslot
      cases hslot
    | _ => rfl
  · cases ha
    have hover := Set.eq_empty_iff_forall_notMem.mp (h u hu)
    exact Option.eq_none_iff_forall_ne_some.mpr hover

/-- A wrapper without a handle keeps its value when it is assigned to itself. -/
theorem selfTransfer_of_empty {this : P} (hempty : s.memory.slots T this = none)
    (h : s.step T (.transferAssign this this) = some s') : s'.memory this = s.memory this := by
  cases step_effect h with
  | @transferAssign _ _ v w hthis hsrc =>
    have howned : w.owned T = none := (slots_of_some hsrc).symm.trans hempty
    have hinvalid : w.mHandle = T.invalidValue := HandleWrapper.mHandle_of_not_owned howned
    have hw : HandleWrapper.new T = w := (congrArg HandleWrapper.mk hinvalid).symm
    rw [hsrc, ← hw]
    exact update_self this _ _

/-- A program closes each handle exactly once when, and only when, it transfers handles to
wrappers without one. -/
theorem closes_exactly_once_iff (h : (start.run T actions).isSome = true) :
    ClosesExactlyOnce T actions ↔ TransfersToEmpty T actions := by
  obtain ⟨s, hs⟩ := Option.isSome_iff_exists.mp h
  constructor
  · intro hcloses
    have haccounted := hcloses.accounted actions [] s (List.append_nil _).symm hs
    rw [transfersToEmpty_iff, ← lost_run hs]
    exact (accounted_iff (Sound.run hs)).mp haccounted
  · intro hempty
    refine ⟨?_, ?_⟩
    · intro past later u hsplit hu
      rw [accounted_iff (Sound.run hu), lost_run hu, ← transfersToEmpty_iff]
      rw [hsplit] at hempty
      exact hempty.of_isPrefix ⟨later, rfl⟩
    · intro past this later u u' hsplit hu hstep
      exact selfTransfer_of_empty (hempty past _ later hsplit this this u rfl hu) hstep

/-- A handle is moved into a new wrapper and taken back, another one is assigned, and both are
closed. -/
def takenBack : List (WrapperAction (Fin 2) ℕ) :=
  [.constructFrom 0 8, .moveConstruct 1 0, .transferAssign 0 1, .assignHandle 1 12, .destroy 0,
    .destroy 1]

theorem closes_exactly_once_iff_takenBack :
    (start.run eventLogHandleTraits takenBack).isSome = true ∧
      ClosesExactlyOnce eventLogHandleTraits takenBack := by
  refine ⟨by decide, (closes_exactly_once_iff (by decide)).mpr ?_⟩
  have hmoved : ∀ s, start.run eventLogHandleTraits (takenBack.take 2) = some s →
      s.memory.slots eventLogHandleTraits 0 = none := by
    intro s hs
    cases hs
    rfl
  unfold TransfersToEmpty takenBack
  simp only [atEach_cons, reduceCtorEq, false_implies, implies_true, true_and, atEach_nil, and_true]
  intro this src s ha hs
  cases ha
  exact hmoved s hs

/-- A handle is overwritten by a transfer and stays open after all wrappers are gone; a wrapper
that is assigned to itself forgets its handle. -/
theorem transfers_lose_handles :
    (∃ s ∈ start.run eventLogHandleTraits [.constructFrom 0 8, .constructFrom 1 12,
        .transferAssign 0 1, .destroy 0, .destroy (1 : Fin 2)],
      (∀ this, s.memory this = none) ∧ IsOpen s.calls 8) ∧
    ¬ ClosesExactlyOnce eventLogHandleTraits [.constructFrom 0 8, .constructFrom 1 12,
        .transferAssign 0 1, .destroy 0, .destroy (1 : Fin 2)] ∧
    (∃ s ∈ start.run eventLogHandleTraits [.constructFrom 0 8, .transferAssign 0 (0 : Fin 2)],
      s.memory 0 = some ⟨0⟩ ∧ IsOpen s.calls 8) ∧
    ¬ ClosesExactlyOnce eventLogHandleTraits
        [.constructFrom 0 8, .transferAssign 0 (0 : Fin 2)] := by
  have hleak : ∃ s ∈ start.run eventLogHandleTraits [.constructFrom 0 8, .constructFrom 1 12,
      .transferAssign 0 1, .destroy 0, .destroy (1 : Fin 2)],
      (∀ this, s.memory this = none) ∧ IsOpen s.calls 8 := by decide
  have hself : ∃ s ∈ start.run eventLogHandleTraits [.constructFrom 0 8,
      .transferAssign 0 (0 : Fin 2)], s.memory 0 = some ⟨0⟩ ∧ IsOpen s.calls 8 := by decide
  refine ⟨hleak, ?_, hself, ?_⟩
  · intro h
    obtain ⟨s, hs, hnone, hopen⟩ := hleak
    exact (h.accounted _ [] s (List.append_nil _).symm hs).all_closed hnone 8 hopen
  · intro h
    have hstep : ∃ s ∈ start.run eventLogHandleTraits [.constructFrom (0 : Fin 2) 8],
        s.memory 0 = some ⟨8⟩ ∧ ∃ s' ∈ s.step eventLogHandleTraits (.transferAssign 0 0),
          s'.memory 0 = some ⟨0⟩ := by decide
    obtain ⟨s, hs, hbefore, s', hs', hafter⟩ := hstep
    have hkeep := h.selfTransfer [.constructFrom 0 8] 0 [] s s' rfl hs hs'
    rw [hbefore, hafter] at hkeep
    exact absurd hkeep (by decide)

end Wrappers
end RDPBlocker
