import Mathlib.Data.Finset.Card
import RDPBlocker.Foundation.Ownership

/-! The open handles to one kernel object, and the slots of a program that own them. -/
namespace Foundation
open Function
variable {P : Type*}

/-- The handles that are open. A handle is never given out twice. -/
structure HandleTable where
  opened : Finset ℕ
  next : ℕ
  fresh : ∀ h ∈ opened, h < next

namespace HandleTable

def empty : HandleTable := ⟨∅, 0, by simp⟩

/-- A new handle, `t.next`. -/
def alloc (t : HandleTable) : HandleTable where
  opened := insert t.next t.opened
  next := t.next + 1
  fresh h hh := by
    rcases Finset.mem_insert.mp hh with rfl | hh
    · exact Nat.lt_succ_self _
    · exact (t.fresh h hh).trans (Nat.lt_succ_self _)

def close (t : HandleTable) (h : ℕ) : HandleTable where
  opened := t.opened.erase h
  next := t.next
  fresh g hg := t.fresh g (Finset.mem_of_mem_erase hg)

theorem next_not_mem (t : HandleTable) : t.next ∉ t.opened :=
  fun h => Nat.lt_irrefl _ (t.fresh _ h)

/-- What an operation on one slot may do: nothing, open a handle into it when it is free, or close
the handle it has. -/
inductive Effect (t : HandleTable) (slot : Option ℕ) : Option ℕ → HandleTable → Prop
  | keep : Effect t slot slot t
  | alloc (h : slot = none) : Effect t slot (some t.next) t.alloc
  | close (h : ℕ) (hslot : slot = some h) : Effect t slot none (t.close h)

/-- Every open handle is in exactly one slot, and no slot has a closed one. -/
structure OwnedBy (t : HandleTable) (slots : P → Option ℕ) : Prop where
  mem_iff : ∀ h, h ∈ t.opened ↔ ∃ p, slots p = some h
  unique : ∀ p q h, slots p = some h → slots q = some h → p = q

namespace OwnedBy
variable {t t' : HandleTable} {slots : P → Option ℕ} {p : P} {slot : Option ℕ}

theorem empty : HandleTable.empty.OwnedBy fun _ : P => none where
  mem_iff h := by simp [HandleTable.empty]
  unique p q h hp := by cases hp

theorem opened_eq_empty (ht : t.OwnedBy slots) : t.opened = ∅ ↔ ∀ p, slots p = none := by
  constructor
  · intro h p
    cases hp : slots p with
    | none => rfl
    | some g =>
      have hg := (ht.mem_iff g).mpr ⟨p, hp⟩
      rw [h] at hg
      exact absurd hg (Finset.notMem_empty g)
  · intro h
    rw [Finset.eq_empty_iff_forall_notMem]
    intro g hg
    obtain ⟨p, hp⟩ := (ht.mem_iff g).mp hg
    rw [h p] at hp
    cases hp

end OwnedBy

def ledger (t : HandleTable) (slots : P → Option ℕ) : Ledger P ℕ := ⟨{h | h ∈ t.opened}, slots⟩

theorem ownedBy_iff {t : HandleTable} {slots : P → Option ℕ} :
    t.OwnedBy slots ↔ (t.ledger slots).Unshared ∧ (t.ledger slots).lost = ∅ := by
  constructor
  · intro h
    have hunshared : (t.ledger slots).Unshared :=
      ⟨fun p g hp => (h.mem_iff g).mpr ⟨p, hp⟩, h.unique⟩
    refine ⟨hunshared, (Ledger.lost_eq_empty hunshared).mpr fun g hg => ?_⟩
    obtain ⟨p, hp⟩ := (h.mem_iff g).mp hg
    exact ⟨p, hp, fun q hq => h.unique q p g hq hp⟩
  · intro h
    obtain ⟨hunshared, hlost⟩ := h
    refine ⟨fun g => ⟨fun hg => ?_, fun hg => ?_⟩, hunshared.unique⟩
    · exact ((Ledger.lost_eq_empty hunshared).mp hlost g hg).exists
    · obtain ⟨p, hp⟩ := hg
      exact hunshared.live_of_slot p g hp

namespace OwnedBy
variable {t t' : HandleTable} {slots : P → Option ℕ} {p : P} {slot : Option ℕ} [DecidableEq P]

theorem alloc (ht : t.OwnedBy slots) (hp : slots p = none) :
    t.alloc.OwnedBy (update slots p (some t.next)) := by
  obtain ⟨hunshared, hlost⟩ := ownedBy_iff.mp ht
  have hledger : t.alloc.ledger (update slots p (some t.next)) =
      (t.ledger slots).give p t.next := by
    unfold ledger Ledger.give
    congr
    ext g
    exact Finset.mem_insert
  rw [ownedBy_iff, hledger]
  exact ⟨hunshared.give t.next_not_mem, (Ledger.give_lost hp t.next_not_mem).trans hlost⟩

theorem close (ht : t.OwnedBy slots) {h : ℕ} (hp : slots p = some h) :
    (t.close h).OwnedBy (update slots p none) := by
  obtain ⟨hunshared, hlost⟩ := ownedBy_iff.mp ht
  have hledger : (t.close h).ledger (update slots p none) = (t.ledger slots).release p := by
    unfold ledger Ledger.release
    congr
    ext g
    refine Finset.mem_erase.trans (and_comm.trans (and_congr_right fun _ => ?_))
    change g ≠ h ↔ ¬slots p = some g
    rw [hp, Option.some.injEq]
    exact ne_comm
  rw [ownedBy_iff, hledger]
  exact ⟨hunshared.release, (Ledger.release_lost _ p).trans hlost⟩

theorem effect (ht : t.OwnedBy slots) (he : Effect t (slots p) slot t') :
    t'.OwnedBy (update slots p slot) := by
  cases he with
  | keep =>
    rw [update_eq_self]
    exact ht
  | alloc h => exact ht.alloc h
  | close h hslot => exact ht.close hslot

end OwnedBy
end HandleTable
end Foundation
