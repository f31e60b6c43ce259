import Mathlib.Data.Set.Insert
import Mathlib.Logic.Function.Basic

/-! Resources and the slots that hold them: which are live, and which of those are lost. -/
namespace Foundation
open Function

/-- The resources that are live, and what is in each slot. -/
structure Ledger (P H : Type*) where
  live : Set H
  slots : P → Option H

namespace Ledger
variable {P H : Type*} {l : Ledger P H}

/-- What is in a slot is live, and in no other slot. -/
structure Unshared (l : Ledger P H) : Prop where
  live_of_slot : ∀ p h, l.slots p = some h → h ∈ l.live
  unique : ∀ p q h, l.slots p = some h → l.slots q = some h → p = q

/-- What is live and in no slot. -/
def lost (l : Ledger P H) : Set H := {h | h ∈ l.live ∧ ∀ p, l.slots p ≠ some h}

def empty : Ledger P H := ⟨∅, fun _ => none⟩

theorem empty_unshared : (empty : Ledger P H).Unshared where
  live_of_slot p h hp := by cases hp
  unique p q h hp := by cases hp

theorem empty_lost : (empty : Ledger P H).lost = ∅ := by
  ext h
  exact iff_of_false (fun hlost => hlost.1) id

/-- Nothing is lost exactly when each live resource has one slot. -/
theorem lost_eq_empty (hl : l.Unshared) :
    l.lost = ∅ ↔ ∀ h ∈ l.live, ∃! p, l.slots p = some h := by
  constructor
  · intro hlost h hlive
    have hmem : h ∉ l.lost := by
      rw [hlost]
      exact Set.notMem_empty h
    have hslot : ∃ p, l.slots p = some h := by
      by_contra hnone
      exact hmem ⟨hlive, fun p hp => hnone ⟨p, hp⟩⟩
    obtain ⟨p, hp⟩ := hslot
    exact ⟨p, hp, fun q hq => hl.unique q p h hq hp⟩
  · intro hslots
    rw [Set.eq_empty_iff_forall_notMem]
    intro h hlost
    obtain ⟨p, hp, _⟩ := hslots h hlost.1
    exact hlost.2 p hp

variable [DecidableEq P] {p q dst src : P} {g h : H}

/-- A new resource. -/
def give (l : Ledger P H) (p : P) (h : H) : Ledger P H :=
  ⟨insert h l.live, update l.slots p (some h)⟩

/-- What is in the slot ends. -/
def release (l : Ledger P H) (p : P) : Ledger P H :=
  ⟨l.live \ {h | l.slots p = some h}, update l.slots p none⟩

/-- What is in `src` goes to `dst`, over what was there. -/
def take (l : Ledger P H) (dst src : P) : Ledger P H :=
  ⟨l.live, update (update l.slots dst (l.slots src)) src none⟩

theorem give_slots : (l.give p h).slots q = some g ↔
    q = p ∧ g = h ∨ q ≠ p ∧ l.slots q = some g := by
  unfold give
  by_cases hq : q = p
  · subst hq
    simp [eq_comm]
  · simp [hq]

theorem release_slots : (l.release p).slots q = some g ↔ q ≠ p ∧ l.slots q = some g := by
  unfold release
  by_cases hq : q = p
  · subst hq
    simp
  · simp [hq]

theorem take_slots : (l.take dst src).slots q = some g ↔
    q ≠ src ∧ (q = dst ∧ l.slots src = some g ∨ q ≠ dst ∧ l.slots q = some g) := by
  unfold take
  by_cases hsrc : q = src
  · subst hsrc
    simp
  · by_cases hdst : q = dst
    · subst hdst
      simp [hsrc]
    · simp [hsrc, hdst]

theorem Unshared.give (hl : l.Unshared) (hnew : h ∉ l.live) : (l.give p h).Unshared where
  live_of_slot q g hq := by
    rcases give_slots.mp hq with ⟨_, rfl⟩ | ⟨_, hq⟩
    · exact Set.mem_insert g _
    · exact Set.mem_insert_of_mem h (hl.live_of_slot q g hq)
  unique q r g hq hr := by
    rcases give_slots.mp hq with ⟨hqp, hg⟩ | ⟨_, hq⟩ <;>
      rcases give_slots.mp hr with ⟨hrp, hg'⟩ | ⟨_, hr⟩
    · rw [hqp, hrp]
    · exact absurd (hl.live_of_slot r g hr) (hg ▸ hnew)
    · exact absurd (hl.live_of_slot q g hq) (hg' ▸ hnew)
    · exact hl.unique q r g hq hr

theorem give_lost (hfree : l.slots p = none) (hnew : h ∉ l.live) : (l.give p h).lost = l.lost := by
  ext g
  constructor
  · intro hg
    obtain ⟨hlive, hslots⟩ := hg
    have hne : g ≠ h := fun heq => hslots p (give_slots.mpr (Or.inl ⟨rfl, heq⟩))
    refine ⟨Set.mem_of_mem_insert_of_ne hlive hne, ?_⟩
    intro q hq
    have hqp : q ≠ p := by
      rintro rfl
      rw [hfree] at hq
      cases hq
    exact hslots q (give_slots.mpr (Or.inr ⟨hqp, hq⟩))
  · intro hg
    refine ⟨Set.mem_insert_of_mem h hg.1, ?_⟩
    intro q hq
    rcases give_slots.mp hq with ⟨_, rfl⟩ | ⟨_, hq⟩
    · exact hnew hg.1
    · exact hg.2 q hq

theorem Unshared.release (hl : l.Unshared) : (l.release p).Unshared where
  live_of_slot q g hq := by
    obtain ⟨hqp, hq⟩ := release_slots.mp hq
    exact ⟨hl.live_of_slot q g hq, fun hp => hqp (hl.unique q p g hq hp)⟩
  unique q r g hq hr :=
    hl.unique q r g (release_slots.mp hq).2 (release_slots.mp hr).2

theorem release_lost (l : Ledger P H) (p : P) : (l.release p).lost = l.lost := by
  ext g
  constructor
  · intro hg
    obtain ⟨⟨hlive, hnot⟩, hslots⟩ := hg
    refine ⟨hlive, ?_⟩
    intro q hq
    by_cases hqp : q = p
    · exact hnot (hqp ▸ hq)
    · exact hslots q (release_slots.mpr ⟨hqp, hq⟩)
  · intro hg
    exact ⟨⟨hg.1, hg.2 p⟩, fun q hq => hg.2 q (release_slots.mp hq).2⟩

theorem Unshared.take (hl : l.Unshared) : (l.take dst src).Unshared where
  live_of_slot q g hq := by
    obtain ⟨_, ⟨_, hq⟩ | ⟨_, hq⟩⟩ := take_slots.mp hq
    · exact hl.live_of_slot src g hq
    · exact hl.live_of_slot q g hq
  unique q r g hq hr := by
    obtain ⟨hqsrc, ⟨hqdst, hq⟩ | ⟨_, hq⟩⟩ := take_slots.mp hq <;>
      obtain ⟨hrsrc, ⟨hrdst, hr⟩ | ⟨_, hr⟩⟩ := take_slots.mp hr
    · rw [hqdst, hrdst]
    · exact absurd (hl.unique r src g hr hq) hrsrc
    · exact absurd (hl.unique q src g hq hr) hqsrc
    · exact hl.unique q r g hq hr

/-- What was in `dst` is lost, also when a slot is moved to itself. -/
theorem take_lost (hl : l.Unshared) :
    (l.take dst src).lost = l.lost ∪ {h | l.slots dst = some h} := by
  ext g
  constructor
  · intro hg
    obtain ⟨hlive, hslots⟩ := hg
    by_cases hdst : l.slots dst = some g
    · exact Or.inr hdst
    · refine Or.inl ⟨hlive, ?_⟩
      intro q hq
      have hqdst : q ≠ dst := fun heq => hdst (heq ▸ hq)
      by_cases hqsrc : q = src
      · subst hqsrc
        exact hslots dst (take_slots.mpr ⟨hqdst.symm, Or.inl ⟨rfl, hq⟩⟩)
      · exact hslots q (take_slots.mpr ⟨hqsrc, Or.inr ⟨hqdst, hq⟩⟩)
  · intro h
    rcases h with hg | hdst
    · refine ⟨hg.1, ?_⟩
      intro q hq
      obtain ⟨_, ⟨_, hq⟩ | ⟨_, hq⟩⟩ := take_slots.mp hq
      · exact hg.2 src hq
      · exact hg.2 q hq
    · refine ⟨hl.live_of_slot dst g hdst, ?_⟩
      intro q hq
      obtain ⟨hqsrc, ⟨hqdst, hq⟩ | ⟨hqdst, hq⟩⟩ := take_slots.mp hq
      · exact hqsrc (hqdst.trans (hl.unique dst src g hdst hq))
      · exact hqdst (hl.unique q dst g hq hdst)

end Ledger
end Foundation
