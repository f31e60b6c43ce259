import Mathlib.Algebra.Order.Monoid.Defs
import Mathlib.Data.List.Chain

/-! Banning after failed logins, stated on the history of one address alone: a failure that
comes soon enough after the one before it, or during a ban, continues a streak, and a streak
that is long enough starts a ban unless one is in force. -/
namespace Spec
variable {τ : Type*} [LinearOrder τ] [AddCommMonoid τ]

/-- A failed login and the length of the ban it started. -/
structure Failure (τ : Type*) where
  time : τ
  ban : Option τ

/-- How long a failure counts (`none`: for ever) and which streaks call for a ban. -/
structure FailBan (τ : Type*) where
  memory : Option τ
  reaches : ℕ → Bool

/-- Histories are newest first. Both ends of a ban belong to it. -/
def InForce (h : List (Failure τ)) (t : τ) : Prop :=
  ∃ f ∈ h, ∃ d, f.ban = some d ∧ 0 < d ∧ t ≤ f.time + d

theorem InForce.antitone {h : List (Failure τ)} {t t' : τ} (ht : t ≤ t') (hf : InForce h t') :
    InForce h t := by
  obtain ⟨f, hf, d, hd, hpos, hle⟩ := hf
  exact ⟨f, hf, d, hd, hpos, ht.trans hle⟩

theorem inForce_cons {f : Failure τ} {h : List (Failure τ)} {t : τ} :
    InForce (f :: h) t ↔ (∃ d, f.ban = some d ∧ 0 < d ∧ t ≤ f.time + d) ∨ InForce h t := by
  simp only [InForce, List.mem_cons, or_and_right, exists_or, exists_eq_left]

namespace FailBan
variable (p : FailBan τ)

def Near (t t' : τ) : Prop := ∀ m ∈ p.memory, t' ≤ t + m

/-- At time `t` the last failure still counts. -/
def Remembered (h : List (Failure τ)) (t : τ) : Prop :=
  (∃ f ∈ h.head?, p.Near f.time t) ∨ InForce h t

open Classical in
noncomputable def streak : List (Failure τ) → ℕ
  | [] => 0
  | f :: h => if p.Remembered h f.time then streak h + 1 else 1

open Classical in
/-- A failure at time `t`, with `d` the length of the ban it may start. -/
noncomputable def fail (h : List (Failure τ)) (t d : τ) : List (Failure τ) :=
  let n := p.streak (⟨t, none⟩ :: h)
  ⟨t, if p.reaches n = true ∧ ¬ InForce h t then some d else none⟩ :: h

/-- The history of a sequence of failures, oldest first, each with its time and the length of
the ban it may start. -/
noncomputable def history (xs : List (τ × τ)) : List (Failure τ) :=
  xs.foldl (fun h x => p.fail h x.1 x.2) []

@[simp] theorem history_nil : p.history [] = [] := rfl

@[simp] theorem history_snoc (xs : List (τ × τ)) (x : τ × τ) :
    p.history (xs ++ [x]) = p.fail (p.history xs) x.1 x.2 := by
  simp only [history, List.foldl_append, List.foldl_cons, List.foldl_nil]

theorem Remembered.antitone {h : List (Failure τ)} {t t' : τ} (ht : t ≤ t')
    (hr : p.Remembered h t') : p.Remembered h t := by
  rcases hr with ⟨f, hf, hn⟩ | hf
  · exact Or.inl ⟨f, hf, fun m hm => ht.trans (hn m hm)⟩
  · exact Or.inr (hf.antitone ht)

theorem not_remembered_nil (t : τ) : ¬ p.Remembered [] t := by
  rintro (⟨f, hf, _⟩ | ⟨f, hf, _⟩) <;> cases hf

theorem streak_cons_of_remembered {f : Failure τ} {h : List (Failure τ)}
    (hr : p.Remembered h f.time) : p.streak (f :: h) = p.streak h + 1 := by
  simp only [streak, hr, if_true]

theorem streak_cons_of_not_remembered {f : Failure τ} {h : List (Failure τ)}
    (hr : ¬ p.Remembered h f.time) : p.streak (f :: h) = 1 := by
  simp only [streak, hr, if_false]

theorem streak_cons_pos (f : Failure τ) (h : List (Failure τ)) : 0 < p.streak (f :: h) := by
  unfold streak
  split_ifs <;> omega

theorem streak_le_length (h : List (Failure τ)) : p.streak h ≤ h.length := by
  induction h with
  | nil => exact le_rfl
  | cons f h ih =>
    unfold streak
    rw [List.length_cons]
    split_ifs <;> omega

/-- The length of the streak does not depend on whether the last failure started a ban. -/
theorem streak_fail (h : List (Failure τ)) (t d : τ) :
    p.streak (p.fail h t d) = p.streak (⟨t, none⟩ :: h) := rfl

theorem ban_fail (h : List (Failure τ)) (t d e : τ) :
    (∃ f ∈ (p.fail h t d).head?, f.ban = some e) ↔
      p.reaches (p.streak (⟨t, none⟩ :: h)) = true ∧ ¬ InForce h t ∧ d = e := by
  unfold fail
  by_cases hb : p.reaches (p.streak (⟨t, none⟩ :: h)) = true ∧ ¬ InForce h t
  · simp [hb]
  · simp only [hb, if_false, List.head?_cons, Option.mem_some_iff, exists_eq_left', reduceCtorEq,
      false_iff]
    exact fun hc => hb ⟨hc.1, hc.2.1⟩

@[simp] theorem length_history (xs : List (τ × τ)) : (p.history xs).length = xs.length := by
  induction xs using List.reverseRecOn with
  | nil => rfl
  | append_singleton xs x ih =>
    have hfail : (p.fail (p.history xs) x.1 x.2).length = (p.history xs).length + 1 := rfl
    rw [history_snoc, hfail, ih, List.length_append, List.length_singleton]

theorem time_mem_of_mem_history {xs : List (τ × τ)} {f : Failure τ} (hf : f ∈ p.history xs) :
    ∃ x ∈ xs, x.1 = f.time := by
  induction xs using List.reverseRecOn with
  | nil => cases hf
  | append_singleton xs y ih =>
    rw [history_snoc] at hf
    rcases List.mem_cons.mp hf with rfl | hf
    · exact ⟨y, by simp, rfl⟩
    · obtain ⟨x, hx, ht⟩ := ih hf
      exact ⟨x, List.mem_append_left _ hx, ht⟩

/-- Failures that follow each other closely are all in the streak. -/
theorem length_le_streak (before segment : List (τ × τ))
    (hc : segment.IsChain fun x y => p.Near x.1 y.1) :
    segment.length ≤ p.streak (p.history (before ++ segment)) := by
  induction segment using List.reverseRecOn with
  | nil => exact Nat.zero_le _
  | append_singleton segment x ih =>
    obtain ⟨hc', _, hlast⟩ := List.isChain_append.mp hc
    have hle := ih hc'
    rw [← List.append_assoc, history_snoc, streak_fail, List.length_append,
      List.length_singleton]
    rcases List.eq_nil_or_concat segment with rfl | ⟨ws, w, rfl⟩
    · exact p.streak_cons_pos _ _
    · have hnear : p.Near w.1 x.1 := hlast w (by simp) x (by simp)
      have hrem : p.Remembered (p.history (before ++ ws.concat w)) x.1 := by
        left
        rw [List.concat_eq_append, ← List.append_assoc, history_snoc]
        exact ⟨_, rfl, hnear⟩
      rw [p.streak_cons_of_remembered hrem]
      omega

/-- `y` continues the streak of `x`: it comes soon enough, or a ban of `h` covers the gap. -/
def Linked (h : List (Failure τ)) (x y : τ × τ) : Prop :=
  p.Near x.1 y.1 ∨
    ∃ f ∈ h, ∃ d, f.ban = some d ∧ 0 < d ∧ f.time ≤ x.1 ∧ y.1 ≤ f.time + d

theorem Linked.cons {h : List (Failure τ)} {x y : τ × τ} (hl : p.Linked h x y) (f : Failure τ) :
    p.Linked (f :: h) x y := by
  rcases hl with hl | ⟨b, hb, hrest⟩
  · exact Or.inl hl
  · exact Or.inr ⟨b, List.mem_cons_of_mem _ hb, hrest⟩

/-- A failure that the history remembers is linked to the last one of it. -/
theorem linked_of_remembered {ws : List (τ × τ)} {w y : τ × τ}
    (hs : (ws ++ [w]).Pairwise fun x y => x.1 ≤ y.1)
    (hr : p.Remembered (p.history (ws ++ [w])) y.1) :
    p.Linked (p.history (ws ++ [w])) w y := by
  rcases hr with ⟨f, hf, hn⟩ | ⟨f, hf, d, hd, hpos, hle⟩
  · left
    rw [history_snoc] at hf
    cases hf
    exact hn
  · refine Or.inr ⟨f, hf, d, hd, hpos, ?_, hle⟩
    obtain ⟨x, hx, ht⟩ := p.time_mem_of_mem_history hf
    rw [← ht]
    rcases List.mem_append.mp hx with hx | hx
    · exact (List.pairwise_append.mp hs).2.2 x hx w (by simp)
    · rw [List.mem_singleton.mp hx]

/-- The streak is a run of linked failures at the end of the history. -/
theorem exists_streak_segment (xs : List (τ × τ)) (hne : xs ≠ [])
    (hs : xs.Pairwise fun x y => x.1 ≤ y.1) :
    ∃ before segment, xs = before ++ segment ∧ segment.length = p.streak (p.history xs) ∧
      segment.IsChain (p.Linked (p.history xs)) := by
  induction xs using List.reverseRecOn with
  | nil => exact absurd rfl hne
  | append_singleton xs y ih =>
    rw [history_snoc]
    by_cases hr : p.Remembered (p.history xs) y.1
    · rcases List.eq_nil_or_concat' xs with rfl | ⟨ws, w, rfl⟩
      · exact absurd hr (p.not_remembered_nil _)
      have hs' := (List.pairwise_append.mp hs).1
      obtain ⟨before, segment, hsplit, hlen, hchain⟩ := ih (by simp) hs'
      have hpos : segment ≠ [] := by
        apply List.ne_nil_of_length_pos
        rw [hlen, history_snoc]
        exact p.streak_cons_pos _ _
      have hlast : segment.getLast? = some w := by
        rw [← List.getLast?_append_of_ne_nil before hpos, ← hsplit, List.getLast?_concat]
      refine ⟨before, segment ++ [y], by rw [hsplit, List.append_assoc], ?_, ?_⟩
      · rw [streak_fail, p.streak_cons_of_remembered hr, List.length_append, hlen]
        rfl
      · refine List.isChain_append.mpr ⟨hchain.imp fun a b hab => hab.cons p _,
          List.isChain_singleton _, ?_⟩
        intro a ha b hb
        rw [hlast] at ha
        cases ha
        cases hb
        exact (p.linked_of_remembered hs' hr).cons p _
    · refine ⟨xs, [y], rfl, ?_, List.isChain_singleton _⟩
      rw [streak_fail, p.streak_cons_of_not_remembered hr]
      rfl

/-- A failure whose streak is long enough leaves a ban in force. -/
theorem inForce_fail [IsOrderedAddMonoid τ] {h : List (Failure τ)} {t d : τ} (hd : 0 < d)
    (hr : p.reaches (p.streak (⟨t, none⟩ :: h)) = true) : InForce (p.fail h t d) t := by
  unfold fail
  rw [inForce_cons]
  by_cases hf : InForce h t
  · exact Or.inr hf
  · exact Or.inl ⟨d, by simp [hr, hf], hd, le_add_of_nonneg_right hd.le⟩

end FailBan
end Spec
