import Mathlib.Data.List.Forall2

/-! Computations that write to a state and may raise an exception, which keeps what was written. -/
namespace Foundation
variable {ε σ α β : Type}

abbrev Raising (ε σ α : Type) := ExceptT ε (StateM σ) α

namespace Raising

def execute (x : Raising ε σ α) (s : σ) : Except ε α × σ := x.run.run s

def ofOption (e : ε) : Option α → Raising ε σ α
  | some a => pure a
  | none => throw e

variable {x : Raising ε σ α} {f : α → Raising ε σ β} {e : ε} {C D : Prop}

theorem execute_bind (x : Raising ε σ α) (f : α → Raising ε σ β) (s : σ) :
    (x >>= f).execute s = match x.execute s with
      | (.ok a, s') => (f a).execute s'
      | (.error e, s') => (.error e, s') := by
  change (ExceptT.run (x >>= f)).run s = _
  rw [ExceptT.run_bind, StateT.run_bind]
  unfold execute
  rcases hx : x.run.run s with ⟨r, s'⟩
  cases r with
  | ok a => rfl
  | error e => rfl

/-- The outcome does not depend on the state. -/
def Ends (x : Raising ε σ α) (r : Except ε α) : Prop := ∀ s, (x.execute s).1 = r

theorem Ends.bind_ok {a : α} {r : Except ε β} (hx : x.Ends (.ok a)) (hf : (f a).Ends r) :
    (x >>= f).Ends r := by
  intro s
  have hs := hx s
  rw [execute_bind]
  rcases hxs : x.execute s with ⟨r', s'⟩
  rw [hxs] at hs
  cases hs
  exact hf s'

theorem Ends.bind_error (hx : x.Ends (.error e)) : (x >>= f).Ends (.error e) := by
  intro s
  have hs := hx s
  rw [execute_bind]
  rcases hxs : x.execute s with ⟨r', s'⟩
  rw [hxs] at hs
  cases hs
  rfl

theorem Ends.ofOption {o : Option α} {r : Except ε β} (hnone : o = none → r = .error e)
    (hsome : ∀ a, o = some a → (f a).Ends r) : (Raising.ofOption e o >>= f).Ends r := by
  cases o with
  | none =>
    rw [hnone rfl]
    exact fun _ => rfl
  | some a => exact hsome a rfl

/-- It succeeds if `C` holds, and raises `e` if not. -/
structure Requires (x : Raising ε σ PUnit) (e : ε) (C : Prop) : Prop where
  ends : C → x.Ends (.ok ⟨⟩)
  raises : ¬ C → x.Ends (.error e)

namespace Requires

theorem modify (f : σ → σ) : Requires (modify f : Raising ε σ PUnit) e True where
  ends _ _ := rfl
  raises h := absurd trivial h

theorem seq {x y : Raising ε σ PUnit} (hx : x.Requires e C) (hy : y.Requires e D) :
    Requires (x >>= fun _ => y) e (C ∧ D) where
  ends h := (hx.ends h.1).bind_ok (hy.ends h.2)
  raises h := by
    by_cases hC : C
    · exact (hx.ends hC).bind_ok (hy.raises fun hD => h ⟨hC, hD⟩)
    · exact (hx.raises hC).bind_error

theorem congr {x : Raising ε σ PUnit} (hx : x.Requires e C) (h : C ↔ D) : x.Requires e D where
  ends hD := hx.ends (h.mpr hD)
  raises hD := hx.raises fun hC => hD (h.mp hC)

/-- A value that is read, and what is done with it. -/
theorem ofOption {f : α → Raising ε σ PUnit} {D : α → Prop} (o : Option α)
    (hf : ∀ a, (f a).Requires e (D a)) :
    Requires (ofOption e o >>= f) e (∃ a, o = some a ∧ D a) := by
  cases o with
  | none => exact ⟨by simp, fun _ _ => rfl⟩
  | some a =>
    have heq : (∃ b, some a = some b ∧ D b) ↔ D a := by simp
    rw [heq]
    exact ⟨(hf a).ends, (hf a).raises⟩

theorem forM {f : α → Raising ε σ PUnit} {D : α → Prop} (l : List α)
    (hf : ∀ a, (f a).Requires e (D a)) : Requires (l.forM f) e (∀ a ∈ l, D a) := by
  induction l with
  | nil => exact ⟨fun _ _ => rfl, by simp⟩
  | cons a l ih =>
    rw [List.forall_mem_cons]
    exact (hf a).seq ih

end Requires

/-- What `P` says of the state is kept, whether it raises an exception or not. -/
def Keeps (x : Raising ε σ α) (P : σ → Prop) : Prop := ∀ s, P s → P (x.execute s).2

namespace Keeps
variable {P : σ → Prop}

theorem modify {g : σ → σ} (hg : ∀ s, P s → P (g s)) :
    Keeps (modify g : Raising ε σ PUnit) P := hg

theorem ofOption {o : Option α} (hf : ∀ a, o = some a → (f a).Keeps P) :
    Keeps (ofOption e o >>= f) P := by
  cases o with
  | none => exact fun _ hs => hs
  | some a => exact hf a rfl

theorem bind (hx : x.Keeps P) (hf : ∀ a, (f a).Keeps P) : (x >>= f).Keeps P := by
  intro s hs
  have hs' := hx s hs
  rw [execute_bind]
  rcases hxs : x.execute s with ⟨r, s'⟩
  rw [hxs] at hs'
  cases r with
  | ok a => exact hf a s' hs'
  | error e => exact hs'

theorem forM {f : α → Raising ε σ PUnit} (l : List α) (hf : ∀ a, (f a).Keeps P) :
    Keeps (l.forM f) P := by
  induction l with
  | nil => exact fun _ hs => hs
  | cons a l ih => exact (hf a).bind fun _ => ih

end Keeps

/-- It succeeds with one of the writes of `C`, and in no other way. -/
def Writes (x : Raising ε σ PUnit) (C : (σ → σ) → Prop) : Prop :=
  ∀ s s', x.execute s = (.ok ⟨⟩, s') ↔ ∃ w, C w ∧ w s = s'

namespace Writes
variable {x y : Raising ε σ PUnit} {C D : (σ → σ) → Prop}

theorem modify (f : σ → σ) : Writes (modify f : Raising ε σ PUnit) (· = f) := by
  intro s s'
  have hexecute : execute (MonadState.modifyGet fun s => (⟨⟩, f s) : Raising ε σ PUnit) s =
      (.ok ⟨⟩, f s) := rfl
  constructor
  · intro h
    exact ⟨f, rfl, congrArg Prod.snd (hexecute.symm.trans h)⟩
  · rintro ⟨w, rfl, rfl⟩
    exact hexecute

theorem of_ends_error (hx : x.Ends (.error e)) : x.Writes fun _ => False := by
  intro s s'
  constructor
  · intro h
    have hs := hx s
    rw [h] at hs
    cases hs
  · rintro ⟨w, hw, -⟩
    exact hw.elim

theorem congr (hx : x.Writes C) (h : ∀ w, C w ↔ D w) : x.Writes D := by
  intro s s'
  rw [hx s s']
  simp only [h]

theorem seq (hx : x.Writes C) (hy : y.Writes D) :
    Writes (x >>= fun _ => y) fun w => ∃ u v, C u ∧ D v ∧ w = v ∘ u := by
  intro s s'
  rw [execute_bind]
  constructor
  · intro h
    rcases hxs : x.execute s with ⟨r, t⟩
    rw [hxs] at h
    cases r with
    | error e => cases h
    | ok =>
      obtain ⟨u, hu, rfl⟩ := (hx s t).mp hxs
      obtain ⟨v, hv, rfl⟩ := (hy (u s) s').mp h
      exact ⟨v ∘ u, ⟨u, v, hu, hv, rfl⟩, rfl⟩
  · rintro ⟨w, ⟨u, v, hu, hv, rfl⟩, rfl⟩
    rw [(hx s (u s)).mpr ⟨u, hu, rfl⟩]
    exact (hy (u s) _).mpr ⟨v, hv, rfl⟩

theorem ofOption {f : α → Raising ε σ PUnit} {C : α → (σ → σ) → Prop} (o : Option α)
    (hf : ∀ a, (f a).Writes (C a)) :
    Writes (ofOption e o >>= f) fun w => ∃ a, o = some a ∧ C a w := by
  cases o with
  | none =>
    intro s s'
    have hexecute : (Raising.ofOption e none >>= f).execute s = (.error e, s) := rfl
    constructor
    · intro h
      cases hexecute.symm.trans h
    · rintro ⟨w, ⟨a, ha, -⟩, -⟩
      cases ha
  | some a => exact (hf a).congr fun w => by simp

/-- A loop that reads a value for each entry and writes it. -/
theorem forM {f : α → Raising ε σ PUnit} {Reads : α → β → Prop} {write : β → σ → σ}
    (hf : ∀ a, (f a).Writes fun w => ∃ b, Reads a b ∧ w = write b) (l : List α) :
    Writes (l.forM f) fun w => ∃ bs : List β, l.Forall₂ Reads bs ∧
      w = fun s => bs.foldl (fun s b => write b s) s := by
  induction l with
  | nil =>
    have hdone : Writes (pure ⟨⟩ : Raising ε σ PUnit) (· = id) := by
      intro s s'
      have hexecute : (pure ⟨⟩ : Raising ε σ PUnit).execute s = (.ok ⟨⟩, s) := rfl
      rw [hexecute]
      simp
    refine hdone.congr fun w => ?_
    constructor
    · rintro rfl
      exact ⟨[], .nil, rfl⟩
    · rintro ⟨_, _ | _, rfl⟩
      rfl
  | cons a l ih =>
    refine ((hf a).seq ih).congr fun w => ?_
    constructor
    · rintro ⟨_, _, ⟨b, hb, rfl⟩, ⟨bs, hbs, rfl⟩, rfl⟩
      exact ⟨b :: bs, .cons hb hbs, rfl⟩
    · rintro ⟨_, hbs, rfl⟩
      cases hbs with
      | cons hb hbs => exact ⟨_, _, ⟨_, hb, rfl⟩, ⟨_, hbs, rfl⟩, rfl⟩

end Writes
end Raising
end Foundation
