import RDPBlocker.Foundation.Mealy
import RDPBlocker.Spec.FailBan
import RDPBlocker.Spec.LoginPolicy

/-! What the two policies ask for over a whole history: the bans that failed logins start, and the
logins that are rejected. -/
namespace Spec
open Foundation

namespace FailBan
variable {τ : Type*} [LinearOrder τ] [AddCommMonoid τ] (p : FailBan τ)

/-- The lengths of the bans that a sequence of failures starts, oldest first. -/
noncomputable def bans (xs : List (τ × τ)) : List τ := (p.history xs).reverse.filterMap Failure.ban

@[simp] theorem bans_nil : p.bans [] = [] := rfl

theorem bans_snoc (xs : List (τ × τ)) (x : τ × τ) : p.bans (xs ++ [x]) =
    p.bans xs ++ ((p.fail (p.history xs) x.1 x.2).head?.bind Failure.ban).toList := by
  unfold bans
  rw [history_snoc]
  have hcons : ∃ f, p.fail (p.history xs) x.1 x.2 = f :: p.history xs := ⟨_, rfl⟩
  obtain ⟨f, hf⟩ := hcons
  rw [hf, List.reverse_cons, List.filterMap_append, List.head?_cons, Option.bind_some]
  cases hban : f.ban <;> simp [hban]

/-- An entry of the history is one of the failures, and the ban is the one that it may start. -/
theorem exists_of_mem_history {xs : List (τ × τ)} {f : Failure τ} (hf : f ∈ p.history xs) :
    ∃ x ∈ xs, x.1 = f.time ∧ ∀ d, f.ban = some d → x.2 = d := by
  induction xs using List.reverseRecOn with
  | nil => cases hf
  | append_singleton xs y ih =>
    rw [history_snoc] at hf
    rcases List.mem_cons.mp hf with rfl | hf
    · refine ⟨y, by simp, rfl, fun d hd => ?_⟩
      dsimp only at hd
      split_ifs at hd
      exact Option.some.inj hd
    · obtain ⟨x, hx, hfacts⟩ := ih hf
      exact ⟨x, List.mem_append_left _ hx, hfacts⟩

end FailBan

namespace LoginPolicy
variable {User Name Expr ι : Type*} [DecidableEq User] (p : LoginPolicy User Name Expr)
  (login : ι → Login User Name)

open Classical in
/-- The inputs whose logins are rejected, each after the logins before it. -/
noncomputable def rejected (is : List ι) : List ι :=
  (Mealy.trace (fun h i => (h ++ [login i], if p.Rejects h (login i) then some i else none)) []
    is).filterMap (·.output)

@[simp] theorem rejected_nil : p.rejected login [] = [] := rfl

open Classical in
theorem rejected_snoc (is : List ι) (i : ι) : p.rejected login (is ++ [i]) =
    p.rejected login is ++ if p.Rejects (is.map login) (login i) then [i] else [] := by
  have hpast : ∀ is : List ι, Mealy.final (fun h i =>
      (h ++ [login i], if p.Rejects h (login i) then some i else none)) [] is = is.map login := by
    intro is
    induction is using List.reverseRecOn with
    | nil => rfl
    | append_singleton is i ih => rw [Mealy.final_snoc, ih, List.map_append, List.map_singleton]
  unfold rejected
  rw [Mealy.trace_snoc, List.filterMap_append, hpast]
  by_cases hi : p.Rejects (is.map login) (login i) <;> simp [Mealy.transition, hi]

end LoginPolicy
end Spec
