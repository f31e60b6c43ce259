import Mathlib.Data.List.Basic

/-! A login policy whose records are written once: by the configuration, or by the first login
of a user that binds. -/
namespace Spec
variable {User Name Expr : Type*}

/-- A login as the policy sees it. It does not judge one that is not relevant. -/
structure Login (User Name : Type*) where
  relevant : Bool
  user : User
  name : Name

/-- A record is an expression; `bindTo` is the one that binding a user to a name writes. -/
structure LoginPolicy (User Name Expr : Type*) where
  white : Name → Bool
  block : Name → Bool
  checkBind : Bool
  autoBind : Bool
  configured : User → Option Expr
  bindTo : Name → Expr
  allows : Expr → Name → Bool

namespace LoginPolicy
variable (p : LoginPolicy User Name Expr)

/-- The login is looked up among the records. -/
def Checks (l : Login User Name) : Prop :=
  l.relevant = true ∧ p.white l.name = false ∧ p.block l.name = false ∧ p.checkBind = true

instance (l : Login User Name) : Decidable (p.Checks l) :=
  inferInstanceAs (Decidable (_ ∧ _ ∧ _ ∧ _))

/-- The login binds its user, unless there is a record. -/
def Binds (l : Login User Name) : Prop := p.Checks l ∧ p.autoBind = true

instance (l : Login User Name) : Decidable (p.Binds l) := inferInstanceAs (Decidable (_ ∧ _))

variable [DecidableEq User]

/-- The name in the first login of the user that binds. -/
def firstBinding (history : List (Login User Name)) (u : User) : Option Name :=
  (history.find? fun l => decide (l.user = u ∧ p.Binds l)).map Login.name

def record (history : List (Login User Name)) (u : User) : Option Expr :=
  (p.configured u).or ((p.firstBinding history u).map p.bindTo)

/-- A login is judged by the records as they are after it. -/
def Rejects (history : List (Login User Name)) (l : Login User Name) : Prop :=
  l.relevant = true ∧ p.white l.name = false ∧ (p.block l.name = true ∨
    p.checkBind = true ∧ ∀ e, p.record (history ++ [l]) l.user = some e → p.allows e l.name = false)

theorem firstBinding_append (h h' : List (Login User Name)) (u : User) :
    p.firstBinding (h ++ h') u = (p.firstBinding h u).or (p.firstBinding h' u) := by
  unfold firstBinding
  rw [List.find?_append, Option.map_or]

theorem firstBinding_singleton (l : Login User Name) (u : User) :
    p.firstBinding [l] u = if l.user = u ∧ p.Binds l then some l.name else none := by
  unfold firstBinding
  by_cases h : l.user = u ∧ p.Binds l <;> simp [h]

/-- A record stays as it is. -/
theorem record_append (h h' : List (Login User Name)) (u : User) :
    p.record (h ++ h') u = (p.record h u).or ((p.firstBinding h' u).map p.bindTo) := by
  unfold record
  rw [firstBinding_append, Option.map_or, Option.or_assoc]

theorem record_snoc (h : List (Login User Name)) (l : Login User Name) (u : User) :
    p.record (h ++ [l]) u =
      (p.record h u).or (if l.user = u ∧ p.Binds l then some (p.bindTo l.name) else none) := by
  rw [record_append, firstBinding_singleton]
  split_ifs <;> rfl

/-- Only a login that binds its user can give the user a record. -/
theorem record_snoc_eq {h : List (Login User Name)} {l : Login User Name} {u : User}
    (hl : ¬ (l.user = u ∧ p.Binds l)) : p.record (h ++ [l]) u = p.record h u := by
  rw [record_snoc, if_neg hl, Option.or_none]

theorem firstBinding_filter (h : List (Login User Name)) (u : User) :
    p.firstBinding (h.filter fun l => decide (l.user = u)) u = p.firstBinding h u := by
  unfold firstBinding
  rw [List.find?_filter]
  congr 2
  funext l
  by_cases hl : l.user = u <;> simp [hl]

/-- The record of a user comes from the user's own logins. -/
theorem record_filter (h : List (Login User Name)) (u : User) :
    p.record (h.filter fun l => decide (l.user = u)) u = p.record h u := by
  unfold record
  rw [firstBinding_filter]

end LoginPolicy
end Spec
