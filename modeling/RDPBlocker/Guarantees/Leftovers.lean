import RDPBlocker.Guarantees.FailingCalls

/-! What becomes of the rules that are there before the program starts, when any call of the
cleaning may fail. -/
namespace RDPBlocker
open Foundation
variable {B : Boost} {T : Type*} [LinearOrder T]

def rulesNamed (name : String) (rules : List FirewallRule) : List FirewallRule :=
  rules.filter fun r => decide (r.name = name)

/-- What one `Remove` leaves of the rules with its name. -/
def RemoveMode.rest : RemoveMode → List FirewallRule → List FirewallRule
  | .first => List.tail
  | .all => fun _ => []

/-- The names for which `Remove` succeeds. -/
def removedNames (calls : EnumResults) (names : List String) : List String :=
  names.zipIdx.filterMap fun (name, n) => if calls.remove n = true then some name else none

/-- The removals that succeed while the rules are cleaned. -/
def cleanedNames (findExpr : Regex B) (hr : ComResults) (calls : EnumResults)
    (enumerated : List FirewallRule) : Except MatchException (List String) :=
  if calls.opens hr = true then (waitDelete calls findExpr enumerated).map (removedNames calls)
  else .ok []

section Cleaning
variable {findExpr : Regex B} {hr : ComResults} {calls : EnumResults}
  {enumerated : List FirewallRule}

theorem removeNames_eq (mode : RemoveMode) (calls : EnumResults) (names : List String)
    (rules : FirewallRules) : removeNames mode calls names rules =
      (removedNames calls names).foldl (FirewallRules.remove mode) rules := by
  unfold removeNames removedNames
  rw [List.foldl_filterMap]
  congr 1
  funext rules x
  dsimp only
  split_ifs <;> rfl

theorem rulesNamed_remove (mode : RemoveMode) (rules : FirewallRules) (name : String) :
    rulesNamed name (rules.remove mode name).present =
      mode.rest (rulesNamed name rules.present) := by
  cases mode with
  | first => exact filter_eraseP_own FirewallRule.name name rules.present
  | all =>
    change rulesNamed name (rules.present.filter fun r => decide (r.name ≠ name)) = []
    rw [rulesNamed, List.filter_eq_nil_iff]
    intro r hr hname
    exact of_decide_eq_true (List.mem_filter.mp hr).2 (of_decide_eq_true hname)

theorem rulesNamed_foldl (mode : RemoveMode) (rules : FirewallRules) (names : List String)
    (name : String) :
    rulesNamed name (names.foldl (FirewallRules.remove mode) rules).present =
      mode.rest^[names.count name] (rulesNamed name rules.present) :=
  (FirewallRules.removesByKey mode).filter_foldl_own (rulesNamed_remove mode) rules names name

theorem deleteRulesByRegex_eq_cleanedNames (mode : RemoveMode) (findExpr : Regex B)
    (hr : ComResults) (calls : EnumResults) (enumerated : List FirewallRule)
    (rules : FirewallRules) :
    deleteRulesByRegex B mode hr calls enumerated findExpr.expression rules =
      (cleanedNames findExpr hr calls enumerated).map fun names =>
        (calls.opens hr, names.foldl (FirewallRules.remove mode) rules) := by
  rw [deleteRulesByRegex_eq]
  unfold cleanedNames
  cases calls.opens hr with
  | false => rfl
  | true =>
    rw [if_pos rfl, if_pos rfl]
    cases waitDelete calls findExpr enumerated with
    | error err => rfl
    | ok names =>
      change Except.ok (true, removeNames mode calls names rules) = _
      rw [removeNames_eq]
      rfl

/-- Only names in which the expression is found are removed. -/
theorem regexIsMatch_of_cleaned {names : List String}
    (h : cleanedNames findExpr hr calls enumerated = .ok names) :
    ∀ name ∈ names, regexIsMatch findExpr name = .ok true := by
  unfold cleanedNames at h
  split_ifs at h
  · cases hwait : waitDelete calls findExpr enumerated with
    | error err =>
      rw [hwait] at h
      cases h
    | ok collected =>
      rw [hwait] at h
      cases h
      intro name hname
      obtain ⟨⟨name', n⟩, hmem, heq⟩ := List.mem_filterMap.mp hname
      dsimp only at heq
      split_ifs at heq
      cases heq
      exact regexIsMatch_of_waitDelete hwait name (List.fst_mem_of_mem_zipIdx hmem)
  · cases h
    intro name hname
    cases hname

end Cleaning
variable [AddGroupWithOne T]

/-- As long as no ban draws its name, a rule from before the start is there for the whole life of
the process, or the cleaning took it. -/
theorem leftovers_stay {mode : RemoveMode} {hr : ComResults} {calls : EnumResults}
    {enumerated present : List FirewallRule} {g : ApplicationConfig B} {now : T} {s : System B T}
    (hstart : System.startUp mode hr calls enumerated g now present = .ok s)
    (actions : List (SystemAction T)) :
    ∃ (findExpr : Regex B) (cleaned : List String), findExpr.expression = g.mRulePrefix ∧
      cleanedNames findExpr hr calls enumerated = .ok cleaned ∧
      (∀ name ∈ cleaned, regexIsMatch findExpr name = .ok true) ∧
      ∀ name, (∀ task ∈ (s.run mode actions).io.tasks, task.ruleName ≠ name) →
        rulesNamed name (s.run mode actions).io.rules.present =
          mode.rest^[cleaned.count name] (rulesNamed name present) := by
  unfold System.startUp at hstart
  by_cases haccept : B.regexAccepts g.mRulePrefix = true
  · let findExpr : Regex B := ⟨g.mRulePrefix, haccept⟩
    have hdelete :=
      deleteRulesByRegex_eq_cleanedNames mode findExpr hr calls enumerated ⟨present, []⟩
    change deleteRulesByRegex B mode hr calls enumerated g.mRulePrefix ⟨present, []⟩ = _ at hdelete
    rw [hdelete] at hstart
    cases hcleaned : cleanedNames findExpr hr calls enumerated with
    | error err =>
      rw [hcleaned] at hstart
      cases hstart
    | ok cleaned =>
      refine ⟨findExpr, cleaned, rfl, hcleaned, regexIsMatch_of_cleaned hcleaned,
        fun name hname => ?_⟩
      rw [hcleaned] at hstart
      have hs := Except.ok.inj hstart
      have hnamed := rulesNamed_foldl mode ⟨present, []⟩ cleaned name
      generalize cleaned.foldl (FirewallRules.remove mode) ⟨present, []⟩ = rules at hs hnamed
      subst hs
      have hi := System.invariant_run mode g now rules.present actions
      have hexecuted := executed_run mode g now rules.present actions
      have hrules := ((System.start g now rules.present).rules_run mode actions).1
      rw [← hnamed, hrules]
      refine filter_foldl _ fun x hx r hr heq => ?_
      have htask := hi.task_mem (hexecuted ▸ List.mem_map_of_mem hx)
      exact hname _ htask (heq.symm.trans (of_decide_eq_true hr))
  · rw [deleteRulesByRegex, dif_neg haccept] at hstart
    cases hstart

/-- Of two rules that are left from before, only one can be removed. -/
def secondRemoveFails : EnumResults := { remove := fun n => decide (n ≠ 1) }

theorem leftovers_stay_secondRemoveFails :
    ∃ s, System.startUp .first allSucceed secondRemoveFails leftOver threeInTen 0 leftOver = .ok s ∧
      ∃ (findExpr : Regex Boost.plain) (cleaned : List String),
        findExpr.expression = threeInTen.mRulePrefix ∧
        cleanedNames findExpr allSucceed secondRemoveFails leftOver = .ok cleaned ∧
        (∀ name ∈ cleaned, regexIsMatch findExpr name = .ok true) ∧
        ∀ name, (∀ task ∈ (s.run .first removalFails).io.tasks, task.ruleName ≠ name) →
          rulesNamed name (s.run .first removalFails).io.rules.present =
            (RemoveMode.rest .first)^[cleaned.count name] (rulesNamed name leftOver) :=
  ⟨_, rfl, leftovers_stay rfl removalFails⟩

end RDPBlocker
