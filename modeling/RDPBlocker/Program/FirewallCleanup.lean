import RDPBlocker.Foundation.Removal
import RDPBlocker.Program.Firewall
import RDPBlocker.Program.System

/-! The cleaning of the rules at the start of the program: the names of the rules that an
expression is found in are collected first, then one `Remove` is called for each. -/
namespace RDPBlocker
open Foundation
variable {B : Boost} {T : Type*}

/-- `SUCCEEDED(hr)` of the calls of `DeleteRulesByRegex` on the collection and its enumerator,
on the `n`-th rule that `Next` yields, and of the `n`-th `Remove`. -/
structure EnumResults where
  getCount : Bool := true
  newEnum : Bool := true
  queryVariant : Bool := true
  changeType : ℕ → Bool := fun _ => true
  queryRule : ℕ → Bool := fun _ => true
  /-- The name is not null either. -/
  getName : ℕ → Bool := fun _ => true
  remove : ℕ → Bool := fun _ => true

/-- The name of the `n`-th rule is read. -/
def EnumResults.reads (calls : EnumResults) (n : ℕ) : Bool :=
  calls.changeType n && calls.queryRule n && calls.getName n

/-- The body of the first loop, for the `rule.2`-th rule. -/
def collectName (calls : EnumResults) (findExpr : Regex B) (names : List String)
    (rule : FirewallRule × ℕ) : Except MatchException (List String) :=
  if calls.reads rule.2 = true then
    match regexIsMatch findExpr rule.1.name with
    | .error err => .error err
    | .ok true => .ok (names ++ [rule.1.name])
    | .ok false => .ok names
  else .ok names

/-- The first pass. -/
def waitDelete (calls : EnumResults) (findExpr : Regex B) (enumerated : List FirewallRule) :
    Except MatchException (List String) :=
  enumerated.zipIdx.foldlM (collectName calls findExpr) []

/-- The second pass; no result of `Remove` is looked at. -/
def removeNames (mode : RemoveMode) (calls : EnumResults) (names : List String)
    (rules : FirewallRules) : FirewallRules :=
  names.zipIdx.foldl
    (fun rules (name, n) => if calls.remove n = true then rules.remove mode name else rules) rules

/-- `DeleteRulesByRegex`; `enumerated` is what the enumerator of the collection yields. -/
def deleteRulesByRegex (B : Boost) (mode : RemoveMode) (hr : ComResults) (calls : EnumResults)
    (enumerated : List FirewallRule) (expr : String) (rules : FirewallRules) :
    Except MatchException (Bool × FirewallRules) :=
  if haccept : B.regexAccepts expr = true then
    let findExpr : Regex B := ⟨expr, haccept⟩
    if getFireWallPolicy hr = false then .ok (false, rules)
    else if getFireWallRules hr = false then .ok (false, rules)
    else if calls.getCount = false then .ok (false, rules)
    else if calls.newEnum = false then .ok (false, rules)
    else if calls.queryVariant = false then .ok (false, rules)
    else
      match waitDelete calls findExpr enumerated with
      | .error err => .error err
      | .ok names => .ok (true, removeNames mode calls names rules)
  else .error (.invalid ⟨expr⟩)

/-- The end of `main`: it cleans the rules, whatever comes of it, and starts the threads. -/
def System.startUp (mode : RemoveMode) (hr : ComResults) (calls : EnumResults)
    (enumerated : List FirewallRule) (g : ApplicationConfig B) (now : T)
    (present : List FirewallRule) : Except MatchException (System B T) :=
  match deleteRulesByRegex B mode hr calls enumerated g.mRulePrefix ⟨present, []⟩ with
  | .error err => .error err
  | .ok (_, rules) => .ok (System.start g now rules.present)

/-- However many rules of one name `Remove` takes, it is a removal by name. -/
theorem FirewallRules.removesByKey (mode : RemoveMode) :
    RemovesByKey FirewallRule.name FirewallRules.present (FirewallRules.remove mode) := by
  cases mode with
  | first =>
    constructor
    · exact fun rules name => filter_eraseP_key FirewallRule.name name rules.present
    · exact fun rules name => (countP_eraseP_key FirewallRule.name name rules.present).le
  | all =>
    constructor
    · exact fun rules name => filter_filter_key FirewallRule.name name rules.present
    · intro rules name
      exact (countP_filter_key FirewallRule.name name rules.present).le.trans (Nat.zero_le _)

/-- Only names in which the expression is found are collected. -/
theorem regexIsMatch_of_waitDelete {calls : EnumResults} {findExpr : Regex B}
    {enumerated : List FirewallRule} {names : List String}
    (h : waitDelete calls findExpr enumerated = .ok names) :
    ∀ name ∈ names, regexIsMatch findExpr name = .ok true := by
  refine foldlM_invariant (P := fun names => ∀ name ∈ names, regexIsMatch findExpr name = .ok true)
    (fun names rule names' hnames hbody => ?_) (by simp) h
  unfold collectName at hbody
  split_ifs at hbody
  · cases hfound : regexIsMatch findExpr rule.1.name with
    | error err =>
      rw [hfound] at hbody
      cases hbody
    | ok found =>
      rw [hfound] at hbody
      cases found with
      | true =>
        cases hbody
        rw [List.forall_mem_append, List.forall_mem_singleton]
        exact ⟨hnames, hfound⟩
      | false =>
        cases hbody
        exact hnames
  · cases hbody
    exact hnames

/-- The first pass returns when every search that it makes does. -/
theorem waitDelete_returns_iff {calls : EnumResults} {findExpr : Regex B}
    {enumerated : List FirewallRule} :
    (∃ names, waitDelete calls findExpr enumerated = .ok names) ↔
      ∀ rule ∈ enumerated.zipIdx, calls.reads rule.2 = true →
        ∃ found, B.regexSearch findExpr.expression rule.1.name = some found := by
  refine foldlM_returns_iff (fun names rule => ?_) _ _
  unfold collectName
  by_cases hreads : calls.reads rule.2 = true
  · rw [if_pos hreads]
    simp only [← regexIsMatch_eq_ok, hreads, true_implies]
    rcases regexIsMatch findExpr rule.1.name with err | _ | _ <;> simp
  · simp [hreads]

theorem waitDelete_allSucceed {findExpr : Regex B} {found : String → Bool}
    (hfound : ∀ s, B.regexSearch findExpr.expression s = some (found s))
    (enumerated : List FirewallRule) : waitDelete {} findExpr enumerated =
      .ok ((enumerated.filter fun r => found r.name).map FirewallRule.name) := by
  have hbody : ∀ names, ∀ rule ∈ enumerated.zipIdx, collectName {} findExpr names rule =
      .ok (names ++ ([rule.1].filter fun r => found r.name).map FirewallRule.name) := by
    intro names rule _
    unfold collectName
    have hreads : ({} : EnumResults).reads rule.2 = true := rfl
    rw [if_pos hreads, regexIsMatch_eq_ok.mpr (hfound rule.1.name)]
    cases hname : found rule.1.name <;> simp [hname]
  have hfst : enumerated = enumerated.zipIdx.map Prod.fst := (List.zipIdx_map_fst 0 _).symm
  refine (foldlM_eq_ok hbody []).trans (congrArg Except.ok ?_)
  conv_rhs => rw [hfst]
  generalize enumerated.zipIdx = rules
  induction rules using List.reverseRecOn with
  | nil => rfl
  | append_singleton rules rule ih =>
    rw [List.foldl_append, ih, List.map_append, List.filter_append, List.map_append]
    rfl

theorem removeNames_allSucceed (mode : RemoveMode) (names : List String) (rules : FirewallRules) :
    removeNames mode {} names rules = names.foldl (FirewallRules.remove mode) rules := by
  have hfst : names = names.zipIdx.map Prod.fst := (List.zipIdx_map_fst 0 _).symm
  conv_rhs => rw [hfst, List.foldl_map]
  rfl

/-- The cleaning gets as far as the rules. -/
def EnumResults.opens (hr : ComResults) (calls : EnumResults) : Bool :=
  getFireWallPolicy hr && getFireWallRules hr && calls.getCount && calls.newEnum &&
    calls.queryVariant

/-- The five checks before the enumeration. -/
theorem EnumResults.ite_opens {α : Type*} (hr : ComResults) (calls : EnumResults) (x y : α) :
    (if getFireWallPolicy hr = false then y
      else if getFireWallRules hr = false then y
      else if calls.getCount = false then y
      else if calls.newEnum = false then y
      else if calls.queryVariant = false then y
      else x) = if calls.opens hr = true then x else y := by
  unfold EnumResults.opens
  cases getFireWallPolicy hr with
  | false => rfl
  | true =>
    cases getFireWallRules hr with
    | false => rfl
    | true =>
      cases calls.getCount with
      | false => rfl
      | true =>
        cases calls.newEnum with
        | false => rfl
        | true => cases calls.queryVariant <;> rfl

theorem deleteRulesByRegex_eq (mode : RemoveMode) (findExpr : Regex B) (hr : ComResults)
    (calls : EnumResults) (enumerated : List FirewallRule) (rules : FirewallRules) :
    deleteRulesByRegex B mode hr calls enumerated findExpr.expression rules =
      if calls.opens hr = true then (waitDelete calls findExpr enumerated).map fun names =>
        (true, removeNames mode calls names rules)
      else .ok (false, rules) := by
  refine (dif_pos findExpr.accepted).trans ((calls.ite_opens hr _ _).trans ?_)
  cases waitDelete calls findExpr enumerated <;> rfl

/-- The cleaning returns when the expression can be built and each search that it makes returns. -/
theorem deleteRulesByRegex_returns_iff {mode : RemoveMode} {hr : ComResults} {calls : EnumResults}
    {enumerated : List FirewallRule} {expr : String} {rules : FirewallRules} :
    (∃ ok rules', deleteRulesByRegex B mode hr calls enumerated expr rules = .ok (ok, rules')) ↔
      B.regexAccepts expr = true ∧ (calls.opens hr = true → ∀ rule ∈ enumerated.zipIdx,
        calls.reads rule.2 = true → ∃ found, B.regexSearch expr rule.1.name = some found) := by
  by_cases haccept : B.regexAccepts expr = true
  · have heq := deleteRulesByRegex_eq mode ⟨expr, haccept⟩ hr calls enumerated rules
    dsimp only at heq
    rw [heq, and_iff_right haccept]
    by_cases hopens : calls.opens hr = true
    · rw [if_pos hopens]
      simp only [hopens, true_implies]
      have hwait : (∃ names, waitDelete calls ⟨expr, haccept⟩ enumerated = .ok names) ↔ _ :=
        waitDelete_returns_iff
      refine Iff.trans ?_ hwait
      cases waitDelete calls ⟨expr, haccept⟩ enumerated <;> simp [Except.map]
    · rw [if_neg hopens]
      exact iff_of_true ⟨_, _, rfl⟩ fun h => absurd h hopens
  · refine iff_of_false ?_ fun h => haccept h.1
    rintro ⟨ok, rules', h⟩
    unfold deleteRulesByRegex at h
    rw [dif_neg haccept] at h
    cases h

/-- When every call succeeds and the enumerator yields each rule once, the rules that remain are
those in whose name the expression is not found. -/
theorem deleteRulesByRegex_allSucceed (mode : RemoveMode) {expr : String} {found : String → Bool}
    (haccept : B.regexAccepts expr = true)
    (hfound : ∀ s, B.regexSearch expr s = some (found s)) (rules : FirewallRules)
    {enumerated : List FirewallRule} (henum : enumerated.Perm rules.present) :
    ∃ rules', deleteRulesByRegex B mode allSucceed {} enumerated expr rules = .ok (true, rules') ∧
      rules'.present = rules.present.filter fun r => !found r.name := by
  let names := (enumerated.filter fun r => found r.name).map FirewallRule.name
  have hwait : waitDelete {} (⟨expr, haccept⟩ : Regex B) enumerated = .ok names :=
    waitDelete_allSucceed hfound enumerated
  refine ⟨names.foldl (FirewallRules.remove mode) rules, ?_, ?_⟩
  · refine (deleteRulesByRegex_eq mode ⟨expr, haccept⟩ allSucceed {} enumerated rules).trans ?_
    rw [hwait, ← removeNames_allSucceed]
    rfl
  have hmem : ∀ name, name ∈ names ↔ (∃ r ∈ rules.present, r.name = name) ∧
      found name = true := by
    intro name
    rw [List.mem_map]
    constructor
    · intro h
      obtain ⟨r, hr, rfl⟩ := h
      obtain ⟨hr, hname⟩ := List.mem_filter.mp hr
      exact ⟨⟨r, henum.mem_iff.mp hr, rfl⟩, hname⟩
    · intro h
      obtain ⟨⟨r, hr, rfl⟩, hname⟩ := h
      exact ⟨r, List.mem_filter.mpr ⟨henum.mem_iff.mpr hr, hname⟩, rfl⟩
  have hcount : ∀ name ∈ names, rules.present.countP (fun r => decide (r.name = name)) ≤
      names.count name := by
    intro name hname
    have hname := ((hmem name).mp hname).2
    rw [List.count, List.countP_map, List.countP_filter, ← henum.countP_eq]
    apply List.countP_mono_left
    intro r _ hr
    have hr := of_decide_eq_true hr
    simp [hr, hname]
  refine ((FirewallRules.removesByKey mode).items_foldl rules names hcount).trans ?_
  apply List.filter_congr
  intro r hr
  have hname : r.name ∈ names ↔ found r.name = true :=
    (hmem r.name).trans (and_iff_right ⟨r, hr, rfl⟩)
  change decide (r.name ∉ names) = !found r.name
  cases hsearch : found r.name with
  | true => exact decide_eq_false (not_not_intro (hname.mpr hsearch))
  | false => exact decide_eq_true fun h => Bool.false_ne_true (hsearch.symm.trans (hname.mp h))

end RDPBlocker
