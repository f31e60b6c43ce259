import RDPBlocker.Program.Firewall

/-! What `BlockInboundIP` reports of what it did, whichever of its calls fail. -/
namespace RDPBlocker

/-- The calls that fill in the rule object and add it, in the order of the source. -/
def ruleCalls : List ComCall :=
  [.putName, .putDescription, .putDirection, .putProtocol, .putRemoteAddresses, .putAction,
    .putEnabled, .add]

/-- One step on a rule object: it goes on with the updated rule, or it returns early. -/
theorem putProperty_bind (succeeded : Bool) (r : FirewallRule)
    (update : FirewallRule → FirewallRule) (rules : FirewallRules)
    (k : Bool × Option FirewallRule → Except ComFault (Bool × FirewallRules)) :
    (putProperty succeeded (some r) update >>= fun x =>
      if x.1 = false then pure (false, rules) else k x) =
      if succeeded = true then k (true, some (update r)) else .ok (false, rules) := by
  cases succeeded <;> rfl

/-- The last step: the result is the same whether `Add` succeeds or not. -/
theorem addRule_bind (hr : ComResults) (rules : FirewallRules) (r : FirewallRule) :
    (match addRule hr rules (some r) with
      | (ok, rules) => if ok = false then pure (false, rules) else pure (false, rules) :
        Except ComFault (Bool × FirewallRules)) =
      if hr .add = true then .ok (false, rules.add r) else .ok (false, rules) := by
  unfold addRule
  cases hr .add <;> rfl

theorem blockInboundIP_of_unavailable {hr : ComResults}
    (h : hr .createPolicy = false ∨ hr .getRules = false) (name address : String)
    (rules : FirewallRules) : blockInboundIP hr name address rules = .ok (false, rules) := by
  unfold blockInboundIP getFireWallPolicy getFireWallRules
  cases hpolicy : hr .createPolicy with
  | false => rfl
  | true =>
    rcases h with h | h
    · rw [hpolicy] at h
      cases h
    · rw [h]
      rfl

/-- The rule object is used without a look at whether it was created. -/
theorem blockInboundIP_of_no_rule {hr : ComResults} (hpolicy : hr .createPolicy = true)
    (hrules : hr .getRules = true) (hrule : hr .createRule = false) (name address : String)
    (rules : FirewallRules) : blockInboundIP hr name address rules = .error .nullPointer := by
  unfold blockInboundIP getFireWallPolicy getFireWallRules createFireWallRule
  rw [hpolicy, hrules, hrule]
  rfl

/-- One step of the chain: it is enough to look at the rest when its call succeeds. -/
theorem chain_step {hr : ComResults} {c : ComCall} (hc : c ∈ ruleCalls)
    {rules added : FirewallRules} {k : Except ComFault (Bool × FirewallRules)}
    (hk : hr c = true → k = .ok (false, if ∀ c ∈ ruleCalls, hr c = true then added else rules)) :
    (if hr c = true then k else .ok (false, rules)) =
      .ok (false, if ∀ c ∈ ruleCalls, hr c = true then added else rules) := by
  by_cases h : hr c = true
  · rw [if_pos h]
    exact hk h
  · have hall : ¬ ∀ c ∈ ruleCalls, hr c = true := fun hall => h (hall c hc)
    rw [if_neg h, if_neg hall]

/-- With a rule object, the rule is added when every later call succeeds; the result is `false`
either way. -/
theorem blockInboundIP_of_rule {hr : ComResults} (hpolicy : hr .createPolicy = true)
    (hrules : hr .getRules = true) (hrule : hr .createRule = true) (name address : String)
    (rules : FirewallRules) :
    blockInboundIP hr name address rules =
      .ok (false, if ∀ c ∈ ruleCalls, hr c = true then rules.add (blockRule name address)
        else rules) := by
  unfold blockInboundIP getFireWallPolicy getFireWallRules createFireWallRule
  rw [hpolicy, hrules, hrule]
  refine (putProperty_bind _ {} _ rules _).trans (chain_step (by decide) fun hname => ?_)
  refine (putProperty_bind _ _ _ rules _).trans (chain_step (by decide) fun hdescription => ?_)
  refine (putProperty_bind _ _ _ rules _).trans (chain_step (by decide) fun hdirection => ?_)
  refine (putProperty_bind _ _ _ rules _).trans (chain_step (by decide) fun hprotocol => ?_)
  refine (putProperty_bind _ _ _ rules _).trans (chain_step (by decide) fun haddresses => ?_)
  refine (putProperty_bind _ _ _ rules _).trans (chain_step (by decide) fun haction => ?_)
  refine (putProperty_bind _ _ _ rules _).trans (chain_step (by decide) fun henabled => ?_)
  refine (addRule_bind hr rules _).trans (chain_step (by decide) fun hadd => ?_)
  have hall : ∀ c ∈ ruleCalls, hr c = true := by
    intro c hc
    unfold ruleCalls at hc
    simp only [List.mem_cons, List.not_mem_nil, or_false] at hc
    rcases hc with rfl | rfl | rfl | rfl | rfl | rfl | rfl | rfl <;> assumption
  rw [if_pos hall]
  rfl

/-- One enabled rule that blocks the address in every protocol is there in addition. -/
def AddsBlockRule (name address : String) (before after : List FirewallRule) : Prop :=
  ∃ r : FirewallRule, r.name = name ∧ r.remoteAddresses = address ∧ r.enabled = true ∧
    r.direction = .inbound ∧ r.protocol = protocolAny ∧ r.action = .block ∧
    after.Perm (r :: before)

theorem not_addsBlockRule_self (name address : String) (rules : List FirewallRule) :
    ¬ AddsBlockRule name address rules rules := by
  intro h
  obtain ⟨r, _, _, _, _, _, _, hperm⟩ := h
  have hlength := hperm.length_eq
  rw [List.length_cons] at hlength
  omega

/-- No call goes through a null pointer, and the result says whether the rule was added. -/
structure ReportsTruth (hr : ComResults) (name address : String) (rules : FirewallRules)
    (ok : Bool) (after : FirewallRules) : Prop where
  returns : blockInboundIP hr name address rules = .ok (ok, after)
  added_iff : ok = true ↔ AddsBlockRule name address rules.present after.present
  unchanged_iff : ok = false ↔ after.present = rules.present

/-- The rule is not added, and the rule object is not used without being there. -/
def Refused (hr : ComResults) : Prop :=
  hr .createPolicy = false ∨ hr .getRules = false ∨
    hr .createRule = true ∧ ∃ c ∈ ruleCalls, hr c = false

/-- A refusal is reported as one, and leaves the rules as they were. -/
theorem blockInboundIP_of_refused {hr : ComResults} (h : Refused hr) (name address : String)
    (rules : FirewallRules) : blockInboundIP hr name address rules = .ok (false, rules) := by
  cases hpolicy : hr .createPolicy with
  | false => exact blockInboundIP_of_unavailable (Or.inl hpolicy) name address rules
  | true =>
    cases hrules : hr .getRules with
    | false => exact blockInboundIP_of_unavailable (Or.inr hrules) name address rules
    | true =>
      have hlast : hr .createRule = true ∧ ∃ c ∈ ruleCalls, hr c = false := by
        rcases h with h | h | h
        · exact absurd h (by rw [hpolicy]; decide)
        · exact absurd h (by rw [hrules]; decide)
        · exact h
      obtain ⟨hrule, c, hc, hfalse⟩ := hlast
      have hall : ¬ ∀ c ∈ ruleCalls, hr c = true := by
        intro hall
        rw [hall c hc] at hfalse
        cases hfalse
      rw [blockInboundIP_of_rule hpolicy hrules hrule, if_neg hall]

theorem present_add_ne (rules : FirewallRules) (r : FirewallRule) :
    (rules.add r).present ≠ rules.present := by
  intro hsame
  have hlength := congrArg List.length hsame
  change (rules.present ++ [r]).length = _ at hlength
  rw [List.length_append, List.length_singleton] at hlength
  omega

/-- Without a refusal the call has no result, or it reports `false` of a rule that was added. -/
theorem ReportsTruth.refused {hr : ComResults} {name address : String} {rules : FirewallRules}
    {ok : Bool} {after : FirewallRules} (h : ReportsTruth hr name address rules ok after) :
    Refused hr := by
  have hreturns := h.returns
  unfold Refused
  cases hpolicy : hr .createPolicy with
  | false => exact Or.inl rfl
  | true =>
    cases hrules : hr .getRules with
    | false => exact Or.inr (Or.inl rfl)
    | true =>
      cases hrule : hr .createRule with
      | false =>
        rw [blockInboundIP_of_no_rule hpolicy hrules hrule] at hreturns
        cases hreturns
      | true =>
        refine Or.inr (Or.inr ⟨rfl, ?_⟩)
        by_contra hnone
        have hall : ∀ c ∈ ruleCalls, hr c = true := by
          intro c hc
          rw [← Bool.not_eq_false]
          exact fun hfalse => hnone ⟨c, hc, hfalse⟩
        rw [blockInboundIP_of_rule hpolicy hrules hrule, if_pos hall] at hreturns
        obtain ⟨rfl, rfl⟩ := Prod.mk.inj (Except.ok.inj hreturns)
        exact present_add_ne rules _ (h.unchanged_iff.mp rfl)

/-- `BlockInboundIP` reports the truth exactly when it is refused by a call other than the
creation of the rule object. -/
theorem reports_truth_iff_refused (hr : ComResults) (name address : String)
    (rules : FirewallRules) :
    (∃ ok after, ReportsTruth hr name address rules ok after) ↔ Refused hr := by
  constructor
  · intro h
    obtain ⟨ok, after, htruth⟩ := h
    exact htruth.refused
  · intro h
    refine ⟨false, rules, blockInboundIP_of_refused h name address rules, ?_, iff_of_true rfl rfl⟩
    exact iff_of_false Bool.false_ne_true (not_addsBlockRule_self name address rules.present)

/-- Every call succeeds and the rule is added, but the result is `false`; without the rule object
a call goes through a null pointer. -/
theorem added_but_reported_false :
    blockInboundIP allSucceed "AUTO_BLOCKED_AAAAAAAA" "1.2.3.4" ⟨[], []⟩ =
        .ok (false, FirewallRules.add ⟨[], []⟩ (blockRule "AUTO_BLOCKED_AAAAAAAA" "1.2.3.4")) ∧
      blockInboundIP (fun c => decide (c ≠ .createRule)) "AUTO_BLOCKED_AAAAAAAA" "1.2.3.4"
        ⟨[], []⟩ = .error .nullPointer ∧
      ¬ ∃ ok after, ReportsTruth allSucceed "AUTO_BLOCKED_AAAAAAAA" "1.2.3.4" ⟨[], []⟩ ok
        after := by
  refine ⟨rfl, rfl, ?_⟩
  intro h
  obtain ⟨ok, after, hreturns, _, hunchanged_iff⟩ := h
  obtain ⟨rfl, rfl⟩ := Prod.mk.inj (Except.ok.inj hreturns)
  exact absurd (hunchanged_iff.mp rfl) (by decide)

end RDPBlocker
