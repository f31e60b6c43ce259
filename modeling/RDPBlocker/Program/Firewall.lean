import Mathlib.Data.List.Basic
import Mathlib.Tactic.Common

/-! The firewall controller. Every COM call may succeed or fail; a call through a null
interface pointer ends the process. -/
namespace RDPBlocker

inductive RuleDirection
  | inbound
  | outbound
deriving DecidableEq, Repr

inductive RuleAction
  | block
  | allow
deriving DecidableEq, Repr

/-- `NET_FW_IP_PROTOCOL_ANY`. -/
def protocolAny : ℕ := 256

/-- The properties of an `INetFwRule` that the program writes. -/
structure FirewallRule where
  name : String := ""
  description : String := ""
  direction : RuleDirection := .inbound
  protocol : ℕ := protocolAny
  remoteAddresses : String := "*"
  action : RuleAction := .allow
  enabled : Bool := false
deriving DecidableEq, Repr

/-- `INetFwRules`, the rules of the machine. -/
structure FirewallRules where
  present : List FirewallRule
  /-- History: the rules that were ever added. -/
  added : List FirewallRule
deriving DecidableEq, Repr

/-- Which of several rules with the given name `INetFwRules::Remove` removes. -/
inductive RemoveMode
  | first
  | all
deriving DecidableEq, Repr

namespace FirewallRules

def add (rules : FirewallRules) (rule : FirewallRule) : FirewallRules :=
  ⟨rules.present ++ [rule], rules.added ++ [rule]⟩

def remove (mode : RemoveMode) (rules : FirewallRules) (name : String) : FirewallRules :=
  match mode with
  | .first => { rules with present := rules.present.eraseP (·.name = name) }
  | .all => { rules with present := rules.present.filter (·.name ≠ name) }

end FirewallRules

/-- The calls whose `HRESULT` may be a failure. -/
inductive ComCall
  | createPolicy
  | getRules
  | createRule
  | putName
  | putDescription
  | putDirection
  | putProtocol
  | putRemoteAddresses
  | putAction
  | putEnabled
  | add
  | remove
deriving DecidableEq, Repr

/-- `SUCCEEDED(hr)` of each call. -/
abbrev ComResults := ComCall → Bool

def allSucceed : ComResults := fun _ => true

inductive ComFault
  | nullPointer
deriving DecidableEq, Repr

/-- `GetFireWallPolicy` returns a non-null pointer. -/
def getFireWallPolicy (hr : ComResults) : Bool := hr .createPolicy

/-- `GetFireWallRules` returns a non-null pointer. -/
def getFireWallRules (hr : ComResults) : Bool := hr .getRules

def createFireWallRule (hr : ComResults) : Option FirewallRule :=
  if hr .createRule then some {} else none

/-- The pattern of the `SetFireWallRule...` functions: one `put_...` call through the rule
pointer, and whether it succeeded. -/
def putProperty (succeeded : Bool) (rule : Option FirewallRule)
    (update : FirewallRule → FirewallRule) : Except ComFault (Bool × Option FirewallRule) :=
  match rule with
  | none => .error .nullPointer
  | some r => .ok (if succeeded then (true, some (update r)) else (false, some r))

def setFireWallRuleName (hr : ComResults) (rule : Option FirewallRule) (name : String) :=
  putProperty (hr .putName) rule fun r => { r with name := name }

def setFireWallRuleDescription (hr : ComResults) (rule : Option FirewallRule)
    (description : String) :=
  putProperty (hr .putDescription) rule fun r => { r with description := description }

def setFireWallRuleDirection (hr : ComResults) (rule : Option FirewallRule)
    (flag : RuleDirection) :=
  putProperty (hr .putDirection) rule fun r => { r with direction := flag }

def setFireWallRuleProtocol (hr : ComResults) (rule : Option FirewallRule) (flag : ℕ) :=
  putProperty (hr .putProtocol) rule fun r => { r with protocol := flag }

def setFireWallRuleRemoteAddresses (hr : ComResults) (rule : Option FirewallRule)
    (address : String) :=
  putProperty (hr .putRemoteAddresses) rule fun r => { r with remoteAddresses := address }

def setFireWallRuleAction (hr : ComResults) (rule : Option FirewallRule) (flag : RuleAction) :=
  putProperty (hr .putAction) rule fun r => { r with action := flag }

def setFireWallRuleEnabled (hr : ComResults) (rule : Option FirewallRule) (enable : Bool) :=
  putProperty (hr .putEnabled) rule fun r => { r with enabled := enable }

/-- `INetFwRules::Add`, which refuses a null rule. -/
def addRule (hr : ComResults) (rules : FirewallRules) (rule : Option FirewallRule) :
    Bool × FirewallRules :=
  match rule with
  | none => (false, rules)
  | some r => if hr .add then (true, rules.add r) else (false, rules)

def blockInboundIP (hr : ComResults) (name address : String) (rules : FirewallRules) :
    Except ComFault (Bool × FirewallRules) := do
  if getFireWallPolicy hr = false then return (false, rules)
  if getFireWallRules hr = false then return (false, rules)
  let rule := createFireWallRule hr
  let (ok, rule) ← setFireWallRuleName hr rule name
  if ok = false then return (false, rules)
  let (ok, rule) ← setFireWallRuleDescription hr rule "BlockInboundIP"
  if ok = false then return (false, rules)
  let (ok, rule) ← setFireWallRuleDirection hr rule .inbound
  if ok = false then return (false, rules)
  let (ok, rule) ← setFireWallRuleProtocol hr rule protocolAny
  if ok = false then return (false, rules)
  let (ok, rule) ← setFireWallRuleRemoteAddresses hr rule address
  if ok = false then return (false, rules)
  let (ok, rule) ← setFireWallRuleAction hr rule .block
  if ok = false then return (false, rules)
  let (ok, rule) ← setFireWallRuleEnabled hr rule true
  if ok = false then return (false, rules)
  let (ok, rules) := addRule hr rules rule
  if ok = false then return (false, rules)
  -- The source ends with `return false` here as well.
  return (false, rules)

/-- The result of `Remove` is not looked at. -/
def deleteRuleByName (mode : RemoveMode) (hr : ComResults) (ruleName : String)
    (rules : FirewallRules) : Bool × FirewallRules :=
  if getFireWallPolicy hr = false then (false, rules)
  else if getFireWallRules hr = false then (false, rules)
  else (true, if hr .remove then rules.remove mode ruleName else rules)

/-- The rule that blocks one address. -/
def blockRule (name address : String) : FirewallRule where
  name := name
  description := "BlockInboundIP"
  direction := .inbound
  protocol := protocolAny
  remoteAddresses := address
  action := .block
  enabled := true

theorem blockInboundIP_allSucceed (name address : String) (rules : FirewallRules) :
    blockInboundIP allSucceed name address rules =
      .ok (false, rules.add (blockRule name address)) := rfl

private theorem earlyReturn_cases {c : Prop} [Decidable c] {rules : FirewallRules}
    {result : Bool × FirewallRules} {k : Except ComFault (Bool × FirewallRules)}
    (h : (if c then pure (false, rules) else k) = .ok result) :
    result = (false, rules) ∨ k = .ok result := by
  by_cases hc : c
  · rw [if_pos hc] at h
    exact Or.inl (Except.ok.inj h).symm
  · rw [if_neg hc] at h
    exact Or.inr h

/-- One `put_...` step of `blockInboundIP` fails and leaves the rules alone, or goes on. -/
private theorem putProperty_cases {succeeded : Bool} {r : FirewallRule}
    {update : FirewallRule → FirewallRule} {rules : FirewallRules}
    {result : Bool × FirewallRules}
    {k : Bool × Option FirewallRule → Except ComFault (Bool × FirewallRules)}
    (h : (putProperty succeeded (some r) update >>= fun x =>
      if x.1 = false then pure (false, rules) else k x) = .ok result) :
    result = (false, rules) ∨ k (true, some (update r)) = .ok result := by
  cases succeeded with
  | false => exact Or.inl (Except.ok.inj h).symm
  | true => exact Or.inr h

/-- Whatever fails, at most one rule is added, and it is the one asked for. -/
theorem blockInboundIP_cases {hr : ComResults} {name address : String} {rules : FirewallRules}
    {result : Bool × FirewallRules} (h : blockInboundIP hr name address rules = .ok result) :
    result.2 = rules ∨ result.2 = rules.add (blockRule name address) := by
  rcases earlyReturn_cases h with rfl | h
  · exact Or.inl rfl
  rcases earlyReturn_cases h with rfl | h
  · exact Or.inl rfl
  unfold createFireWallRule at h
  cases hrule : hr .createRule with
  | false =>
    rw [hrule] at h
    cases h
  | true =>
    rw [hrule] at h
    -- The steps run in the order of the source, each on the rule the ones before it built.
    rcases putProperty_cases h with rfl | h
    · exact Or.inl rfl
    rcases putProperty_cases h with rfl | h
    · exact Or.inl rfl
    rcases putProperty_cases h with rfl | h
    · exact Or.inl rfl
    rcases putProperty_cases h with rfl | h
    · exact Or.inl rfl
    rcases putProperty_cases h with rfl | h
    · exact Or.inl rfl
    rcases putProperty_cases h with rfl | h
    · exact Or.inl rfl
    rcases putProperty_cases h with rfl | h
    · exact Or.inl rfl
    cases hadd : hr .add with
    | false =>
      simp only [addRule, hadd, Bool.false_eq_true, if_false, if_true] at h
      exact Or.inl (by rw [← Except.ok.inj h])
    | true =>
      simp only [addRule, hadd, if_true, Bool.true_eq_false, if_false] at h
      exact Or.inr (by rw [← Except.ok.inj h]; rfl)

end RDPBlocker
