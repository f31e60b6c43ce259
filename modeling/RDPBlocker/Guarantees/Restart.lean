import RDPBlocker.Program.FirewallCleanup
import RDPBlocker.Refinement.LiveTasks

/-! What the cleaning at the start of the program removes: every rule that an earlier instance
left behind, and the rules of others that mention the prefix of its names. -/
namespace RDPBlocker
open Foundation
variable {B : Boost}

section Names
variable {T : Type*} [LinearOrder T] [AddGroupWithOne T] {rulePrefix : String}

/-- Every name that the program draws begins with its prefix. -/
def IoState.Named (rulePrefix : String) (s : IoState T) : Prop :=
  ∀ task ∈ s.tasks, rulePrefix.toList <+: task.ruleName.toList

theorem IoState.Named.act {s : IoState T} (hs : s.Named rulePrefix) (mode : RemoveMode)
    (a : TaskAction T) : (s.act rulePrefix mode a).Named rulePrefix := by
  cases a with
  | create letters remoteAddress blockTime =>
    unfold IoState.act
    dsimp only
    split_ifs with halive
    · by_cases hpos : 0 < blockTime
      · intro task ht
        rw [tasks_createBlockRemoteAddressTasks s hpos] at ht
        rcases List.mem_append.mp ht with ht | ht
        · exact hs task ht
        · rw [List.mem_singleton.mp ht, newTask, String.toList_append]
          exact List.prefix_append _ _
      · rw [createBlockRemoteAddressTasks_of_not_pos s hpos]
        exact hs
    · exact hs
  | io step =>
    intro task ht
    have htasks : (s.act rulePrefix mode (.io step)).tasks = s.tasks := s.tasks_step mode step
    rw [htasks] at ht
    exact hs task ht

theorem IoState.Named.run {s : IoState T} (hs : s.Named rulePrefix) (mode : RemoveMode)
    (actions : List (TaskAction T)) : (s.run rulePrefix mode actions).Named rulePrefix := by
  induction actions generalizing s with
  | nil => exact hs
  | cons a actions ih => exact ih (hs.act mode a)

omit [LinearOrder T] [AddGroupWithOne T] in
theorem IoState.Named.start (now : T) (present : List FirewallRule) :
    (IoState.start now present).Named rulePrefix := by
  intro task ht
  cases ht

/-- So does the name of every rule that was ever added. -/
theorem IoState.Invariant.prefix_of_added {s : IoState T} (hs : s.Invariant)
    (hnamed : s.Named rulePrefix) {r : FirewallRule} (hr : r ∈ s.rules.added) :
    rulePrefix.toList <+: r.name.toList := by
  obtain ⟨tasks, hadded, hsub⟩ := hs.added
  rw [hadded] at hr
  obtain ⟨task, ht, rfl⟩ := List.mem_map.mp hr
  have hblock : Handler.block task ∈ s.executed := mem_blockedTasks.mp (hsub.subset ht)
  have hhandlers : Handler.block task ∈ s.loop.handlers :=
    List.mem_append_left _ (List.mem_append_left _ hblock)
  exact hnamed task (hs.mem_tasks (Or.inl hhandlers))

/-- Whatever the earlier instance did and wherever it was killed, the next one starts its threads
without any of its rules. -/
theorem no_rule_outlives_restart (hB : B.SearchesLiterals) {g : ApplicationConfig B}
    (hfree : MetacharacterFree g.mRulePrefix) (mode : RemoveMode) (killed restarted : T)
    (present : List FirewallRule) (actions : List (TaskAction T)) {enumerated : List FirewallRule}
    (henum : enumerated.Perm
      ((IoState.start killed present).run g.mRulePrefix mode actions).rules.present) :
    ∃ s : System B T, System.startUp mode allSucceed {} enumerated g restarted
        ((IoState.start killed present).run g.mRulePrefix mode actions).rules.present = .ok s ∧
      ∀ r ∈ ((IoState.start killed present).run g.mRulePrefix mode actions).rules.added,
        r ∉ s.io.rules.present := by
  let before := (IoState.start killed present).run g.mRulePrefix mode actions
  have hi : before.Invariant := (IoState.Invariant.start killed present).run _ mode actions
  have hnamed : before.Named g.mRulePrefix := (IoState.Named.start killed present).run mode actions
  obtain ⟨haccept, hsearch⟩ := hB _ hfree
  obtain ⟨rules, hdelete, hrest⟩ := deleteRulesByRegex_allSucceed mode haccept hsearch
    ⟨before.rules.present, []⟩ henum
  refine ⟨System.start g restarted rules.present, ?_, fun r hr hmem => ?_⟩
  · unfold System.startUp
    rw [hdelete]
  · have hpresent : r ∈ rules.present := hmem
    rw [hrest, List.mem_filter] at hpresent
    have hfound : decide (g.mRulePrefix.toList <:+: r.name.toList) = true :=
      decide_eq_true (hi.prefix_of_added hnamed hr).isInfix
    rw [hfound] at hpresent
    exact Bool.false_ne_true hpresent.2

end Names

/-- One ban, and the process is killed before its timer fires; two rules of one name are left from
before. -/
def killedWithBan : List (TaskAction ℤ) :=
  [.create (fun _ => Fin.last _) "1.2.3.4" 60, .io (.run allSucceed), .io (.advance 30)]

def leftOver : List FirewallRule :=
  [blockRule "AUTO_BLOCKED_OLD" "1.2.3.5", { name := "Core" },
    blockRule "AUTO_BLOCKED_OLD" "1.2.3.6"]

theorem no_rule_outlives_restart_killedWithBan :
    ∃ s : System Boost.plain ℤ, System.startUp .first allSucceed {}
        ((IoState.start 0 leftOver).run "AUTO_BLOCKED_" .first killedWithBan).rules.present {} 31
        ((IoState.start 0 leftOver).run "AUTO_BLOCKED_" .first killedWithBan).rules.present =
          .ok s ∧
      ∀ r ∈ ((IoState.start 0 leftOver).run "AUTO_BLOCKED_" .first killedWithBan).rules.added,
        r ∉ s.io.rules.present :=
  no_rule_outlives_restart Boost.plain_searchesLiterals (g := ({} : ApplicationConfig Boost.plain))
    (by decide) .first 0 31 leftOver killedWithBan (List.Perm.refl _)

/-- The name is not one that the program draws. -/
def ForeignName (rulePrefix : String) (r : FirewallRule) : Prop :=
  ¬ rulePrefix.toList <+: r.name.toList

instance (rulePrefix : String) (r : FirewallRule) : Decidable (ForeignName rulePrefix r) :=
  inferInstanceAs (Decidable (¬ _))

/-- The rules with foreign names are present and unchanged. -/
def SparesForeign (rulePrefix : String) (before after : List FirewallRule) : Prop :=
  (after.filter fun r => decide (ForeignName rulePrefix r)) =
    before.filter fun r => decide (ForeignName rulePrefix r)

instance (rulePrefix : String) (before after : List FirewallRule) :
    Decidable (SparesForeign rulePrefix before after) := inferInstanceAs (Decidable (_ = _))

/-- The cleaning spares the rules of others exactly when none of them has the prefix inside its
name. -/
theorem cleanup_spares_foreign_iff (hB : B.SearchesLiterals) {g : ApplicationConfig B}
    (hfree : MetacharacterFree g.mRulePrefix) (mode : RemoveMode) (rules : FirewallRules)
    {enumerated : List FirewallRule} (henum : enumerated.Perm rules.present) :
    (∃ rules', deleteRulesByRegex B mode allSucceed {} enumerated g.mRulePrefix rules =
        .ok (true, rules') ∧ SparesForeign g.mRulePrefix rules.present rules'.present) ↔
      ∀ r ∈ rules.present, ForeignName g.mRulePrefix r →
        ¬ g.mRulePrefix.toList <:+: r.name.toList := by
  obtain ⟨haccept, hsearch⟩ := hB _ hfree
  obtain ⟨cleaned, hdelete, hrest⟩ :=
    deleteRulesByRegex_allSucceed mode haccept hsearch rules henum
  constructor
  · intro h r hr hforeign hinside
    obtain ⟨rules', hdelete', hspares⟩ := h
    have hcleaned : cleaned = rules' :=
      (Prod.mk.inj (Except.ok.inj (hdelete.symm.trans hdelete'))).2
    have hkept : r ∈ rules'.present.filter fun r => decide (ForeignName g.mRulePrefix r) := by
      rw [hspares, List.mem_filter]
      exact ⟨hr, decide_eq_true hforeign⟩
    have hmem := (List.mem_filter.mp hkept).1
    rw [← hcleaned, hrest, List.mem_filter, decide_eq_true hinside] at hmem
    exact Bool.false_ne_true hmem.2
  · intro h
    refine ⟨cleaned, hdelete, ?_⟩
    unfold SparesForeign
    rw [hrest, List.filter_filter]
    apply List.filter_congr
    intro r hr
    by_cases hforeign : ForeignName g.mRulePrefix r
    · rw [decide_eq_false (h r hr hforeign), decide_eq_true hforeign]
      rfl
    · rw [decide_eq_false hforeign]
      rfl

theorem cleanup_spares_foreign_iff_leftOver :
    (∃ rules', deleteRulesByRegex Boost.plain .all allSucceed {} leftOver.reverse "AUTO_BLOCKED_"
        ⟨leftOver, []⟩ = .ok (true, rules') ∧
          SparesForeign "AUTO_BLOCKED_" leftOver rules'.present) ↔
      ∀ r ∈ leftOver, ForeignName "AUTO_BLOCKED_" r →
        ¬ "AUTO_BLOCKED_".toList <:+: r.name.toList :=
  cleanup_spares_foreign_iff Boost.plain_searchesLiterals
    (g := ({} : ApplicationConfig Boost.plain)) (by decide) .all ⟨leftOver, []⟩
    leftOver.reverse_perm

/-- A rule of somebody else that mentions the prefix is lost. -/
theorem mention_of_prefix_is_lost :
    Boost.plain.SearchesLiterals ∧
      ForeignName "AUTO_BLOCKED_" { name := "Keep AUTO_BLOCKED_ hosts out" } ∧
      deleteRulesByRegex Boost.plain .first allSucceed {}
          [{ name := "Keep AUTO_BLOCKED_ hosts out" }] "AUTO_BLOCKED_"
          ⟨[{ name := "Keep AUTO_BLOCKED_ hosts out" }], []⟩ = .ok (true, ⟨[], []⟩) ∧
      ¬ SparesForeign "AUTO_BLOCKED_" [{ name := "Keep AUTO_BLOCKED_ hosts out" }] [] :=
  ⟨Boost.plain_searchesLiterals, by decide, rfl, by decide⟩

end RDPBlocker
