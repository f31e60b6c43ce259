import RDPBlocker.Guarantees.FailBan
import RDPBlocker.Guarantees.Intervals
import RDPBlocker.Refinement.SystemRun

/-! The rules of the machine when any call of the firewall may fail, and when drawn names may
collide. -/
namespace RDPBlocker
open Foundation
variable {B : Boost} {T : Type*} [LinearOrder T]

omit [LinearOrder T] in
/-- The tasks whose rule a handler of the record added. -/
def addedTasks (log : List (HandlerRun T)) : List (BlockRemoteAddressTask T) :=
  log.filterMap fun
    | (.block task, hr) => if adds hr = true then some task else none
    | (.unblock _, _) => none

/-- The tasks whose rule a handler of the record removed. -/
def removedTasks (log : List (HandlerRun T)) : List (BlockRemoteAddressTask T) :=
  log.filterMap fun
    | (.block _, _) => none
    | (.unblock task, hr) => if removes hr = true then some task else none

def keptTasks (log : List (HandlerRun T)) : List (BlockRemoteAddressTask T) :=
  (addedTasks log).filter fun task => decide (task ∉ removedTasks log)

section Record
variable {log : List (HandlerRun T)} {task : BlockRemoteAddressTask T}

omit [LinearOrder T] in
theorem mem_addedTasks :
    task ∈ addedTasks log ↔ ∃ hr, (Handler.block task, hr) ∈ log ∧ adds hr = true := by
  unfold addedTasks
  rw [List.mem_filterMap]
  constructor
  · rintro ⟨⟨h | h, hr⟩, hmem, heq⟩
    · dsimp only at heq
      split_ifs at heq with hadds
      cases heq
      exact ⟨hr, hmem, hadds⟩
    · cases heq
  · rintro ⟨hr, hmem, hadds⟩
    exact ⟨_, hmem, if_pos hadds⟩

omit [LinearOrder T] in
theorem mem_removedTasks :
    task ∈ removedTasks log ↔ ∃ hr, (Handler.unblock task, hr) ∈ log ∧ removes hr = true := by
  unfold removedTasks
  rw [List.mem_filterMap]
  constructor
  · rintro ⟨⟨h | h, hr⟩, hmem, heq⟩
    · cases heq
    · dsimp only at heq
      split_ifs at heq with hremoves
      cases heq
      exact ⟨hr, hmem, hremoves⟩
  · rintro ⟨hr, hmem, hremoves⟩
    exact ⟨_, hmem, if_pos hremoves⟩

omit [LinearOrder T] in
theorem block_mem_of_added (h : task ∈ addedTasks log) :
    Handler.block task ∈ log.map Prod.fst := by
  obtain ⟨hr, hmem, -⟩ := mem_addedTasks.mp h
  exact List.mem_map_of_mem hmem

omit [LinearOrder T] in
theorem unblock_mem_of_removed (h : task ∈ removedTasks log) :
    Handler.unblock task ∈ log.map Prod.fst := by
  obtain ⟨hr, hmem, -⟩ := mem_removedTasks.mp h
  exact List.mem_map_of_mem hmem

theorem mem_keptTasks : task ∈ keptTasks log ↔ task ∈ addedTasks log ∧ task ∉ removedTasks log := by
  unfold keptTasks
  rw [List.mem_filter, decide_eq_true_iff]

theorem keptTasks_block (h : Handler.unblock task ∉ log.map Prod.fst) (hr : ComResults) :
    keptTasks (log ++ [(.block task, hr)]) =
      keptTasks log ++ if adds hr = true then [task] else [] := by
  have hremoved : removedTasks (log ++ [(.block task, hr)]) = removedTasks log := by
    unfold removedTasks
    rw [List.filterMap_append]
    exact List.append_nil _
  have hadded : addedTasks (log ++ [(.block task, hr)]) =
      addedTasks log ++ if adds hr = true then [task] else [] := by
    unfold addedTasks
    rw [List.filterMap_append]
    by_cases hadds : adds hr = true <;> simp [hadds]
  have hkeeps : task ∉ removedTasks log := fun hmem => h (unblock_mem_of_removed hmem)
  unfold keptTasks
  rw [hadded, hremoved, List.filter_append]
  congr 1
  split_ifs
  · exact List.filter_cons_of_pos (decide_eq_true hkeeps)
  · rfl

theorem keptTasks_unblock (log : List (HandlerRun T)) (task : BlockRemoteAddressTask T)
    (hr : ComResults) : keptTasks (log ++ [(.unblock task, hr)]) =
      if removes hr = true then (keptTasks log).filter (· ≠ task) else keptTasks log := by
  have hadded : addedTasks (log ++ [(.unblock task, hr)]) = addedTasks log := by
    unfold addedTasks
    rw [List.filterMap_append]
    exact List.append_nil _
  have hremoved : removedTasks (log ++ [(.unblock task, hr)]) =
      removedTasks log ++ if removes hr = true then [task] else [] := by
    unfold removedTasks
    rw [List.filterMap_append]
    by_cases hremoves : removes hr = true <;> simp [hremoves]
  unfold keptTasks
  rw [hadded, hremoved]
  split_ifs
  · rw [List.filter_filter]
    apply List.filter_congr
    intro t _
    by_cases ht : t = task <;> simp [ht]
  · rw [List.append_nil]

omit [LinearOrder T] in
theorem FreshNames.of_subset {foreign : List FirewallRule}
    {tasks some : List (BlockRemoteAddressTask T)} (h : FreshNames foreign tasks)
    (hnodup : some.Nodup) (hsub : ∀ t ∈ some, t ∈ tasks) : FreshNames foreign some where
  distinct := hnodup.map_on fun t ht u hu heq => h.eq_of_ruleName_eq (hsub t ht) (hsub u hu) heq
  apart t ht := h.apart t (hsub t ht)

/-- With fresh names, a removal takes the rule of its task, if it is there. -/
theorem present_remove_rule (mode : RemoveMode) {foreign : List FirewallRule}
    {tasks kept : List (BlockRemoteAddressTask T)} {rules : FirewallRules}
    (hpresent : rules.present = foreign ++ kept.map (·.rule)) (hn : FreshNames foreign tasks)
    (hnodup : kept.Nodup) (hsub : ∀ t ∈ kept, t ∈ tasks) (ht : task ∈ tasks) :
    (rules.remove mode task.ruleName).present =
      foreign ++ (kept.filter (· ≠ task)).map (·.rule) := by
  have hone : rules.present.Pairwise fun r r' =>
      ¬ (r.name = task.ruleName ∧ r'.name = task.ruleName) := by
    rw [hpresent, List.pairwise_append]
    refine ⟨?_, ?_, fun r hr _ _ h => hn.apart task ht r hr h.1⟩
    · exact List.pairwise_of_forall_mem_list fun r hr _ _ h => hn.apart task ht r hr h.1
    · rw [List.pairwise_map]
      refine hnodup.imp_of_mem fun {t u} hmt hmu hne h => hne ?_
      exact hn.eq_of_ruleName_eq (hsub t hmt) (hsub u hmu) (h.1.trans h.2.symm)
  rw [present_remove mode hone, hpresent, List.filter_append]
  congr 1
  · rw [List.filter_eq_self]
    exact fun r hr => decide_eq_true (hn.apart task ht r hr)
  · rw [List.filter_map]
    congr 1
    apply List.filter_congr
    intro t hmt
    have hiff : t.ruleName = task.ruleName ↔ t = task :=
      ⟨hn.eq_of_ruleName_eq (hsub t hmt) ht, fun h => by rw [h]⟩
    exact decide_eq_decide.mpr (not_congr hiff)

omit [LinearOrder T] in
/-- A task whose block handler runs now has not been unblocked before. -/
theorem unblock_not_mem_of_block {l : List (Handler T)}
    (hnodup : (l ++ [Handler.block task]).Nodup)
    (hfirst : BlocksFirst (l ++ [Handler.block task])) : Handler.unblock task ∉ l := by
  intro hmem
  obtain ⟨p, q, rfl⟩ := List.append_of_mem hmem
  have hblock := hfirst p (q ++ [.block task]) task (by simp)
  exact List.disjoint_of_nodup_append hnodup (List.mem_append_left _ hblock)
    (List.mem_singleton_self _)

omit [LinearOrder T] in
theorem nodup_addedTasks (hnodup : (log.map Prod.fst).Nodup) : (addedTasks log).Nodup := by
  unfold addedTasks List.Nodup
  rw [List.pairwise_filterMap]
  refine (List.pairwise_map.mp hnodup).imp ?_
  rintro ⟨h | h, hr⟩ ⟨h' | h', hr'⟩ hne t ht t' ht' heq
  · dsimp only at ht ht'
    split_ifs at ht ht'
    cases ht
    cases ht'
    exact hne (congrArg Handler.block heq)
  · cases ht'
  · cases ht
  · cases ht

/-- With fresh names, every handler acts on the rule of its own task alone. -/
theorem present_foldl (mode : RemoveMode) {foreign added : List FirewallRule}
    (hnodup : (log.map Prod.fst).Nodup) (hfirst : BlocksFirst (log.map Prod.fst))
    (hn : FreshNames foreign (blockedTasks (log.map Prod.fst))) :
    (log.foldl (HandlerRun.apply mode) ⟨foreign, added⟩).present =
      foreign ++ (keptTasks log).map (·.rule) := by
  induction log using List.reverseRecOn with
  | nil => exact (List.append_nil foreign).symm
  | append_singleton log x ih =>
    obtain ⟨h, hr⟩ := x
    rw [List.map_append] at hnodup hfirst hn
    rw [blockedTasks_append] at hn
    have hpresent := ih hnodup.of_append_left hfirst.of_append hn.of_append
    rw [List.foldl_concat]
    cases h with
    | block task =>
      rw [keptTasks_block (unblock_not_mem_of_block hnodup hfirst), List.map_append,
        ← List.append_assoc, ← hpresent]
      simp only [HandlerRun.apply]
      split_ifs
      · rfl
      · exact (List.append_nil _).symm
    | unblock task =>
      rw [keptTasks_unblock]
      simp only [HandlerRun.apply]
      split_ifs
      · have hblock : Handler.block task ∈ log.map Prod.fst :=
          hfirst _ [] task rfl
        have htask : task ∈ blockedTasks (log.map Prod.fst) := mem_blockedTasks.mpr hblock
        have hsub : ∀ t ∈ keptTasks log, t ∈ blockedTasks (log.map Prod.fst) := fun t ht =>
          mem_blockedTasks.mpr (block_mem_of_added (mem_keptTasks.mp ht).1)
        exact present_remove_rule mode hpresent hn.of_append
          ((nodup_addedTasks hnodup.of_append_left).filter _) hsub htask
      · exact hpresent

end Record
variable [AddGroupWithOne T]

/-- What a state shows of the rules, when foreign rules were there before and these handlers have
run. -/
structure FollowsRecord (foreign : List FirewallRule) (log : List (HandlerRun T))
    (s : System B T) : Prop where
  once : (log.map Prod.fst).Nodup
  present : s.io.rules.present = foreign ++ (keptTasks log).map (·.rule)
  at_rest : s.io.loop.Quiescent → ∀ task ∈ s.io.tasks, task.rule ∈ s.io.rules.present ↔
    (∃ hr, (Handler.block task, hr) ∈ log ∧ adds hr = true) ∧
      (s.io.loop.now < task.deadline ∨
        ∃ hr, (Handler.unblock task, hr) ∈ log ∧ removes hr = false)

theorem executed_run (mode : RemoveMode) (g : ApplicationConfig B) (now : T)
    (foreign : List FirewallRule) (actions : List (SystemAction T)) :
    ((System.start g now foreign).run mode actions).io.executed =
      ((System.start g now foreign).handled mode actions).map Prod.fst :=
  ((System.start g now foreign).rules_run mode actions).2

/-- Whichever calls fail, the rules in place are those that were added and not removed; each is
tried to be added once and removed once, so that a rule whose removal failed stays for good. -/
theorem rules_follow_record {mode : RemoveMode} {g : ApplicationConfig B} {now : T}
    {foreign : List FirewallRule} {actions : List (SystemAction T)}
    (hn : FreshNames foreign ((System.start g now foreign).run mode actions).io.tasks) :
    FollowsRecord foreign ((System.start g now foreign).handled mode actions)
      ((System.start g now foreign).run mode actions) := by
  have hi := System.invariant_run mode g now foreign actions
  have hexecuted := executed_run mode g now foreign actions
  have hrules := ((System.start g now foreign).rules_run mode actions).1
  generalize (System.start g now foreign).run mode actions = s at hn hi hexecuted hrules ⊢
  generalize (System.start g now foreign).handled mode actions = log at hexecuted hrules ⊢
  have honce : (log.map Prod.fst).Nodup := hexecuted ▸ hi.nodup_executed
  have hfirst : BlocksFirst (log.map Prod.fst) := hexecuted ▸ hi.blocksFirst.of_append
  have hsub : ∀ t ∈ blockedTasks (log.map Prod.fst), t ∈ s.io.tasks := by
    intro t ht
    rw [← hexecuted, mem_blockedTasks] at ht
    exact hi.mem_tasks (Or.inl (List.mem_append_left _ (List.mem_append_left _ ht)))
  have hpresent : s.io.rules.present = foreign ++ (keptTasks log).map (·.rule) :=
    hrules ▸ present_foldl mode honce hfirst (hn.of_subset (nodup_blockedTasks honce) hsub)
  refine ⟨honce, hpresent, fun hq task ht => ?_⟩
  have hkept : task.rule ∈ s.io.rules.present ↔ task ∈ keptTasks log := by
    rw [hpresent, List.mem_append, List.mem_map]
    constructor
    · rintro (h | ⟨t, hkept, heq⟩)
      · exact absurd rfl (hn.apart task ht _ h)
      · have hmem := hsub t (mem_blockedTasks.mpr (block_mem_of_added (mem_keptTasks.mp hkept).1))
        rw [← hn.eq_of_ruleName_eq hmem ht (congrArg FirewallRule.name heq)]
        exact hkept
    · exact fun h => Or.inr ⟨task, h, rfl⟩
  have hdue := hi.unblock_executed_iff hq ht
  rw [hkept, mem_keptTasks, mem_addedTasks, mem_removedTasks]
  rw [hexecuted] at hdue
  refine and_congr_right fun _ => ⟨fun hstays => ?_, ?_⟩
  · rcases lt_or_ge s.io.loop.now task.deadline with hlt | hge
    · exact Or.inl hlt
    · obtain ⟨⟨h, hr⟩, hmem, heq⟩ := List.mem_map.mp (hdue.mpr hge)
      cases heq
      exact Or.inr ⟨hr, hmem, Bool.not_eq_true _ ▸ fun hremoves => hstays ⟨hr, hmem, hremoves⟩⟩
  · rintro (hlt | ⟨hr, hmem, hfails⟩) ⟨hr', hmem', hremoves⟩
    · exact absurd (hdue.mp (List.mem_map_of_mem hmem')) (not_le.mpr hlt)
    · have hsame : hr = hr' := congrArg Prod.snd (List.inj_on_of_nodup_map honce hmem hmem' rfl)
      rw [hsame, hremoves] at hfails
      cases hfails

/-- A ban whose rule cannot be removed when its time is over. -/
def removalFails : List (SystemAction ℤ) :=
  [.authFailed (failureAt 0 "1.2.3.4") (sameLetter (Fin.last _)),
    .authFailed (failureAt 0 "1.2.3.4") (sameLetter (Fin.last _)),
    .authFailed (failureAt 0 "1.2.3.4") (sameLetter (Fin.last _)),
    .io (.run allSucceed), .io (.advance 60), .io (.expire 0),
    .io (.run fun c => decide (c ≠ .remove))]

theorem rules_follow_record_removalFails :
    FollowsRecord [({ name := "Core" } : FirewallRule)]
      ((System.start threeInTen 0 [{ name := "Core" }]).handled .first removalFails)
      ((System.start threeInTen 0 [{ name := "Core" }]).run .first removalFails) :=
  rules_follow_record ⟨by decide, by decide⟩

theorem IoState.Invariant.task_mem {s : IoState T} (hs : s.Invariant) {h : Handler T}
    (hh : h ∈ s.executed) : h.task ∈ s.tasks := by
  have hmem : h ∈ s.loop.handlers := List.mem_append_left _ (List.mem_append_left _ hh)
  cases h with
  | block task => exact hs.mem_tasks (Or.inl hmem)
  | unblock task => exact hs.mem_tasks (Or.inr hmem)

section Collisions
variable {mode : RemoveMode} {log : List (HandlerRun T)} {task : BlockRemoteAddressTask T}

omit [LinearOrder T] [AddGroupWithOne T] in
/-- A handler leaves the rules of every other name alone. -/
theorem filter_apply {keep : FirewallRule → Bool} (rules : FirewallRules) {x : HandlerRun T}
    (hkeep : ∀ r, keep r = true → r.name ≠ x.1.task.ruleName) :
    (HandlerRun.apply mode rules x).present.filter keep = rules.present.filter keep := by
  obtain ⟨h | h, hr⟩ := x
  · simp only [HandlerRun.apply]
    split_ifs
    · change (rules.present ++ [h.rule]).filter keep = _
      rw [List.filter_append, List.filter_cons_of_neg fun hk => hkeep h.rule hk rfl]
      exact List.append_nil _
    · rfl
  · simp only [HandlerRun.apply]
    split_ifs
    · have hothers := (FirewallRules.removesByKey mode).others rules h.ruleName
      have hfilter : ∀ l : List FirewallRule, l.filter keep =
          (l.filter fun r => decide (r.name ≠ h.ruleName)).filter keep := by
        intro l
        rw [List.filter_filter]
        apply List.filter_congr
        intro r _
        cases hr : keep r with
        | true =>
          have hne : r.name ≠ h.ruleName := hkeep r hr
          rw [decide_eq_true hne]
          rfl
        | false => rfl
      rw [hfilter, hothers, ← hfilter]
    · rfl

omit [LinearOrder T] [AddGroupWithOne T] in
theorem filter_foldl {keep : FirewallRule → Bool} (rules : FirewallRules)
    (hkeep : ∀ x ∈ log, ∀ r, keep r = true → r.name ≠ x.1.task.ruleName) :
    (log.foldl (HandlerRun.apply mode) rules).present.filter keep =
      rules.present.filter keep := by
  induction log generalizing rules with
  | nil => rfl
  | cons x log ih =>
    rw [List.forall_mem_cons] at hkeep
    rw [List.foldl_cons, ih _ hkeep.2, filter_apply rules hkeep.1]

omit [AddGroupWithOne T] in
/-- While removals succeed, a name is never on more rules than it is the name of live tasks, and of
rules that were there before. -/
theorem countP_foldl_le (mode : RemoveMode) (rules : FirewallRules)
    (hnodup : (log.map Prod.fst).Nodup) (hfirst : BlocksFirst (log.map Prod.fst))
    (hremoves : ∀ task hr, (Handler.unblock task, hr) ∈ log → removes hr = true) (name : String) :
    (log.foldl (HandlerRun.apply mode) rules).present.countP (fun r => decide (r.name = name)) ≤
      rules.present.countP (fun r => decide (r.name = name)) +
        (liveTasks (log.map Prod.fst)).countP fun task => decide (task.ruleName = name) := by
  induction log using List.reverseRecOn with
  | nil => exact Nat.le_add_right _ _
  | append_singleton log x ih =>
    obtain ⟨h, hr⟩ := x
    rw [List.map_append] at hnodup hfirst
    have hpast := ih hnodup.of_append_left hfirst.of_append
      fun task hr hmem => hremoves task hr (List.mem_append_left _ hmem)
    rw [List.foldl_concat, List.map_append]
    generalize log.foldl (HandlerRun.apply mode) rules = before at hpast ⊢
    cases h with
    | block task =>
      have hlive : liveTasks (log.map Prod.fst ++ [(Handler.block task, hr)].map Prod.fst) =
          liveTasks (log.map Prod.fst) ++ [task] :=
        liveTasks_block (unblock_not_mem_of_block hnodup hfirst)
      rw [hlive, List.countP_append, ← Nat.add_assoc]
      simp only [HandlerRun.apply]
      split_ifs
      · change (before.present ++ [task.rule]).countP _ ≤ _
        rw [List.countP_append]
        exact Nat.add_le_add_right hpast _
      · exact hpast.trans (Nat.le_add_right _ _)
    | unblock task =>
      have hran : Handler.unblock task ∉ log.map Prod.fst := fun hmem =>
        List.disjoint_of_nodup_append hnodup hmem (List.mem_singleton_self _)
      have hmem : task ∈ liveTasks (log.map Prod.fst) :=
        mem_liveTasks.mpr ⟨hfirst _ [] task rfl, hran⟩
      have happly : HandlerRun.apply mode before (.unblock task, hr) =
          before.remove mode task.ruleName :=
        if_pos (hremoves task hr (List.mem_append_right _ (List.mem_singleton_self _)))
      have hnodupLive : (liveTasks (log.map Prod.fst)).Nodup :=
        (nodup_blockedTasks hnodup.of_append_left).filter _
      have hlive : liveTasks (log.map Prod.fst ++ [(Handler.unblock task, hr)].map Prod.fst) =
          (liveTasks (log.map Prod.fst)).erase task := by
        rw [hnodupLive.erase_eq_filter]
        refine (liveTasks_unblock _ task).trans (List.filter_congr fun t _ => ?_)
        by_cases ht : t = task <;> simp [ht]
      rw [happly, hlive, List.countP_erase]
      by_cases hname : task.ruleName = name
      · have hprogress := (FirewallRules.removesByKey mode).progress before task.ruleName
        rw [hname] at hprogress ⊢
        rw [if_pos ⟨hmem, decide_eq_true rfl⟩]
        omega
      · rw [(FirewallRules.removesByKey mode).countP_of_ne before (Ne.symm hname),
          if_neg fun h => hname (of_decide_eq_true h.2)]
        exact hpast

end Collisions

namespace System
variable {g : ApplicationConfig B} {mode : RemoveMode} {now : T} {present : List FirewallRule}

omit [LinearOrder T] [AddGroupWithOne T] in
/-- After a cleaning that succeeds, no rule has a name that a task may draw. -/
theorem start_of_cleaned (hB : B.SearchesLiterals) (hfree : MetacharacterFree g.mRulePrefix)
    {enumerated : List FirewallRule} (henum : enumerated.Perm present) {s : System B T}
    (hstart : startUp mode allSucceed {} enumerated g now present = .ok s) :
    ∃ cleaned, s = start g now cleaned ∧
      ∀ r ∈ cleaned, ¬ g.mRulePrefix.toList <+: r.name.toList := by
  obtain ⟨haccept, hsearch⟩ := hB _ hfree
  obtain ⟨cleaned, hdelete, hcleaned⟩ :=
    deleteRulesByRegex_allSucceed mode haccept hsearch ⟨present, []⟩ henum
  unfold startUp at hstart
  rw [hdelete] at hstart
  refine ⟨cleaned.present, (Except.ok.inj hstart).symm, fun r hr hbegins => ?_⟩
  rw [hcleaned, List.mem_filter, decide_eq_true hbegins.isInfix] at hr
  exact Bool.false_ne_true hr.2

/-- The rules of others stay as they are. -/
theorem filter_foreign_run (mode : RemoveMode) (now : T)
    (hapart : ∀ r ∈ present, ¬ g.mRulePrefix.toList <+: r.name.toList)
    (actions : List (SystemAction T)) :
    ((start g now present).run mode actions).io.rules.present.filter
      (fun r => decide (¬ g.mRulePrefix.toList <+: r.name.toList)) = present := by
  have hi := invariant_run mode g now present actions
  have hnamed := named_run mode (s := start g now present) (IoState.Named.start now present)
    actions
  have hexecuted := executed_run mode g now present actions
  rw [((start g now present).rules_run mode actions).1, filter_foldl]
  · exact List.filter_eq_self.mpr fun r hr => decide_eq_true (hapart r hr)
  · intro x hx r hr heq
    apply of_decide_eq_true hr
    rw [heq]
    exact hnamed _ (hi.task_mem (hexecuted ▸ List.mem_map_of_mem hx))

/-- At rest, a rule of the program has the name of a ban that is not over. -/
theorem exists_later_deadline (hapart : ∀ r ∈ present, ¬ g.mRulePrefix.toList <+: r.name.toList)
    {actions : List (SystemAction T)}
    (hremoves : ∀ task hr, (Handler.unblock task, hr) ∈
      (start g now present).handled mode actions → removes hr = true)
    (hrest : ((start g now present).run mode actions).io.loop.Quiescent) {r : FirewallRule}
    (hr : r ∈ ((start g now present).run mode actions).io.rules.present)
    (hbegins : g.mRulePrefix.toList <+: r.name.toList) :
    ∃ task ∈ ((start g now present).run mode actions).io.tasks, task.ruleName = r.name ∧
      ((start g now present).run mode actions).io.loop.now < task.deadline := by
  have hi := invariant_run mode g now present actions
  have hexecuted := executed_run mode g now present actions
  have hrules := ((start g now present).rules_run mode actions).1
  generalize (start g now present).handled mode actions = log at *
  generalize (start g now present).run mode actions = t at *
  have honce : (log.map Prod.fst).Nodup := hexecuted ▸ hi.nodup_executed
  have hfirst : BlocksFirst (log.map Prod.fst) := hexecuted ▸ hi.blocksFirst.of_append
  have hcount := countP_foldl_le mode ⟨present, []⟩ honce hfirst hremoves r.name
  have hnone : present.countP (fun r' => decide (r'.name = r.name)) = 0 := by
    rw [List.countP_eq_zero]
    intro r' hr' heq
    exact hapart r' hr' (of_decide_eq_true heq ▸ hbegins)
  have hsome : 0 < t.io.rules.present.countP fun r' => decide (r'.name = r.name) :=
    List.countP_pos_iff.mpr ⟨r, hr, decide_eq_true rfl⟩
  have hstart : (start g now present).io.rules = ⟨present, []⟩ := rfl
  rw [hrules, hstart] at hsome
  rw [hnone, Nat.zero_add] at hcount
  have hlive := hsome.trans_le hcount
  rw [List.countP_pos_iff, ← hexecuted] at hlive
  obtain ⟨task, htask, hname⟩ := hlive
  have hmem := hi.mem_tasks_of_live htask
  refine ⟨task, hmem, of_decide_eq_true hname, not_le.mp ?_⟩
  rw [← hi.unblock_executed_iff hrest hmem]
  exact (mem_liveTasks.mp htask).2

/-- Once all bans are over, the rules are those of the start. -/
theorem present_run_of_over (hapart : ∀ r ∈ present, ¬ g.mRulePrefix.toList <+: r.name.toList)
    {actions : List (SystemAction T)}
    (hremoves : ∀ task hr, (Handler.unblock task, hr) ∈
      (start g now present).handled mode actions → removes hr = true)
    (hrest : ((start g now present).run mode actions).io.loop.Quiescent)
    (hover : ∀ task ∈ ((start g now present).run mode actions).io.tasks,
      task.deadline ≤ ((start g now present).run mode actions).io.loop.now) :
    ((start g now present).run mode actions).io.rules.present = present := by
  refine Eq.trans ?_ (filter_foreign_run mode now hapart actions)
  rw [eq_comm, List.filter_eq_self]
  intro r hr
  apply decide_eq_true
  intro hbegins
  obtain ⟨task, htask, -, hlater⟩ := exists_later_deadline hapart hremoves hrest hr hbegins
  exact absurd (hover task htask) (not_le.mpr hlater)

end System

/-- After a cleaning whose calls all succeeded: whatever names are drawn and whichever rules cannot
be added, nothing is left of a ban when the last deadline of its name has passed, as long as the
removals succeed. -/
theorem nothing_outlives_its_name (hB : B.SearchesLiterals) {g : ApplicationConfig B}
    (hfree : MetacharacterFree g.mRulePrefix) {mode : RemoveMode} {now : T}
    {present enumerated : List FirewallRule} (henum : enumerated.Perm present) {s : System B T}
    (hstart : System.startUp mode allSucceed {} enumerated g now present = .ok s)
    {actions : List (SystemAction T)}
    (hremoves : ∀ task hr, (Handler.unblock task, hr) ∈ s.handled mode actions →
      removes hr = true)
    (hrest : (s.run mode actions).io.loop.Quiescent) :
    (∀ r ∈ (s.run mode actions).io.rules.present, r ∈ s.io.rules.present ∨
      ∃ task ∈ (s.run mode actions).io.tasks, task.ruleName = r.name ∧
        (s.run mode actions).io.loop.now < task.deadline) ∧
    ((∀ task ∈ (s.run mode actions).io.tasks,
        task.deadline ≤ (s.run mode actions).io.loop.now) →
      (s.run mode actions).io.rules.present = s.io.rules.present) := by
  obtain ⟨cleaned, rfl, hapart⟩ := System.start_of_cleaned hB hfree henum hstart
  constructor
  · intro r hr
    by_cases hbegins : g.mRulePrefix.toList <+: r.name.toList
    · exact Or.inr (System.exists_later_deadline hapart hremoves hrest hr hbegins)
    · left
      change r ∈ cleaned
      rw [← System.filter_foreign_run mode now hapart actions, List.mem_filter]
      exact ⟨hr, decide_eq_true hbegins⟩
  · exact System.present_run_of_over hapart hremoves hrest

/-- Two bans of different addresses get the same name. -/
def sameNameTwice : List (SystemAction ℤ) :=
  [.authFailed (failureAt 0 "1.2.3.4") (sameLetter (Fin.last _)),
    .authFailed (failureAt 0 "1.2.3.4") (sameLetter (Fin.last _)),
    .authFailed (failureAt 0 "1.2.3.4") (sameLetter (Fin.last _)),
    .io (.run allSucceed), .io (.advance 30),
    .authFailed (failureAt 30 "5.6.7.8") (sameLetter (Fin.last _)),
    .authFailed (failureAt 30 "5.6.7.8") (sameLetter (Fin.last _)),
    .authFailed (failureAt 30 "5.6.7.8") (sameLetter (Fin.last _)),
    .io (.run allSucceed), .io (.advance 60), .io (.expire 0), .io (.run allSucceed)]

theorem nothing_outlives_its_name_sameNameTwice :
    let s := System.start threeInTen 0 [({ name := "Core" } : FirewallRule)]
    (∀ r ∈ (s.run .first sameNameTwice).io.rules.present, r ∈ s.io.rules.present ∨
      ∃ task ∈ (s.run .first sameNameTwice).io.tasks, task.ruleName = r.name ∧
        (s.run .first sameNameTwice).io.loop.now < task.deadline) ∧
    ((∀ task ∈ (s.run .first sameNameTwice).io.tasks,
        task.deadline ≤ (s.run .first sameNameTwice).io.loop.now) →
      (s.run .first sameNameTwice).io.rules.present = s.io.rules.present) := by
  refine nothing_outlives_its_name Boost.plain_searchesLiterals (g := threeInTen) (by decide)
    (List.Perm.refl [({ name := "Core" } : FirewallRule)]) rfl (fun task hr hmem => ?_)
    ⟨by decide, by decide⟩
  have hrun : hr = allSucceed := by
    simpa [sameNameTwice] using System.run_mem_of_handled hmem
  rw [hrun]
  rfl

end RDPBlocker
