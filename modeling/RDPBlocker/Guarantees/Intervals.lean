import RDPBlocker.Refinement.LiveTasks

/-! With a firewall that obeys, the tasks put one rule in place each, for one interval. -/
namespace RDPBlocker
open Foundation
variable {T : Type*} [LinearOrder T] [AddGroupWithOne T]

namespace IoState.Invariant
variable {s : IoState T}

theorem pending_of_not_executed (hs : s.Invariant) {task : BlockRemoteAddressTask T}
    (ht : task ∈ s.tasks) (hran : Handler.unblock task ∉ s.executed) :
    Handler.unblock task ∈ s.loop.ready ∨ Handler.unblock task ∈ s.loop.timers.map Prod.snd := by
  have hmem : Handler.unblock task ∈ s.loop.handlers :=
    hs.handlers.mem_iff.mpr (mem_taskHandlers.mpr ⟨task, ht, Or.inr rfl⟩)
  rcases List.mem_append.mp hmem with h | h
  · rcases List.mem_append.mp h with h | h
    · exact absurd h hran
    · exact Or.inl h
  · exact Or.inr h

theorem deadline_le_of_executed (hs : s.Invariant) {task : BlockRemoteAddressTask T}
    (h : Handler.unblock task ∈ s.executed) : task.deadline ≤ s.loop.now := by
  obtain ⟨x, hx, heq⟩ := List.mem_map.mp h
  have ht := hs.timely.ran x hx
  rw [heq] at ht
  exact ht.1.trans ht.2

/-- At rest every block handler has run. -/
theorem block_executed (hs : s.Invariant) (hq : s.loop.Quiescent)
    {task : BlockRemoteAddressTask T} (ht : task ∈ s.tasks) :
    Handler.block task ∈ s.executed := by
  have hmem : Handler.block task ∈ s.loop.handlers :=
    hs.handlers.mem_iff.mpr (mem_taskHandlers.mpr ⟨task, ht, Or.inl rfl⟩)
  rcases List.mem_append.mp hmem with h | h
  · rw [EventLoop.schedule, hq.1, List.append_nil] at h
    exact h
  · obtain ⟨x, hx, heq⟩ := List.mem_map.mp h
    obtain ⟨t, rfl⟩ := hs.timers x hx
    cases heq

theorem createdAt_le_now (hs : s.Invariant) (hq : s.loop.Quiescent)
    {task : BlockRemoteAddressTask T} (ht : task ∈ s.tasks) : task.createdAt ≤ s.loop.now := by
  obtain ⟨x, hx, heq⟩ := List.mem_map.mp (hs.block_executed hq ht)
  have hrel := hs.timely.ran x hx
  rw [heq] at hrel
  exact hrel.1.trans hrel.2

/-- At rest the unblock handlers that have run are those whose deadline has come. -/
theorem unblock_executed_iff (hs : s.Invariant) (hq : s.loop.Quiescent)
    {task : BlockRemoteAddressTask T} (ht : task ∈ s.tasks) :
    Handler.unblock task ∈ s.executed ↔ task.deadline ≤ s.loop.now := by
  constructor
  · exact hs.deadline_le_of_executed
  · intro hdue
    by_contra hran
    rcases hs.pending_of_not_executed ht hran with h | h
    · rw [hq.1] at h
      cases h
    · obtain ⟨x, hx, heq⟩ := List.mem_map.mp h
      obtain ⟨t, rfl⟩ := hs.timers x hx
      cases heq
      exact absurd hdue (not_le.mpr (hq.2 _ hx))

end IoState.Invariant

namespace IoState.InSync
variable {s : IoState T} {foreign : List FirewallRule}

omit [AddGroupWithOne T] in
theorem mem_present (hs : s.InSync foreign) {r : FirewallRule} :
    r ∈ s.rules.present ↔ r ∈ foreign ∨ ∃ task ∈ liveTasks s.executed, task.rule = r := by
  rw [hs.present, List.mem_append, List.mem_map]

theorem rule_present (hs : s.InSync foreign) (hi : s.Invariant) (hn : FreshNames foreign s.tasks)
    {task : BlockRemoteAddressTask T} (ht : task ∈ s.tasks) :
    task.rule ∈ s.rules.present ↔
      Handler.block task ∈ s.executed ∧ Handler.unblock task ∉ s.executed := by
  rw [hs.mem_present, ← mem_liveTasks]
  constructor
  · rintro (h | ⟨t, hlive, heq⟩)
    · exact absurd rfl (hn.apart task ht _ h)
    · have hname : t.ruleName = task.ruleName := congrArg FirewallRule.name heq
      rw [← hn.eq_of_ruleName_eq (hi.mem_tasks_of_live hlive) ht hname]
      exact hlive
  · exact fun h => Or.inr ⟨task, h, rfl⟩

theorem no_orphan (hs : s.InSync foreign) (hi : s.Invariant) {r : FirewallRule}
    (hr : r ∈ s.rules.present) : r ∈ foreign ∨ ∃ task ∈ s.tasks, r = task.rule ∧
      (Handler.unblock task ∈ s.loop.ready ∨
        Handler.unblock task ∈ s.loop.timers.map Prod.snd) := by
  rcases hs.mem_present.mp hr with h | ⟨task, hlive, rfl⟩
  · exact Or.inl h
  · have ht := hi.mem_tasks_of_live hlive
    exact Or.inr ⟨task, ht, rfl, hi.pending_of_not_executed ht (mem_liveTasks.mp hlive).2⟩

theorem foreign_unchanged (hs : s.InSync foreign) (hi : s.Invariant)
    (hn : FreshNames foreign s.tasks) :
    s.rules.present.filter (fun r => decide (r.name ∉ s.tasks.map (·.ruleName))) = foreign := by
  rw [hs.present, List.filter_append]
  have hforeign : foreign.filter (fun r => decide (r.name ∉ s.tasks.map (·.ruleName))) =
      foreign := by
    rw [List.filter_eq_self]
    intro r hr
    apply decide_eq_true
    intro hmem
    obtain ⟨task, ht, heq⟩ := List.mem_map.mp hmem
    exact hn.apart task ht r hr heq.symm
  have hown : ((liveTasks s.executed).map (·.rule)).filter
      (fun r => decide (r.name ∉ s.tasks.map (·.ruleName))) = [] := by
    rw [List.filter_eq_nil_iff]
    intro r hr hmem
    obtain ⟨task, hlive, rfl⟩ := List.mem_map.mp hr
    apply of_decide_eq_true hmem
    exact List.mem_map.mpr ⟨task, hi.mem_tasks_of_live hlive, rfl⟩
  rw [hforeign, hown, List.append_nil]

theorem rule_at_rest (hs : s.InSync foreign) (hi : s.Invariant) (hn : FreshNames foreign s.tasks)
    (hq : s.loop.Quiescent) {task : BlockRemoteAddressTask T} (ht : task ∈ s.tasks) :
    task.rule ∈ s.rules.present ↔
      task.createdAt ≤ s.loop.now ∧ s.loop.now < task.createdAt + task.blockTime := by
  rw [hs.rule_present hi hn ht, hi.unblock_executed_iff hq ht, not_le]
  constructor
  · exact fun h => ⟨hi.createdAt_le_now hq ht, h.2⟩
  · exact fun h => ⟨hi.block_executed hq ht, h.2⟩

theorem address_at_rest (hs : s.InSync foreign) (hi : s.Invariant)
    (hn : FreshNames foreign s.tasks) (hq : s.loop.Quiescent) (A : String) :
    (∃ r ∈ s.rules.present, r ∉ foreign ∧ r.remoteAddresses = A) ↔
      ∃ task ∈ s.tasks, task.blockAddress = A ∧
        task.createdAt ≤ s.loop.now ∧ s.loop.now < task.createdAt + task.blockTime := by
  constructor
  · intro h
    obtain ⟨r, hr, hforeign, rfl⟩ := h
    obtain ⟨task, ht, rfl, _⟩ := (hs.no_orphan hi hr).resolve_left hforeign
    exact ⟨task, ht, rfl, (hs.rule_at_rest hi hn hq ht).mp hr⟩
  · intro h
    obtain ⟨task, ht, rfl, hinterval⟩ := h
    refine ⟨task.rule, (hs.rule_at_rest hi hn hq ht).mpr hinterval, ?_, rfl⟩
    exact fun h => hn.apart task ht _ h rfl

end IoState.InSync

/-- The tasks that a run creates, read off the creations and the clock alone. -/
def creations (rulePrefix : String) : T → ℕ → List (TaskAction T) →
    List (BlockRemoteAddressTask T)
  | _, _, [] => []
  | now, n, .create letters remoteAddress blockTime :: actions =>
    if blockTime > 0 then
      ⟨n, rulePrefix ++ randomString 8 upperLetters letters, remoteAddress, blockTime, now⟩ ::
        creations rulePrefix now (n + 1) actions
    else creations rulePrefix now n actions
  | now, n, .io (.advance t) :: actions => creations rulePrefix (max now t) n actions
  | now, n, .io (.expire _) :: actions => creations rulePrefix now n actions
  | now, n, .io (.run _) :: actions => creations rulePrefix now n actions

omit [LinearOrder T] [AddGroupWithOne T] in
/-- When every call succeeds the io thread survives its handlers. -/
theorem IoState.alive_runHandler (mode : RemoveMode) (s : IoState T) :
    (s.runHandler mode allSucceed).alive = s.alive := by
  rcases s.runHandler_cases mode allSucceed with ⟨_, heq⟩ | ⟨h, loop, hnext, _⟩
  · rw [heq]
  · cases h with
    | block task => rw [IoState.runHandler_of_exec hnext (task.exec_block mode s.rules)]
    | unblock task => rw [IoState.runHandler_of_exec hnext (task.exec_unblock mode s.rules)]

theorem IoState.tasks_run {rulePrefix : String} {mode : RemoveMode} {s : IoState T}
    (halive : s.alive = true) {actions : List (TaskAction T)}
    (hsucceed : ∀ hr, TaskAction.io (.run hr) ∈ actions → hr = allSucceed) :
    (s.run rulePrefix mode actions).tasks =
      s.tasks ++ creations rulePrefix s.loop.now s.tasks.length actions := by
  induction actions generalizing s with
  | nil => exact (List.append_nil _).symm
  | cons a actions ih =>
    have hrest : ∀ hr, TaskAction.io (.run hr) ∈ actions → hr = allSucceed :=
      fun hr h => hsucceed hr (List.mem_cons_of_mem _ h)
    have hrun : s.run rulePrefix mode (a :: actions) =
        (s.act rulePrefix mode a).run rulePrefix mode actions := rfl
    rw [hrun]
    cases a with
    | create letters remoteAddress blockTime =>
      have hact : s.act rulePrefix mode (.create letters remoteAddress blockTime) =
          createBlockRemoteAddressTasks rulePrefix letters remoteAddress blockTime s :=
        if_pos halive
      rw [hact]
      unfold creations
      by_cases hpos : 0 < blockTime
      · rw [createBlockRemoteAddressTasks_of_pos s hpos, if_pos hpos]
        let task := newTask rulePrefix letters remoteAddress blockTime s
        have h := ih (s := { s with
          loop := (s.loop.post (.block task)).wait task.deadline (.unblock task)
          tasks := s.tasks ++ [task] }) halive hrest
        rw [List.length_append, List.length_singleton, List.append_assoc,
          List.singleton_append] at h
        exact h
      · rw [createBlockRemoteAddressTasks_of_not_pos s hpos, if_neg hpos]
        exact ih halive hrest
    | io step =>
      have hact : s.act rulePrefix mode (.io step) = s.step mode step := rfl
      rw [hact]
      unfold IoState.step
      rw [if_pos halive]
      cases step with
      | advance t => exact ih halive hrest
      | expire k =>
        have h := ih (s := { s with loop := s.loop.expire k }) halive hrest
        rw [EventLoop.now_expire] at h
        exact h
      | run hr =>
        rw [hsucceed hr List.mem_cons_self]
        rw [ih ((s.alive_runHandler mode).trans halive) hrest, s.tasks_runHandler,
          s.now_runHandler]
        rfl

/-- What a state shows of the tasks created so far, when foreign rules were there before. -/
structure IntervalSemantics (foreign : List FirewallRule) (tasks : List (BlockRemoteAddressTask T))
    (s : IoState T) : Prop where
  once : ∀ h : Handler T, s.executed.count h ≤ 1
  block_first : ∀ task past later, s.executed = past ++ Handler.unblock task :: later →
    Handler.block task ∈ past
  unblock_not_early : ∀ time task, (time, Handler.unblock task) ∈ s.loop.ran →
    task.createdAt + task.blockTime ≤ time
  rule_present : ∀ task ∈ tasks, task.rule ∈ s.rules.present ↔
    Handler.block task ∈ s.executed ∧ Handler.unblock task ∉ s.executed
  no_orphan : ∀ r ∈ s.rules.present, r ∈ foreign ∨ ∃ task ∈ tasks, r = task.rule ∧
    (Handler.unblock task ∈ s.loop.ready ∨ Handler.unblock task ∈ s.loop.timers.map Prod.snd)
  foreign_unchanged :
    s.rules.present.filter (fun r => decide (r.name ∉ tasks.map (·.ruleName))) = foreign
  rule_at_rest : s.loop.Quiescent → ∀ task ∈ tasks, task.rule ∈ s.rules.present ↔
    task.createdAt ≤ s.loop.now ∧ s.loop.now < task.createdAt + task.blockTime
  address_at_rest : s.loop.Quiescent → ∀ A,
    (∃ r ∈ s.rules.present, r ∉ foreign ∧ r.remoteAddresses = A) ↔
      ∃ task ∈ tasks, task.blockAddress = A ∧
        task.createdAt ≤ s.loop.now ∧ s.loop.now < task.createdAt + task.blockTime

/-- Whatever the two event threads create, however the steps interleave and wherever the clock
goes, the rules of the machine follow the interval semantics. -/
theorem tasks_implement_intervals {foreign : List FirewallRule} {rulePrefix : String}
    {mode : RemoveMode} {now : T} {actions : List (TaskAction T)}
    (hsucceed : ∀ hr, TaskAction.io (.run hr) ∈ actions → hr = allSucceed)
    (hn : FreshNames foreign (creations rulePrefix now 0 actions)) :
    IntervalSemantics foreign (creations rulePrefix now 0 actions)
      ((IoState.start now foreign).run rulePrefix mode actions) := by
  have htasks : ((IoState.start now foreign).run rulePrefix mode actions).tasks =
      creations rulePrefix now 0 actions := IoState.tasks_run rfl hsucceed
  have hi := (IoState.Invariant.start now foreign).run rulePrefix mode actions
  rw [← htasks] at hn ⊢
  have hsync := IoState.InSync.run hsucceed hn
  constructor
  · exact List.nodup_iff_count_le_one.mp hi.nodup_executed
  · intro task past later h
    exact hi.blocksFirst.of_append past later task h
  · exact fun time task h => (hi.timely.ran _ h).1
  · exact fun task ht => hsync.rule_present hi hn ht
  · exact fun r hr => hsync.no_orphan hi hr
  · exact hsync.foreign_unchanged hi hn
  · exact fun hq task ht => hsync.rule_at_rest hi hn hq ht
  · exact hsync.address_at_rest hi hn

/-- The letters of a name that repeats one letter. -/
def sameLetter (k : Fin (upperLetters.length - 1 + 1)) : RandomLetters := fun _ => k

/-- Two overlapping bans of one address; the first timer fires while the thread is stalled. -/
theorem tasks_implement_intervals_overlap :
    IntervalSemantics [({ name := "Foreign" } : FirewallRule)]
      (creations "AUTO_BLOCKED_" (0 : ℤ) 0
        [.create (sameLetter 0) "1.2.3.4" 5, .io (.advance 3),
          .create (sameLetter 1) "1.2.3.4" 5, .io (.advance 6), .io (.expire 0),
          .io (.run allSucceed), .io (.run allSucceed), .io (.run allSucceed)])
      ((IoState.start (0 : ℤ) [{ name := "Foreign" }]).run "AUTO_BLOCKED_" .first
        [.create (sameLetter 0) "1.2.3.4" 5, .io (.advance 3),
          .create (sameLetter 1) "1.2.3.4" 5, .io (.advance 6), .io (.expire 0),
          .io (.run allSucceed), .io (.run allSucceed), .io (.run allSucceed)]) := by
  apply tasks_implement_intervals
  · intro hr h
    simpa using h
  · exact ⟨by decide, by decide⟩

end RDPBlocker
