import RDPBlocker.Program.Tasks

/-! What holds of the tasks and their handlers at any time, whatever is created, however the
steps interleave and whatever the calls of the firewall return. -/
namespace RDPBlocker
open Foundation
variable {T : Type*}

/-- Every unblock handler stands behind the block handler of its task. -/
def BlocksFirst (l : List (Handler T)) : Prop :=
  ∀ p q task, l = p ++ Handler.unblock task :: q → Handler.block task ∈ p

theorem BlocksFirst.nil : BlocksFirst ([] : List (Handler T)) := by
  intro p q task h
  simp at h

theorem BlocksFirst.of_append {l m : List (Handler T)} (h : BlocksFirst (l ++ m)) :
    BlocksFirst l := by
  intro p q task hl
  exact h p (q ++ m) task (by rw [hl]; simp)

theorem BlocksFirst.snoc {l : List (Handler T)} {h : Handler T} (hl : BlocksFirst l)
    (hh : ∀ task, h = .unblock task → Handler.block task ∈ l) : BlocksFirst (l ++ [h]) := by
  intro p q task hpq
  rcases List.eq_nil_or_concat q with rfl | ⟨q', x, rfl⟩
  · obtain ⟨rfl, hx⟩ := List.append_inj' hpq rfl
    exact hh task (List.singleton_inj.mp hx)
  · rw [List.concat_eq_append, ← List.cons_append, ← List.append_assoc] at hpq
    exact hl p q' task (List.append_inj' hpq rfl).1

/-- The tasks whose block handler is in the list. -/
def blockedTasks (l : List (Handler T)) : List (BlockRemoteAddressTask T) :=
  l.filterMap fun
    | .block task => some task
    | .unblock _ => none

theorem mem_blockedTasks {l : List (Handler T)} {task : BlockRemoteAddressTask T} :
    task ∈ blockedTasks l ↔ Handler.block task ∈ l := by
  unfold blockedTasks
  rw [List.mem_filterMap]
  constructor
  · intro h
    obtain ⟨h, hh, heq⟩ := h
    cases h with
    | block t =>
      cases heq
      exact hh
    | unblock t => cases heq
  · exact fun hh => ⟨_, hh, rfl⟩

theorem blockedTasks_append (l m : List (Handler T)) :
    blockedTasks (l ++ m) = blockedTasks l ++ blockedTasks m := List.filterMap_append

theorem nodup_blockedTasks {l : List (Handler T)} (h : l.Nodup) : (blockedTasks l).Nodup := by
  apply h.filterMap
  intro a b task ha hb
  cases a <;> cases b <;> simp_all

/-- The handlers that have run, oldest first. -/
def IoState.executed (s : IoState T) : List (Handler T) := s.loop.ran.map Prod.snd

variable [AddGroupWithOne T]

/-- The earliest time at which a handler may run. -/
def Handler.release : Handler T → T
  | .block task => task.createdAt
  | .unblock task => task.deadline

/-- The two handlers of every task. -/
def taskHandlers (tasks : List (BlockRemoteAddressTask T)) : List (Handler T) :=
  tasks.flatMap fun task => [.block task, .unblock task]

omit [AddGroupWithOne T] in
theorem mem_taskHandlers {tasks : List (BlockRemoteAddressTask T)} {h : Handler T} :
    h ∈ taskHandlers tasks ↔ ∃ task ∈ tasks, h = .block task ∨ h = .unblock task := by
  simp [taskHandlers]

variable [LinearOrder T]

structure IoState.Invariant (s : IoState T) : Prop where
  ids : s.tasks.map (·.id) = List.range s.tasks.length
  handlers : s.loop.handlers.Perm (taskHandlers s.tasks)
  blocksFirst : BlocksFirst s.loop.schedule
  timely : s.loop.Timely Handler.release
  timers : ∀ x ∈ s.loop.timers, ∃ task, x = (task.deadline, .unblock task)
  added : ∃ tasks : List (BlockRemoteAddressTask T), s.rules.added = tasks.map (·.rule) ∧
    tasks.Sublist (blockedTasks s.executed)

namespace IoState.Invariant
variable {s : IoState T}

theorem start (now : T) (present : List FirewallRule) :
    (IoState.start now present).Invariant where
  ids := rfl
  handlers := List.Perm.nil
  blocksFirst := BlocksFirst.nil
  timely := EventLoop.Timely.start now
  timers x hx := by cases hx
  added := ⟨[], rfl, List.Sublist.slnil⟩

theorem create (hs : s.Invariant) (rulePrefix : String) (letters : RandomLetters)
    (remoteAddress : String) (blockTime : ℤ) :
    (createBlockRemoteAddressTasks rulePrefix letters remoteAddress blockTime s).Invariant := by
  by_cases hpos : 0 < blockTime
  · rw [createBlockRemoteAddressTasks_of_pos s hpos]
    let task := newTask rulePrefix letters remoteAddress blockTime s
    refine ⟨?_, ?_, ?_, hs.timely.post_wait le_rfl le_rfl, ?_, hs.added⟩
    · rw [List.map_append, hs.ids, List.length_append, List.length_singleton, List.range_succ]
      rfl
    · refine (s.loop.handlers_post_wait (.block task) (.unblock task) task.deadline).trans ?_
      rw [taskHandlers, List.flatMap_append]
      exact hs.handlers.append_right _
    · rw [EventLoop.schedule_wait, EventLoop.schedule_post]
      refine hs.blocksFirst.snoc fun t h => ?_
      cases h
    · intro x hx
      rcases List.mem_append.mp hx with hx | hx
      · exact hs.timers x hx
      · exact ⟨task, List.mem_singleton.mp hx⟩
  · rw [createBlockRemoteAddressTasks_of_not_pos s hpos]
    exact hs

theorem advance (hs : s.Invariant) (t : T) :
    ({ s with loop := s.loop.advance t } : IoState T).Invariant where
  ids := hs.ids
  handlers := hs.handlers
  blocksFirst := hs.blocksFirst
  timely := hs.timely.advance t
  timers := hs.timers
  added := hs.added

/-- While a task's unblock handler waits in a timer, its block handler is in the schedule. -/
theorem block_mem_schedule (hs : s.Invariant) {x : T × Handler T} (hx : x ∈ s.loop.timers)
    {task : BlockRemoteAddressTask T} (ht : x.2 = .unblock task) :
    Handler.block task ∈ s.loop.schedule := by
  have hmem : Handler.unblock task ∈ s.loop.handlers := by
    rw [← ht]
    exact List.mem_append_right _ (List.mem_map_of_mem hx)
  obtain ⟨t, htask, h | h⟩ := mem_taskHandlers.mp (hs.handlers.mem_iff.mp hmem)
  · cases h
  · cases h
    have hblock : Handler.block task ∈ s.loop.handlers :=
      hs.handlers.mem_iff.mpr (mem_taskHandlers.mpr ⟨task, htask, Or.inl rfl⟩)
    rcases List.mem_append.mp hblock with hb | hb
    · exact hb
    · obtain ⟨y, hy, heq⟩ := List.mem_map.mp hb
      obtain ⟨u, rfl⟩ := hs.timers y hy
      cases heq

theorem expire (hs : s.Invariant) (k : ℕ) :
    ({ s with loop := s.loop.expire k } : IoState T).Invariant where
  ids := hs.ids
  handlers := (s.loop.handlers_expire k).trans hs.handlers
  blocksFirst := by
    rcases s.loop.expire_cases k with h | ⟨before, x, after, ht, hd, h⟩
    · rw [h]
      exact hs.blocksFirst
    · have hx : x ∈ s.loop.timers := by simp [ht]
      have hsched : (s.loop.expire k).schedule = s.loop.schedule ++ [x.2] := by
        rw [h]
        simp [EventLoop.schedule]
      rw [hsched]
      exact hs.blocksFirst.snoc fun task hu => hs.block_mem_schedule hx hu
  timely := hs.timely.expire k
  timers x hx := by
    rcases s.loop.expire_cases k with h | ⟨before, y, after, ht, hd, h⟩
    · rw [h] at hx
      exact hs.timers x hx
    · rw [h] at hx
      apply hs.timers x
      rw [ht]
      rcases List.mem_append.mp hx with hx | hx
      · exact List.mem_append_left _ hx
      · exact List.mem_append_right _ (List.mem_cons_of_mem _ hx)
  added := by
    unfold IoState.executed
    rw [s.loop.ran_expire]
    exact hs.added

end IoState.Invariant

omit [AddGroupWithOne T] [LinearOrder T] in
/-- What one handler does to the log of added rules. -/
theorem Handler.exec_added {mode : RemoveMode} {hr : ComResults} {rules rules' : FirewallRules}
    {h : Handler T} (hexec : h.exec mode hr rules = .ok rules') :
    rules'.added = rules.added ∨
      ∃ task, h = .block task ∧ rules'.added = rules.added ++ [task.rule] := by
  cases h with
  | block task =>
    simp only [Handler.exec] at hexec
    cases hb : blockInboundIP hr task.ruleName task.blockAddress rules with
    | error e =>
      rw [hb] at hexec
      cases hexec
    | ok result =>
      rw [hb] at hexec
      have hr' : result.2 = rules' := Except.ok.inj hexec
      rcases blockInboundIP_cases hb with h | h
      · exact Or.inl (by rw [← hr', h])
      · exact Or.inr ⟨task, rfl, by rw [← hr', h]; rfl⟩
  | unblock task =>
    left
    have hr' : (deleteRuleByName mode hr task.ruleName rules).2 = rules' := Except.ok.inj hexec
    rw [← hr']
    unfold deleteRuleByName
    split_ifs
    · rfl
    · rfl
    · cases mode <;> rfl
    · rfl

omit [AddGroupWithOne T] [LinearOrder T] in
/-- What running a handler can do: nothing is ready, the handler ends, or the process does. -/
theorem IoState.runHandler_cases (mode : RemoveMode) (hr : ComResults) (s : IoState T) :
    (s.loop.ready = [] ∧ s.runHandler mode hr = s) ∨
      ∃ h loop, s.loop.next? = some (h, loop) ∧
        ((∃ rules, h.exec mode hr s.rules = .ok rules ∧
            s.runHandler mode hr = { s with loop := loop, rules := rules }) ∨
          s.runHandler mode hr = { s with loop := loop, alive := false }) := by
  unfold IoState.runHandler
  cases hn : s.loop.next? with
  | none => exact Or.inl ⟨EventLoop.next?_eq_none.mp hn, rfl⟩
  | some x =>
    obtain ⟨h, loop⟩ := x
    refine Or.inr ⟨h, loop, rfl, ?_⟩
    dsimp only
    cases hexec : h.exec mode hr s.rules with
    | ok rules => exact Or.inl ⟨rules, rfl, rfl⟩
    | error e => exact Or.inr rfl

omit [AddGroupWithOne T] [LinearOrder T] in
theorem IoState.tasks_runHandler (mode : RemoveMode) (hr : ComResults) (s : IoState T) :
    (s.runHandler mode hr).tasks = s.tasks := by
  rcases s.runHandler_cases mode hr with ⟨_, h⟩ | ⟨_, _, _, ⟨_, _, h⟩ | h⟩ <;> rw [h]

omit [AddGroupWithOne T] [LinearOrder T] in
theorem IoState.now_runHandler (mode : RemoveMode) (hr : ComResults) (s : IoState T) :
    (s.runHandler mode hr).loop.now = s.loop.now := by
  rcases s.runHandler_cases mode hr with ⟨_, h⟩ | ⟨_, loop, hn, ⟨_, _, h⟩ | h⟩
  · rw [h]
  · obtain ⟨rest, _, rfl⟩ := EventLoop.next?_eq_some hn
    rw [h]
  · obtain ⟨rest, _, rfl⟩ := EventLoop.next?_eq_some hn
    rw [h]

omit [AddGroupWithOne T] in
/-- The clock never goes back. -/
theorem IoState.le_now_step (mode : RemoveMode) (s : IoState T) (step : IoStep T) :
    s.loop.now ≤ (s.step mode step).loop.now := by
  unfold IoState.step
  split_ifs
  · cases step with
    | advance t => exact s.loop.le_now_advance t
    | expire k => exact (s.loop.now_expire k).ge
    | run hr => exact (s.now_runHandler mode hr).ge
  · exact le_rfl

omit [AddGroupWithOne T] in
/-- Tasks come from the event threads alone. -/
theorem IoState.tasks_step (mode : RemoveMode) (s : IoState T) (step : IoStep T) :
    (s.step mode step).tasks = s.tasks := by
  unfold IoState.step
  split_ifs
  · cases step with
    | advance t => rfl
    | expire k => rfl
    | run hr => exact s.tasks_runHandler mode hr
  · rfl

namespace IoState.Invariant
variable {s : IoState T}

/-- Taking a handler off the queue keeps what does not depend on the rules. -/
theorem next (hs : s.Invariant) {h : Handler T} {loop : EventLoop T (Handler T)}
    (hn : s.loop.next? = some (h, loop)) {rules : FirewallRules} {alive : Bool}
    (hadded : rules.added = s.rules.added ∨
      ∃ task, h = .block task ∧ rules.added = s.rules.added ++ [task.rule]) :
    ({ s with loop := loop, rules := rules, alive := alive } : IoState T).Invariant where
  ids := hs.ids
  handlers := by
    rw [EventLoop.handlers_next hn]
    exact hs.handlers
  blocksFirst := by
    rw [EventLoop.schedule_next hn]
    exact hs.blocksFirst
  timely := hs.timely.next hn
  timers := by
    obtain ⟨rest, _, rfl⟩ := EventLoop.next?_eq_some hn
    exact hs.timers
  added := by
    obtain ⟨rest, _, rfl⟩ := EventLoop.next?_eq_some hn
    obtain ⟨tasks, htasks, hsub⟩ := hs.added
    simp only [IoState.executed, List.map_append, List.map_cons, List.map_nil, blockedTasks_append]
    rcases hadded with h' | ⟨task, rfl, h'⟩
    · exact ⟨tasks, by rw [h', htasks], hsub.trans (List.sublist_append_left _ _)⟩
    · refine ⟨tasks ++ [task], by rw [h', htasks, List.map_append]; rfl, ?_⟩
      exact hsub.append (List.Sublist.refl _)

theorem runHandler (hs : s.Invariant) (mode : RemoveMode) (hr : ComResults) :
    (s.runHandler mode hr).Invariant := by
  rcases s.runHandler_cases mode hr with ⟨_, h⟩ | ⟨h, loop, hn, ⟨rules, hexec, heq⟩ | heq⟩
  · rw [h]
    exact hs
  · rw [heq]
    exact hs.next hn (Handler.exec_added hexec)
  · rw [heq]
    exact hs.next hn (Or.inl rfl)

theorem step (hs : s.Invariant) (mode : RemoveMode) (step : IoStep T) :
    (s.step mode step).Invariant := by
  unfold IoState.step
  split_ifs
  · cases step with
    | advance t => exact hs.advance t
    | expire k => exact hs.expire k
    | run hr => exact hs.runHandler mode hr
  · exact hs

theorem act (hs : s.Invariant) (rulePrefix : String) (mode : RemoveMode) (a : TaskAction T) :
    (s.act rulePrefix mode a).Invariant := by
  cases a with
  | create letters remoteAddress blockTime =>
    unfold IoState.act
    dsimp only
    split_ifs
    · exact hs.create rulePrefix letters remoteAddress blockTime
    · exact hs
  | io step => exact hs.step mode step

/-- Every handler is given to the loop once. -/
theorem nodup_handlers (hs : s.Invariant) : s.loop.handlers.Nodup := by
  have htasks : s.tasks.Nodup := by
    apply List.Nodup.of_map (·.id)
    rw [hs.ids]
    exact List.nodup_range
  rw [hs.handlers.nodup_iff, taskHandlers, List.nodup_flatMap]
  refine ⟨fun task _ => by simp, ?_⟩
  refine htasks.imp fun {t u} hne h ht hu => ?_
  simp only [List.mem_cons, List.not_mem_nil, or_false] at ht hu
  rcases ht with rfl | rfl <;> rcases hu with h | h <;> cases h <;> exact hne rfl

theorem mem_tasks (hs : s.Invariant) {task : BlockRemoteAddressTask T}
    (h : Handler.block task ∈ s.loop.handlers ∨ Handler.unblock task ∈ s.loop.handlers) :
    task ∈ s.tasks := by
  rcases h with h | h
  · obtain ⟨t, ht, heq | heq⟩ := mem_taskHandlers.mp (hs.handlers.mem_iff.mp h)
    · cases heq
      exact ht
    · cases heq
  · obtain ⟨t, ht, heq | heq⟩ := mem_taskHandlers.mp (hs.handlers.mem_iff.mp h)
    · cases heq
    · cases heq
      exact ht

theorem eq_of_id_eq (hs : s.Invariant) {t u : BlockRemoteAddressTask T} (ht : t ∈ s.tasks)
    (hu : u ∈ s.tasks) (h : t.id = u.id) : t = u := by
  have hnodup : (s.tasks.map (·.id)).Nodup := by
    rw [hs.ids]
    exact List.nodup_range
  exact List.inj_on_of_nodup_map hnodup ht hu h

theorem nodup_schedule (hs : s.Invariant) : s.loop.schedule.Nodup :=
  (List.nodup_append.mp hs.nodup_handlers).1

theorem nodup_executed (hs : s.Invariant) : s.executed.Nodup :=
  (List.nodup_append.mp hs.nodup_schedule).1

/-- A handler that is ready has not run. -/
theorem not_mem_executed (hs : s.Invariant) {h : Handler T} (hh : h ∈ s.loop.ready) :
    h ∉ s.executed := by
  intro hran
  exact (List.nodup_append.mp hs.nodup_schedule).2.2 h hran h hh rfl

/-- While a block handler is still queued, its unblock handler has not run. -/
theorem unblock_not_mem_executed (hs : s.Invariant) {task : BlockRemoteAddressTask T}
    (hh : Handler.block task ∈ s.loop.ready) : Handler.unblock task ∉ s.executed := by
  intro hran
  obtain ⟨p, q, hpq⟩ := List.append_of_mem hran
  have hsched : s.loop.schedule = p ++ Handler.unblock task :: (q ++ s.loop.ready) := by
    change s.executed ++ s.loop.ready = _
    rw [hpq]
    simp
  have hblock := hs.blocksFirst p _ task hsched
  apply hs.not_mem_executed hh
  rw [hpq]
  exact List.mem_append_left _ hblock

end IoState.Invariant
end RDPBlocker
