import RDPBlocker.Program.TaskInvariant

/-! With a firewall that obeys, the rules are those of the tasks blocked and not yet unblocked. -/
namespace RDPBlocker
open Foundation
variable {T : Type*} [LinearOrder T]

theorem eraseP_eq_filter_not {α : Type*} {p : α → Bool} {l : List α}
    (h : l.Pairwise fun a b => ¬ (p a = true ∧ p b = true)) :
    l.eraseP p = l.filter fun a => !p a := by
  induction l with
  | nil => rfl
  | cons a l ih =>
    have hl := List.pairwise_cons.mp h
    cases ha : p a with
    | true =>
      have hrest : ∀ b ∈ l, (!p b) = true := by
        intro b hb
        have hab := hl.1 b hb
        simp only [ha, true_and, Bool.not_eq_true] at hab
        rw [hab]
        rfl
      rw [List.eraseP_cons_of_pos ha, List.filter_cons_of_neg (by simp [ha])]
      exact (List.filter_eq_self.mpr hrest).symm
    | false =>
      rw [List.eraseP_cons_of_neg (by simp [ha]), List.filter_cons_of_pos (by simp [ha]),
        ih hl.2]

/-- When at most one rule has the name, it does not matter which one `Remove` picks. -/
theorem present_remove (mode : RemoveMode) {rules : FirewallRules} {name : String}
    (h : rules.present.Pairwise fun r r' => ¬ (r.name = name ∧ r'.name = name)) :
    (rules.remove mode name).present = rules.present.filter (·.name ≠ name) := by
  cases mode with
  | first =>
    have he := eraseP_eq_filter_not (l := rules.present) (p := fun r => decide (r.name = name))
      (h.imp fun hab => by simpa using hab)
    rw [FirewallRules.remove, he]
    simp only [decide_not, ne_eq]
  | all => rfl

/-- The tasks that a history of handlers has blocked and not unblocked. -/
def liveTasks (l : List (Handler T)) : List (BlockRemoteAddressTask T) :=
  (blockedTasks l).filter fun task => decide (Handler.unblock task ∉ l)

theorem mem_liveTasks {l : List (Handler T)} {task : BlockRemoteAddressTask T} :
    task ∈ liveTasks l ↔ Handler.block task ∈ l ∧ Handler.unblock task ∉ l := by
  rw [liveTasks, List.mem_filter, mem_blockedTasks, decide_eq_true_iff]

theorem liveTasks_block {l : List (Handler T)} {task : BlockRemoteAddressTask T}
    (h : Handler.unblock task ∉ l) :
    liveTasks (l ++ [.block task]) = liveTasks l ++ [task] := by
  unfold liveTasks
  rw [blockedTasks_append, List.filter_append]
  congr 1
  · apply List.filter_congr
    intro t ht
    simp
  · simp [blockedTasks, h]

theorem liveTasks_unblock (l : List (Handler T)) (task : BlockRemoteAddressTask T) :
    liveTasks (l ++ [.unblock task]) = (liveTasks l).filter (· ≠ task) := by
  unfold liveTasks
  rw [blockedTasks_append, List.filter_append, List.filter_filter]
  have hnil : blockedTasks [Handler.unblock task] = [] := rfl
  rw [hnil, List.filter_nil, List.append_nil]
  apply List.filter_congr
  intro t ht
  by_cases h : t = task <;> simp [h]

/-- The drawn names differ from each other and from those of the rules that were there. -/
structure FreshNames (foreign : List FirewallRule) (tasks : List (BlockRemoteAddressTask T)) :
    Prop where
  distinct : (tasks.map (·.ruleName)).Nodup
  apart : ∀ task ∈ tasks, ∀ r ∈ foreign, r.name ≠ task.ruleName

omit [LinearOrder T] in
theorem FreshNames.of_append {foreign : List FirewallRule}
    {tasks more : List (BlockRemoteAddressTask T)} (h : FreshNames foreign (tasks ++ more)) :
    FreshNames foreign tasks where
  distinct := by
    have hd := h.distinct
    rw [List.map_append] at hd
    exact (List.nodup_append.mp hd).1
  apart task ht := h.apart task (List.mem_append_left _ ht)

omit [LinearOrder T] in
theorem FreshNames.eq_of_ruleName_eq {foreign : List FirewallRule}
    {tasks : List (BlockRemoteAddressTask T)} (h : FreshNames foreign tasks)
    {t u : BlockRemoteAddressTask T} (ht : t ∈ tasks) (hu : u ∈ tasks)
    (heq : t.ruleName = u.ruleName) : t = u :=
  List.inj_on_of_nodup_map h.distinct ht hu heq

variable [AddGroupWithOne T]

theorem IoState.Invariant.mem_tasks_of_live {s : IoState T} (hs : s.Invariant)
    {task : BlockRemoteAddressTask T} (h : task ∈ liveTasks s.executed) : task ∈ s.tasks := by
  apply hs.mem_tasks
  left
  exact List.mem_append_left _ (List.mem_append_left _ (mem_liveTasks.mp h).1)

omit [LinearOrder T] [AddGroupWithOne T] in
theorem BlockRemoteAddressTask.exec_block (task : BlockRemoteAddressTask T) (mode : RemoveMode)
    (rules : FirewallRules) :
    (Handler.block task).exec mode allSucceed rules = .ok (rules.add task.rule) := by
  rw [Handler.exec, blockInboundIP_allSucceed]
  rfl

omit [LinearOrder T] [AddGroupWithOne T] in
theorem BlockRemoteAddressTask.exec_unblock (task : BlockRemoteAddressTask T) (mode : RemoveMode)
    (rules : FirewallRules) :
    (Handler.unblock task).exec mode allSucceed rules =
      .ok (rules.remove mode task.ruleName) := rfl

omit [LinearOrder T] [AddGroupWithOne T] in
theorem IoState.runHandler_of_exec {mode : RemoveMode} {hr : ComResults} {s : IoState T}
    {h : Handler T} {loop : EventLoop T (Handler T)} {rules : FirewallRules}
    (hn : s.loop.next? = some (h, loop)) (hexec : h.exec mode hr s.rules = .ok rules) :
    s.runHandler mode hr = { s with loop := loop, rules := rules } := by
  unfold IoState.runHandler
  rw [hn]
  dsimp only
  rw [hexec]

/-- The process lives, and the rules are those that were there and one for each live task. -/
structure IoState.InSync (foreign : List FirewallRule) (s : IoState T) : Prop where
  alive : s.alive = true
  present : s.rules.present = foreign ++ (liveTasks s.executed).map (·.rule)

namespace IoState.InSync
variable {s : IoState T} {foreign : List FirewallRule}

omit [AddGroupWithOne T] in
theorem start (now : T) : (IoState.start now foreign).InSync foreign where
  alive := rfl
  present := (List.append_nil foreign).symm

omit [AddGroupWithOne T] in
/-- What neither runs a handler nor touches the rules keeps them in step. -/
theorem of_eq (hs : s.InSync foreign) {s' : IoState T} (halive : s'.alive = s.alive)
    (hrules : s'.rules = s.rules) (hran : s'.loop.ran = s.loop.ran) : s'.InSync foreign where
  alive := by rw [halive, hs.alive]
  present := by rw [hrules, executed, hran, hs.present, executed]

/-- Under fresh names, at most one rule has the name of a task. -/
theorem pairwise_present (hs : s.InSync foreign) (hi : s.Invariant)
    (hn : FreshNames foreign s.tasks) {task : BlockRemoteAddressTask T} (ht : task ∈ s.tasks) :
    s.rules.present.Pairwise fun r r' => ¬ (r.name = task.ruleName ∧ r'.name = task.ruleName) := by
  rw [hs.present, List.pairwise_append]
  refine ⟨?_, ?_, ?_⟩
  · exact List.pairwise_of_forall_mem_list fun r hr _ _ h => hn.apart task ht r hr h.1
  · have hlive : (liveTasks s.executed).Nodup := (nodup_blockedTasks hi.nodup_executed).filter _
    rw [List.pairwise_map]
    refine hlive.imp_of_mem fun {t u} hmt hmu hne h => hne ?_
    apply hn.eq_of_ruleName_eq (hi.mem_tasks_of_live hmt) (hi.mem_tasks_of_live hmu)
    exact h.1.trans h.2.symm
  · exact fun r hr _ _ h => hn.apart task ht r hr h.1

theorem runHandler (hs : s.InSync foreign) (hi : s.Invariant) (hn : FreshNames foreign s.tasks)
    (mode : RemoveMode) : (s.runHandler mode allSucceed).InSync foreign := by
  rcases s.runHandler_cases mode allSucceed with ⟨_, heq⟩ | ⟨h, loop, hnext, _⟩
  · rw [heq]
    exact hs
  obtain ⟨rest, hready, hloop⟩ := EventLoop.next?_eq_some hnext
  have hmem : h ∈ s.loop.ready := by
    rw [hready]
    exact List.mem_cons_self
  have hran : loop.ran.map Prod.snd = s.executed ++ [h] := by
    rw [hloop, List.map_append]
    rfl
  cases h with
  | block task =>
    rw [IoState.runHandler_of_exec hnext (task.exec_block mode s.rules)]
    refine ⟨hs.alive, ?_⟩
    rw [executed, hran, liveTasks_block (hi.unblock_not_mem_executed hmem), List.map_append,
      ← List.append_assoc, ← hs.present]
    rfl
  | unblock task =>
    have htask : task ∈ s.tasks :=
      hi.mem_tasks (Or.inr (List.mem_append_left _ (List.mem_append_right _ hmem)))
    rw [IoState.runHandler_of_exec hnext (task.exec_unblock mode s.rules)]
    refine ⟨hs.alive, ?_⟩
    rw [executed, hran, liveTasks_unblock, present_remove mode (hs.pairwise_present hi hn htask),
      hs.present, List.filter_append]
    congr 1
    · rw [List.filter_eq_self]
      intro r hr
      exact decide_eq_true (hn.apart task htask r hr)
    · rw [List.filter_map]
      congr 1
      apply List.filter_congr
      intro t ht
      -- Among the tasks, having the name of one of them is being that one.
      have hiff : t.ruleName = task.ruleName ↔ t = task :=
        ⟨hn.eq_of_ruleName_eq (hi.mem_tasks_of_live ht) htask, fun h => by rw [h]⟩
      exact decide_eq_decide.mpr (not_congr hiff)

theorem create (hs : s.InSync foreign) (rulePrefix : String) (letters : RandomLetters)
    (remoteAddress : String) (blockTime : ℤ) :
    (createBlockRemoteAddressTasks rulePrefix letters remoteAddress blockTime s).InSync foreign := by
  by_cases hpos : 0 < blockTime
  · rw [createBlockRemoteAddressTasks_of_pos s hpos]
    exact hs.of_eq rfl rfl rfl
  · rw [createBlockRemoteAddressTasks_of_not_pos s hpos]
    exact hs

theorem act (hs : s.InSync foreign) (hi : s.Invariant) (hn : FreshNames foreign s.tasks)
    (rulePrefix : String) (mode : RemoveMode) {a : TaskAction T}
    (ha : ∀ hr, a = .io (.run hr) → hr = allSucceed) :
    (s.act rulePrefix mode a).InSync foreign := by
  cases a with
  | create letters remoteAddress blockTime =>
    have hact : s.act rulePrefix mode (.create letters remoteAddress blockTime) =
        createBlockRemoteAddressTasks rulePrefix letters remoteAddress blockTime s :=
      if_pos hs.alive
    rw [hact]
    exact hs.create rulePrefix letters remoteAddress blockTime
  | io step =>
    simp only [IoState.act, IoState.step]
    rw [if_pos hs.alive]
    cases step with
    | advance t => exact hs.of_eq rfl rfl rfl
    | expire k => exact hs.of_eq rfl rfl (s.loop.ran_expire k)
    | run hr =>
      rw [ha hr rfl]
      exact hs.runHandler hi hn mode

end IoState.InSync

/-- A run of the two event threads' creations, the clock, the timers and the io thread. -/
def IoState.run (rulePrefix : String) (mode : RemoveMode) (s : IoState T)
    (actions : List (TaskAction T)) : IoState T :=
  actions.foldl (IoState.act rulePrefix mode) s

theorem IoState.Invariant.run {s : IoState T} (hs : s.Invariant) (rulePrefix : String)
    (mode : RemoveMode) (actions : List (TaskAction T)) :
    (s.run rulePrefix mode actions).Invariant := by
  induction actions generalizing s with
  | nil => exact hs
  | cons a actions ih => exact ih (hs.act rulePrefix mode a)

/-- Tasks are only ever added. -/
theorem IoState.tasks_act (rulePrefix : String) (mode : RemoveMode) (s : IoState T)
    (a : TaskAction T) : ∃ more, (s.act rulePrefix mode a).tasks = s.tasks ++ more := by
  cases a with
  | create letters remoteAddress blockTime =>
    simp only [IoState.act]
    by_cases halive : s.alive = true
    · rw [if_pos halive]
      by_cases hpos : 0 < blockTime
      · rw [createBlockRemoteAddressTasks_of_pos s hpos]
        exact ⟨_, rfl⟩
      · rw [createBlockRemoteAddressTasks_of_not_pos s hpos]
        exact ⟨[], (List.append_nil _).symm⟩
    · rw [if_neg halive]
      exact ⟨[], (List.append_nil _).symm⟩
  | io step =>
    refine ⟨[], ?_⟩
    rw [List.append_nil]
    exact s.tasks_step mode step

theorem IoState.InSync.run {foreign : List FirewallRule} {rulePrefix : String} {mode : RemoveMode}
    {now : T} {actions : List (TaskAction T)}
    (hsucceed : ∀ hr, TaskAction.io (.run hr) ∈ actions → hr = allSucceed)
    (hn : FreshNames foreign ((IoState.start now foreign).run rulePrefix mode actions).tasks) :
    ((IoState.start now foreign).run rulePrefix mode actions).InSync foreign := by
  induction actions using List.reverseRecOn with
  | nil => exact IoState.InSync.start now
  | append_singleton past a ih =>
    have hrun : (IoState.start now foreign).run rulePrefix mode (past ++ [a]) =
        ((IoState.start now foreign).run rulePrefix mode past).act rulePrefix mode a := by
      unfold IoState.run
      rw [List.foldl_append]
      rfl
    rw [hrun] at hn ⊢
    obtain ⟨more, hmore⟩ := IoState.tasks_act rulePrefix mode
      ((IoState.start now foreign).run rulePrefix mode past) a
    rw [hmore] at hn
    have hpast : FreshNames foreign
        ((IoState.start now foreign).run rulePrefix mode past).tasks := hn.of_append
    apply (ih (fun hr h => hsucceed hr (List.mem_append_left _ h)) hpast).act
    · exact (IoState.Invariant.start now foreign).run rulePrefix mode past
    · exact hpast
    · intro hr h
      exact hsucceed hr (by simp [h])

end RDPBlocker
