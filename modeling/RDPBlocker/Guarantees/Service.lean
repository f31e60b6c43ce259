import RDPBlocker.Guarantees.FirewallCalls
import RDPBlocker.Guarantees.Justification
import RDPBlocker.Refinement.Service

/-! The running program as a whole: what its threads can do to one another, which events its rules
come from, and what ends it. -/
namespace RDPBlocker
open Foundation Function
variable {B : Boost} {T : Type*} [AddGroupWithOne T] [LinearOrder T]
  {readXml : String → Option PTree} {mode : RemoveMode}

/-- However the callbacks, the two event threads and the io thread interleave, no event is lost or
overtaken by another one of its side, each thread is in the state that its events alone lead to,
and the tasks are the requests that the two threads would make alone, merged in order. -/
theorem service_is_its_threads (readXml : String → Option PTree) (mode : RemoveMode)
    (g : ApplicationConfig B) (now : T) (present : List FirewallRule)
    (actions : List (ServiceAction T)) :
    ((Service.start g now present).run readXml mode actions).IsItsThreads readXml g ∧
      (((Service.start g now present).run readXml mode actions).system.io.alive = true →
        ∀ side, side.enabled g = true →
          ((Service.start g now present).run readXml mode actions).pushed side =
            actions.filterMap (Service.deliveredTo side)) :=
  ⟨(Service.IsItsThreads.start g now present).run mode actions,
    fun halive _ => Service.pushed_run halive⟩

/-- The event may lead to a rule for the address. -/
structure Accuses (readXml : String → Option PTree) (g : ApplicationConfig B) (side : EventSide)
    (eventXmlData address : String) : Prop where
  enabled : side.enabled g = true
  counted : Counted g address
  decoded : ∃ status eventAttr, eventDataToMap readXml eventXmlData ∅ = .ok (status, eventAttr) ∧
    eventAttr.get "IpAddress" = address ∧
      (side = .authSucceed → eventAttr.get "LogonType" = "3")

theorem requestedLogin {g : ApplicationConfig B} {i : AuthSucceedInput} {r : BlockRequest}
    (h : (processRdpAuthSucceedEvent g i).2.toOption.join = some r) :
    Counted g i.ipAddress ∧ r.remoteAddress = i.ipAddress ∧ i.logonType = "3" := by
  rw [((Records.start g).process i).2] at h
  obtain ⟨hrejects, hrejection⟩ := decision_eq_some (eq_ok_some_of_join h)
  obtain ⟨hvalid, hwhite, rfl⟩ := rejection_eq_some.mp hrejection
  exact ⟨⟨hvalid, hwhite⟩, rfl, (relevant_login.mp hrejects.1).1⟩

namespace System
variable {s : System B T}

/-- An iteration adds no task, or one that its event accounts for. -/
theorem tasks_processEvent (readXml : String → Option PTree) (mode : RemoveMode)
    (s : System B T) (side : EventSide) (i : Iteration) (eventXmlData : String) :
    (s.processEvent readXml mode side i eventXmlData).io.tasks = s.io.tasks ∨
      ∃ task, task.id = s.io.tasks.length ∧
        Accuses readXml s.gConfig side eventXmlData task.blockAddress ∧
        (s.processEvent readXml mode side i eventXmlData).io.tasks = s.io.tasks ++ [task] := by
  unfold processEvent
  cases hmap : eventDataToMap readXml eventXmlData ∅ with
  | error err => cases side <;> exact Or.inl rfl
  | ok result =>
    obtain ⟨status, eventAttr⟩ := result
    cases side with
    | authFailed =>
      rcases s.tasks_step mode (.authFailed ⟨i.now, i.randomDelay, eventAttr⟩ i.letters) with
        heq | ⟨r, task, hr, hid, haddress, heq⟩
      · exact Or.inl heq
      · unfold request at hr
        dsimp only at hr
        split_ifs at hr with hruns
        obtain ⟨hcounted, hip, -⟩ := request_process hr
        refine Or.inr ⟨task, hid, ⟨hruns.2, ?_, status, eventAttr, hmap, ?_, nofun⟩, heq⟩
        · rw [haddress, hip]
          exact hcounted
        · exact hip.symm.trans haddress.symm
    | authSucceed =>
      rcases s.tasks_step mode (.authSucceed ⟨i.randomDelay, eventAttr⟩ i.letters) with
        heq | ⟨r, task, hr, hid, haddress, heq⟩
      · exact Or.inl heq
      · unfold request at hr
        dsimp only at hr
        split_ifs at hr with hruns
        obtain ⟨hcounted, hip, htype⟩ := requestedLogin hr
        refine Or.inr ⟨task, hid, ⟨hruns.2, ?_, status, eventAttr, hmap, ?_, fun _ => htype⟩, heq⟩
        · rw [haddress, hip]
          exact hcounted
        · exact hip.symm.trans haddress.symm

theorem invariant_processEvent (hs : s.io.Invariant) (side : EventSide) (i : Iteration)
    (eventXmlData : String) :
    (s.processEvent readXml mode side i eventXmlData).io.Invariant := by
  unfold processEvent
  cases eventDataToMap readXml eventXmlData ∅ with
  | error err =>
    cases side <;> exact ⟨hs.ids, hs.handlers, hs.blocksFirst, hs.timely, hs.timers, hs.added⟩
  | ok result => cases side <;> exact invariant_step hs mode _

end System

namespace Service
variable {s s' : Service B T} {a : ServiceAction T}

theorem invariant_effect (hs : s.system.io.Invariant) (h : s.Effect readXml mode a s') :
    s'.system.io.Invariant := by
  cases h with
  | idle => exact hs
  | subscribed => exact hs
  | refused => exact ⟨hs.ids, hs.handlers, hs.blocksFirst, hs.timely, hs.timers, hs.added⟩
  | called => exact hs
  | iterated => exact System.invariant_processEvent hs _ _ _
  | io => exact System.invariant_step hs mode _

theorem invariant_run (readXml : String → Option PTree) (mode : RemoveMode)
    (g : ApplicationConfig B) (now : T) (present : List FirewallRule)
    (actions : List (ServiceAction T)) :
    ((start g now present).run readXml mode actions).system.io.Invariant := by
  induction actions using List.reverseRecOn with
  | nil => exact IoState.Invariant.start now present
  | append_singleton actions a ih =>
    unfold run at ih ⊢
    rw [List.foldl_concat]
    exact invariant_effect ih (step_effect _ _ _ a)

/-- Only a callback writes to the texts that were pushed. -/
theorem pushed_effect (h : s.Effect readXml mode a s') (side : EventSide) :
    s'.pushed side = s.pushed side ∨ ∃ n eventXmlData, a = .callback side n ∧
      n.text? = some eventXmlData ∧ s'.pushed side = s.pushed side ++ [eventXmlData] := by
  cases h with
  | @called side' n o =>
    by_cases hside : side = side'
    · subst hside
      dsimp only
      rw [update_self]
      cases hn : n.text? with
      | none => exact Or.inl (List.append_nil _)
      | some eventXmlData => exact Or.inr ⟨n, eventXmlData, rfl, hn, rfl⟩
    · exact Or.inl (update_of_ne hside _ _)
  | _ => exact Or.inl rfl

theorem popped_effect (h : s.Effect readXml mode a s') (side : EventSide) :
    s'.popped side = s.popped side ∨ ∃ x, s'.popped side = s.popped side ++ [x] := by
  cases h with
  | @iterated side' i o eventXmlData =>
    by_cases hside : side = side'
    · subst hside
      exact Or.inr ⟨_, update_self _ _ _⟩
    · exact Or.inl (update_of_ne hside _ _)
  | _ => exact Or.inl rfl

/-- Only an iteration adds a task, and it pops the event that accounts for it. -/
theorem tasks_effect (h : s.Effect readXml mode a s') :
    s'.system.io.tasks = s.system.io.tasks ∨ ∃ side i eventXmlData rest task,
      a = .iterate side i ∧ (s.evt side).mQueue = eventXmlData :: rest ∧
        s'.popped side = s.popped side ++ [(i, eventXmlData)] ∧
        task.id = s.system.io.tasks.length ∧
        Accuses readXml s.system.gConfig side eventXmlData task.blockAddress ∧
        s'.system.io.tasks = s.system.io.tasks ++ [task] := by
  cases h with
  | @iterated side i o eventXmlData halive henabled ho =>
    rcases s.system.tasks_processEvent readXml mode side i eventXmlData with
      heq | ⟨task, hid, haccuses, heq⟩
    · exact Or.inl heq
    · exact Or.inr ⟨side, i, eventXmlData, o.mQueue, task, rfl, ho, update_self _ _ _, hid,
        haccuses, heq⟩
  | io => exact Or.inl (s.system.io.tasks_step mode _)
  | _ => exact Or.inl rfl

theorem grows_pushed (readXml : String → Option PTree) (mode : RemoveMode) (side : EventSide) :
    Grows (step readXml mode) fun s : Service B T => s.pushed side := by
  intro s a
  rcases pushed_effect (step_effect _ _ s a) side with h | ⟨_, eventXmlData, _, _, h⟩
  · exact Or.inl h
  · exact Or.inr ⟨eventXmlData, h⟩

theorem grows_popped (readXml : String → Option PTree) (mode : RemoveMode) (side : EventSide) :
    Grows (step readXml mode) fun s : Service B T => s.popped side :=
  fun s a => popped_effect (step_effect _ _ s a) side

theorem grows_tasks (readXml : String → Option PTree) (mode : RemoveMode) :
    Grows (step readXml mode) fun s : Service B T => s.system.io.tasks := by
  intro s a
  rcases tasks_effect (step_effect _ _ s a) with h | ⟨_, _, _, _, task, _, _, _, _, _, h⟩
  · exact Or.inl h
  · exact Or.inr ⟨task, h⟩

variable {g : ApplicationConfig B} {now : T} {present : List FirewallRule}
  {actions : List (ServiceAction T)} {task : BlockRemoteAddressTask T}

/-- What the checks of an event read of the configuration stays as it was at the start. -/
theorem accuses_run {side : EventSide} {eventXmlData address : String}
    (h : Accuses readXml ((start g now present).run readXml mode actions).system.gConfig side
      eventXmlData address) : Accuses readXml g side eventXmlData address := by
  obtain ⟨table, htable⟩ := gConfig_authSucceedThread readXml g
    ((start g now present).run readXml mode actions).successes
  have hthreads : ((start g now present).run readXml mode actions).IsItsThreads readXml g :=
    (IsItsThreads.start g now present).run mode actions
  rw [hthreads.gConfig, htable] at h
  exact ⟨by cases side <;> exact h.enabled, h.counted, h.decoded⟩

/-- The task goes back to the callback at place `k` of the run: an iteration popped the text that
the callback pushed, and created the task for it. -/
def ComesFrom (readXml : String → Option PTree) (mode : RemoveMode) (s : Service B T)
    (actions : List (ServiceAction T)) (task : BlockRemoteAddressTask T) (k : ℕ) : Prop :=
  ∃ side n past later past' i later' eventXmlData,
    actions = past ++ .callback side n :: later ∧ past.length = k ∧
      n.text? = some eventXmlData ∧
      Accuses readXml s.system.gConfig side eventXmlData task.blockAddress ∧
      actions = past' ++ .iterate side i :: later' ∧
      ((s.run readXml mode past').popped side).length =
        ((s.run readXml mode past).pushed side).length ∧
      ((s.run readXml mode past').popped side).length <
        (((s.run readXml mode past').step readXml mode (.iterate side i)).popped side).length ∧
      (s.run readXml mode past').system.io.tasks.length = task.id

/-- The text that a thread pops next was pushed by some callback. -/
theorem exists_callback {side : EventSide} {eventXmlData : String} {rest : List String}
    (hqueue : (((start g now present).run readXml mode actions).evt side).mQueue =
      eventXmlData :: rest) :
    ∃ past n later, actions = past ++ .callback side n :: later ∧
      n.text? = some eventXmlData ∧
      (((start g now present).run readXml mode past).pushed side).length =
        (((start g now present).run readXml mode actions).popped side).length := by
  have hthreads : ((start g now present).run readXml mode actions).IsItsThreads readXml g :=
    (IsItsThreads.start g now present).run mode actions
  have hpushed := hthreads.queue side
  rw [hqueue] at hpushed
  have hplace : (((start g now present).run readXml mode actions).pushed side)[
      (((start g now present).run readXml mode actions).popped side).length]? =
        some eventXmlData := by
    rw [← hpushed, List.getElem?_append_right (by rw [List.length_map]), List.length_map,
      Nat.sub_self]
    rfl
  obtain ⟨past, a, later, hsplit, hlength, hwrites⟩ :=
    (grows_pushed readXml mode side).exists_writer (s := start g now present) rfl hplace
  rcases pushed_effect (step_effect readXml mode
    ((start g now present).run readXml mode past) a) side with heq | ⟨n, text, rfl, htext, heq⟩
  · have hsame := List.append_right_eq_self.mp (hwrites.symm.trans heq)
    cases hsame
  · have hsame := List.append_cancel_left (hwrites.symm.trans heq)
    cases hsame
    exact ⟨past, n, later, hsplit, htext, hlength⟩

theorem comesFrom_of_mem
    (ht : task ∈ ((start g now present).run readXml mode actions).system.io.tasks) :
    ∃ k, ComesFrom readXml mode (start g now present) actions task k := by
  obtain ⟨id, hid⟩ := List.getElem?_of_mem ht
  obtain ⟨past', a, later', hsplit', hlength', hwrites'⟩ :=
    (grows_tasks readXml mode).exists_writer (s := start g now present) rfl hid
  rcases tasks_effect (step_effect readXml mode
    ((start g now present).run readXml mode past') a) with
    heq | ⟨side, i, eventXmlData, rest, new, rfl, hqueue, hpopped, hid', haccuses, heq⟩
  · have hsame := List.append_right_eq_self.mp (hwrites'.symm.trans heq)
    cases hsame
  · have hnew := List.append_cancel_left (hwrites'.symm.trans heq)
    cases hnew
    obtain ⟨past, n, later, hsplit, htext, hlength⟩ := exists_callback hqueue
    refine ⟨past.length, side, n, past, later ++ .iterate side i :: later', past', i, later',
      eventXmlData, ?_, rfl, htext, accuses_run haccuses, hsplit', hlength.symm, ?_, hid'.symm⟩
    · rw [hsplit', hsplit, List.append_assoc, List.cons_append]
    · rw [hpopped, List.length_append]
      exact Nat.lt_succ_self _

/-- Different tasks go back to different callbacks. -/
theorem ComesFrom.id_unique {s : Service B T} {t u : BlockRemoteAddressTask T} {k : ℕ}
    (ht : ComesFrom readXml mode s actions t k) (hu : ComesFrom readXml mode s actions u k) :
    t.id = u.id := by
  obtain ⟨side, n, past, later, past', i, later', text, hsplit, hk, -, -, hsplit', hlength,
    hpops, hid⟩ := ht
  obtain ⟨side₂, n₂, past₂, later₂, past₂', i₂, later₂', text₂, hsplit₂, hk₂, -, -, hsplit₂',
    hlength₂, hpops₂, hid₂⟩ := hu
  obtain ⟨rfl, hcallback⟩ := List.append_inj (hsplit.symm.trans hsplit₂) (hk.trans hk₂.symm)
  cases hcallback
  have hplace := (grows_popped readXml mode side).writer_unique (s := s)
    (hsplit'.symm.trans hsplit₂') (hlength.trans hlength₂.symm) hpops hpops₂
  obtain ⟨rfl, -⟩ := List.append_inj (hsplit'.symm.trans hsplit₂') hplace
  exact hid.symm.trans hid₂

end Service

/-- However the callbacks and the threads interleave and whatever the firewall answers, the rules
ever added go back to distinct callbacks, each of which delivered the event that accounts for its
rule. -/
theorem every_rule_has_its_own_callback (readXml : String → Option PTree) (mode : RemoveMode)
    (g : ApplicationConfig B) (now : T) (present : List FirewallRule)
    (actions : List (ServiceAction T)) :
    ∃ origin : Fin ((Service.start g now present).run readXml mode
        actions).system.io.rules.added.length → Fin actions.length,
      Function.Injective origin ∧ ∀ k, ∃ side n eventXmlData,
        actions.get (origin k) = .callback side n ∧ n.text? = some eventXmlData ∧
          Accuses readXml g side eventXmlData (((Service.start g now present).run readXml mode
            actions).system.io.rules.added.get k).remoteAddresses := by
  have hi := Service.invariant_run readXml mode g now present actions
  obtain ⟨tasks, hrules, hsub⟩ := hi.added
  have hnodup : tasks.Nodup := (nodup_blockedTasks hi.nodup_executed).sublist hsub
  have hcreated : ∀ k, tasks.get k ∈
      ((Service.start g now present).run readXml mode actions).system.io.tasks := by
    intro k
    have hblock := mem_blockedTasks.mp (hsub.subset (tasks.get_mem k))
    exact hi.mem_tasks (Or.inl (List.mem_append_left _ (List.mem_append_left _ hblock)))
  choose origin horigin using fun k => Service.comesFrom_of_mem (hcreated k)
  have hlength : ((Service.start g now present).run readXml mode
      actions).system.io.rules.added.length = tasks.length := by rw [hrules, List.length_map]
  have hlt : ∀ k, origin k < actions.length := by
    intro k
    obtain ⟨_, _, past, later, _, _, _, _, hsplit, hk, -⟩ := horigin k
    rw [hsplit, ← hk, List.length_append, List.length_cons]
    omega
  refine ⟨fun k => ⟨origin (k.cast hlength), hlt _⟩, fun k l hkl => ?_, fun k => ?_⟩
  · have horigins : origin (k.cast hlength) = origin (l.cast hlength) := congrArg Fin.val hkl
    have hk := horigin (k.cast hlength)
    rw [horigins] at hk
    have htask := hi.eq_of_id_eq (hcreated _) (hcreated _) (hk.id_unique (horigin _))
    have hval : (k.cast hlength).val = (l.cast hlength).val :=
      congrArg Fin.val (hnodup.injective_get htask)
    exact Fin.ext hval
  · obtain ⟨side, n, past, later, _, _, _, eventXmlData, hsplit, hk, htext, haccuses, -⟩ :=
      horigin (k.cast hlength)
    refine ⟨side, n, eventXmlData, ?_, htext, ?_⟩
    · simp [hsplit, ← hk]
    · have hget : (((Service.start g now present).run readXml mode
          actions).system.io.rules.added.get k) = (tasks.get (k.cast hlength)).rule := by
        simp [hrules]
      rw [hget]
      exact haccuses

/-- The login is checked against a text that is no expression. -/
def ChecksNoExpression (g : ApplicationConfig B) (i : AuthSucceedInput) : Prop :=
  (loginPolicy g).Checks i.login ∧ ∃ e, (loginPolicy g).record [i.login] i.userName = some e ∧
    B.regexAccepts e = false

/-- The search for an expression of the white list in the address gets too complex, and none of the
expressions before it is found there. -/
def AddressTooComplex (g : ApplicationConfig B) (ipAddress : String) : Prop :=
  isVaildIpAddress B ipAddress = true ∧ ∃ before expression after,
    g.mIpConfig.mWhitelist = before ++ expression :: after ∧
      (∀ other ∈ before, B.regexSearch other.expression ipAddress = some false) ∧
        B.regexSearch expression.expression ipAddress = none

/-- The login is checked against an expression, and the search for it in the name gets too
complex. -/
def NameTooComplex (g : ApplicationConfig B) (i : AuthSucceedInput) : Prop :=
  (loginPolicy g).Checks i.login ∧ ∃ e, (loginPolicy g).record [i.login] i.userName = some e ∧
    B.regexAccepts e = true ∧ B.regexSearch e i.workstationName = none

theorem not_whitelistReturns_iff {g : ApplicationConfig B} {ipAddress : String} :
    ¬ WhitelistReturns g ipAddress ↔ AddressTooComplex g ipAddress := by
  have hthrows : ∀ expression : Regex B, (∃ err, regexIsMatch expression ipAddress = .error err) ↔
      B.regexSearch expression.expression ipAddress = none := by
    intro expression
    unfold regexIsMatch
    cases B.regexSearch expression.expression ipAddress <;> simp
  have hany : (∃ err, g.mIpConfig.isWhiteAddress ipAddress = .error err) ↔
      ∃ before expression after, g.mIpConfig.mWhitelist = before ++ expression :: after ∧
        (∀ other ∈ before, regexIsMatch other ipAddress = .ok false) ∧
          ∃ err, regexIsMatch expression ipAddress = .error err := anyM_eq_error
  simp only [hthrows, regexIsMatch_eq_ok] at hany
  unfold WhitelistReturns AddressTooComplex
  rw [Classical.not_imp, ← hany]
  refine and_congr_right fun _ => ?_
  cases g.mIpConfig.isWhiteAddress ipAddress <;> simp

theorem not_loginReturns_iff {g : ApplicationConfig B} {i : AuthSucceedInput} :
    ¬ LoginReturns g [] i ↔ ChecksNoExpression g i ∨ NameTooComplex g i ∨
      (loginPolicy g).Rejects [] i.login ∧ AddressTooComplex g i.ipAddress := by
  rw [← not_whitelistReturns_iff]
  constructor
  · intro h
    by_contra hnone
    rw [not_or, not_or] at hnone
    obtain ⟨hexpression, hname, haddress⟩ := hnone
    have haccepts : RecordAccepted g [] i := by
      intro hchecks e he
      by_contra hrefused
      exact hexpression ⟨hchecks, e, he, Bool.not_eq_true _ ▸ hrefused⟩
    refine h ⟨haccepts, fun hchecks e he => ?_, fun hrejects => ?_⟩
    · rw [← Option.ne_none_iff_exists']
      exact fun hcomplex => hname ⟨hchecks, e, he, haccepts hchecks e he, hcomplex⟩
    · by_contra hthrows
      exact haddress ⟨hrejects, hthrows⟩
  · rintro (⟨hchecks, e, he, hrefused⟩ | ⟨hchecks, e, he, -, hcomplex⟩ | ⟨hrejects, hthrows⟩) h
    · exact Bool.false_ne_true (hrefused.symm.trans (h.1 hchecks e he))
    · obtain ⟨found, hfound⟩ := h.2.name hchecks e he
      cases hcomplex.symm.trans hfound
    · exact hthrows (h.2.address hrejects)

theorem processRdpAuthSucceedEvent_throws_iff (g : ApplicationConfig B) (i : AuthSucceedInput) :
    (processRdpAuthSucceedEvent g i).2.isOk = false ↔ ChecksNoExpression g i ∨
      NameTooComplex g i ∨
        (loginPolicy g).Rejects [] i.login ∧ AddressTooComplex g i.ipAddress := by
  rw [((Records.start g).process i).2, ← not_loginReturns_iff, ← decision_isOk_iff,
    Bool.not_eq_true]

omit [AddGroupWithOne T] [LinearOrder T] in
theorem Handler.exec_throws_iff (mode : RemoveMode) (hr : ComResults) (rules : FirewallRules)
    (h : Handler T) : (∃ e, h.exec mode hr rules = .error e) ↔ (∃ task, h = .block task) ∧
      hr .createPolicy = true ∧ hr .getRules = true ∧ hr .createRule = false := by
  cases h with
  | unblock task => simp [Handler.exec]
  | block task =>
    simp only [Handler.exec, Handler.block.injEq, exists_eq', true_and]
    cases hpolicy : hr .createPolicy with
    | false =>
      rw [blockInboundIP_of_unavailable (Or.inl hpolicy)]
      refine iff_of_false ?_ (fun h => Bool.false_ne_true h.1)
      rintro ⟨e, he⟩
      cases he
    | true =>
      cases hrules : hr .getRules with
      | false =>
        rw [blockInboundIP_of_unavailable (Or.inr hrules)]
        refine iff_of_false ?_ (fun h => Bool.false_ne_true h.2.1)
        rintro ⟨e, he⟩
        cases he
      | true =>
        cases hrule : hr .createRule with
        | false =>
          rw [blockInboundIP_of_no_rule hpolicy hrules hrule]
          exact iff_of_true ⟨_, rfl⟩ ⟨rfl, rfl, rfl⟩
        | true =>
          rw [blockInboundIP_of_rule hpolicy hrules hrule]
          refine iff_of_false ?_ (fun h => Bool.false_ne_true h.2.2.symm)
          rintro ⟨e, he⟩
          cases he

namespace Service
variable {s : Service B T}

/-- The iteration throws, after it has decoded its event. -/
def IterationThrows (g : ApplicationConfig B) (i : Iteration) (eventAttr : EventAttr) :
    EventSide → Prop
  | .authFailed => AddressTooComplex g (eventAttr.get "IpAddress")
  | .authSucceed =>
    let login : AuthSucceedInput := ⟨i.randomDelay, eventAttr⟩
    ChecksNoExpression g login ∨ NameTooComplex g login ∨
      (loginPolicy g).Rejects [] login.login ∧ AddressTooComplex g login.ipAddress

/-- The step ends the process: a subscription is refused, a text cannot be decoded, a login is
checked against a text that is no expression, the search for an expression gets too complex in the
name of a login or in an address, or a rule object cannot be created. -/
def Kills (readXml : String → Option PTree) (s : Service B T) : ServiceAction T → Prop
  | .subscribe side evtSubscribe =>
    side.enabled s.system.gConfig = true ∧ s.subscribed side = false ∧
      (evtSubscribe (s.evt side).mPath (s.evt side).mQuery).handle = 0
  | .callback _ _ => False
  | .iterate side i =>
    side.enabled s.system.gConfig = true ∧ s.subscribed side = true ∧
      ∃ eventXmlData rest, (s.evt side).mQueue = eventXmlData :: rest ∧
        (¬ Decodable readXml eventXmlData ∨
          IterationThrows s.system.gConfig i (decode readXml eventXmlData) side)
  | .io (.run hr) =>
    (∃ task rest, s.system.io.loop.ready = Handler.block task :: rest) ∧
      hr .createPolicy = true ∧ hr .getRules = true ∧ hr .createRule = false
  | .io _ => False

omit [AddGroupWithOne T] [LinearOrder T] in
theorem alive_subscribe_iff (halive : s.system.io.alive = true) (side : EventSide)
    (evtSubscribe : EvtSubscribe) :
    (s.subscribe side evtSubscribe).system.io.alive = false ↔
      (evtSubscribe (s.evt side).mPath (s.evt side).mQuery).handle = 0 := by
  obtain ⟨hresult, -, -⟩ := subscribe_eq (s.evt side) evtSubscribe
  unfold subscribe
  dsimp only
  rw [hresult]
  by_cases hzero : (evtSubscribe (s.evt side).mPath (s.evt side).mQuery).handle = 0
  · simp [hzero, System.ended]
  · simp [hzero, halive]

theorem alive_processEvent_iff {s : System B T} (halive : s.io.alive = true) {side : EventSide}
    (henabled : side.enabled s.gConfig = true) (i : Iteration) (eventXmlData : String) :
    (s.processEvent readXml mode side i eventXmlData).io.alive = false ↔
      ¬ Decodable readXml eventXmlData ∨
        IterationThrows s.gConfig i (decode readXml eventXmlData) side := by
  cases side with
  | authFailed =>
    have hsame : s.gConfig = s.gConfig.withBindTable s.gConfig.mWorkstationNameConfig.mBindTable :=
      rfl
    rw [(System.processEvent_authFailed readXml mode hsame ⟨halive, henabled⟩ i eventXmlData).alive,
      ← Bool.not_eq_true, AuthFailedState.alive_stepEvent, and_iff_right rfl, not_and_or,
      not_whitelistReturns_iff]
    rfl
  | authSucceed =>
    rw [(System.processEvent_authSucceed readXml mode ⟨halive, henabled⟩ i eventXmlData).alive]
    by_cases hdecodable : Decodable readXml eventXmlData
    · rw [AuthSucceedState.stepEvent_of_decodable readXml _ hdecodable,
        AuthSucceedState.step_of_alive rfl]
      dsimp only
      rw [processRdpAuthSucceedEvent_throws_iff]
      rw [or_iff_right (not_not_intro hdecodable)]
      rfl
    · refine iff_of_true ?_ (Or.inl hdecodable)
      rw [← Bool.not_eq_true]
      exact fun h => hdecodable (AuthSucceedState.of_alive_stepEvent readXml h).2

omit [AddGroupWithOne T] [LinearOrder T] in
theorem alive_runHandler_iff {s : IoState T} (halive : s.alive = true) (hr : ComResults) :
    (s.runHandler mode hr).alive = false ↔
      (∃ task rest, s.loop.ready = Handler.block task :: rest) ∧
        hr .createPolicy = true ∧ hr .getRules = true ∧ hr .createRule = false := by
  unfold IoState.runHandler
  cases hready : s.loop.ready with
  | nil =>
    rw [EventLoop.next?_eq_none.mpr hready]
    simp [halive]
  | cons h rest =>
    have hnext : s.loop.next? =
        some (h, { s.loop with ready := rest, ran := s.loop.ran ++ [(s.loop.now, h)] }) := by
      unfold EventLoop.next?
      rw [hready]
    have hthrows := Handler.exec_throws_iff mode hr s.rules h
    rw [hnext]
    simp only [List.cons.injEq, exists_eq_right'] at hthrows ⊢
    cases hexec : h.exec mode hr s.rules with
    | error e =>
      rw [hexec] at hthrows
      exact iff_of_true rfl (hthrows.mp ⟨e, rfl⟩)
    | ok rules =>
      rw [hexec] at hthrows
      refine iff_of_false (by simp [halive]) (mt hthrows.mpr nofun)

theorem alive_iterate_iff (halive : s.system.io.alive = true) {side : EventSide}
    (henabled : side.enabled s.system.gConfig = true) (i : Iteration) :
    (s.iterate readXml mode side i).system.io.alive = false ↔
      ∃ eventXmlData rest, (s.evt side).mQueue = eventXmlData :: rest ∧
        (¬ Decodable readXml eventXmlData ∨
          IterationThrows s.system.gConfig i (decode readXml eventXmlData) side) := by
  unfold iterate
  rw [pop_eq]
  cases hqueue : (s.evt side).mQueue with
  | nil => simp [halive]
  | cons eventXmlData rest =>
    simp only [List.cons.injEq]
    refine (alive_processEvent_iff halive henabled i eventXmlData).trans ?_
    constructor
    · exact fun h => ⟨eventXmlData, rest, ⟨rfl, rfl⟩, h⟩
    · rintro ⟨_, _, ⟨rfl, rfl⟩, h⟩
      exact h

theorem alive_step_iff (halive : s.system.io.alive = true) (a : ServiceAction T) :
    (s.step readXml mode a).system.io.alive = false ↔ s.Kills readXml a := by
  have hlives : ¬ s.system.io.alive = false := by
    rw [halive]
    exact nofun
  unfold step
  rw [if_pos halive]
  cases a with
  | subscribe side evtSubscribe =>
    dsimp only
    split_ifs with h
    · rw [alive_subscribe_iff halive]
      exact ⟨fun hzero => ⟨h.1, h.2, hzero⟩, fun hkills => hkills.2.2⟩
    · exact iff_of_false hlives fun hkills => h ⟨hkills.1, hkills.2.1⟩
  | callback side n =>
    dsimp only
    split_ifs
    · exact iff_of_false hlives id
    · exact iff_of_false hlives id
  | iterate side i =>
    dsimp only
    split_ifs with h
    · rw [alive_iterate_iff halive h.1]
      exact ⟨fun hpops => ⟨h.1, h.2, hpops⟩, fun hkills => hkills.2.2⟩
    · exact iff_of_false hlives fun hkills => h ⟨hkills.1, hkills.2.1⟩
  | io step =>
    have hstep : (s.system.step mode (.io step)).io = s.system.io.step mode step := rfl
    dsimp only
    rw [hstep]
    unfold IoState.step
    rw [if_pos halive]
    cases step with
    | advance t => exact iff_of_false hlives id
    | expire k => exact iff_of_false hlives id
    | run hr => exact alive_runHandler_iff halive hr

/-- A process ends at the first step that kills it. -/
theorem alive_run_iff (readXml : String → Option PTree) (mode : RemoveMode)
    (halive : s.system.io.alive = true) (actions : List (ServiceAction T)) :
    (s.run readXml mode actions).system.io.alive = false ↔
      ∃ past a later, actions = past ++ a :: later ∧
        (s.run readXml mode past).system.io.alive = true ∧
        (s.run readXml mode past).Kills readXml a := by
  have hlives : ¬ s.system.io.alive = false := by
    rw [halive]
    exact Bool.noConfusion
  unfold Service.run
  rw [foldl_iff_exists_step (P := fun s : Service B T => s.system.io.alive = false)
    (fun _ a hdead => not_alive_step hdead a) hlives]
  constructor
  · rintro ⟨past, a, later, hsplit, hbefore, hdead⟩
    rw [Bool.not_eq_false] at hbefore
    exact ⟨past, a, later, hsplit, hbefore, (alive_step_iff hbefore a).mp hdead⟩
  · rintro ⟨past, a, later, hsplit, hbefore, hkills⟩
    refine ⟨past, a, later, hsplit, ?_, (alive_step_iff hbefore a).mpr hkills⟩
    rw [Bool.not_eq_false]
    exact hbefore

end Service

/-- The process ends by one of five causes, at the first step that has one: a refused subscription,
a text that cannot be decoded, a login that is checked against a text that is no expression, a
search for an expression that gets too complex, and a rule object that cannot be created. -/
theorem service_ends_iff (readXml : String → Option PTree) (mode : RemoveMode)
    (g : ApplicationConfig B) (now : T) (present : List FirewallRule)
    (actions : List (ServiceAction T)) :
    ((Service.start g now present).run readXml mode actions).system.io.alive = false ↔
      ∃ past a later, actions = past ++ a :: later ∧
        ((Service.start g now present).run readXml mode past).system.io.alive = true ∧
        ((Service.start g now present).run readXml mode past).Kills readXml a :=
  Service.alive_run_iff readXml mode rfl actions

end RDPBlocker
