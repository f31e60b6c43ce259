import RDPBlocker.Foundation.Log
import RDPBlocker.Guarantees.EventDecoding
import RDPBlocker.Program.Service
import RDPBlocker.Refinement.SystemRun

/-! The running program is its two event threads, each on the events that its own subscription
delivered. -/
namespace RDPBlocker
open Foundation Function
variable {B : Boost} {T : Type*}

def BlockRemoteAddressTask.request (task : BlockRemoteAddressTask T) : BlockRequest :=
  ⟨task.blockAddress, task.blockTime⟩

/-- The requests that lead to a task. -/
def positive (requests : List BlockRequest) : List BlockRequest :=
  requests.filter fun r => decide (0 < r.blockTime)

theorem positive_append (l m : List BlockRequest) :
    positive (l ++ m) = positive l ++ positive m := List.filter_append ..

theorem positive_toList (request : Option BlockRequest) :
    positive request.toList = [] ∨ ∃ r, request = some r ∧ positive request.toList = [r] := by
  cases request with
  | none => exact Or.inl rfl
  | some r =>
    by_cases h : 0 < r.blockTime
    · exact Or.inr ⟨r, rfl, List.filter_cons_of_pos (decide_eq_true h)⟩
    · exact Or.inl (List.filter_cons_of_neg (by simpa using h))

namespace System
variable [AddGroupWithOne T]

theorem tasks_submit_map (letters : RandomLetters) (request : Option BlockRequest)
    (s : System B T) : (submit letters request s).io.tasks.map (·.request) =
      s.io.tasks.map (·.request) ++ positive request.toList := by
  cases request with
  | none => exact (List.append_nil _).symm
  | some r =>
    change (createBlockRemoteAddressTasks _ _ _ _ s.io).tasks.map _ = _
    unfold positive
    by_cases hpos : 0 < r.blockTime
    · rw [createBlockRemoteAddressTasks_of_pos s.io hpos, List.map_append]
      simp [hpos, newTask, BlockRemoteAddressTask.request]
    · rw [createBlockRemoteAddressTasks_of_not_pos s.io hpos]
      simp [hpos]

@[simp] theorem alive_submit (letters : RandomLetters) (request : Option BlockRequest)
    (s : System B T) : (submit letters request s).io.alive = s.io.alive := by
  cases request with
  | none => rfl
  | some r =>
    change (createBlockRemoteAddressTasks _ _ _ _ s.io).alive = _
    by_cases hpos : 0 < r.blockTime
    · rw [createBlockRemoteAddressTasks_of_pos s.io hpos]
    · rw [createBlockRemoteAddressTasks_of_not_pos s.io hpos]

theorem tasks_finish_map (letters : RandomLetters)
    (result : Except MatchException (Option BlockRequest)) (s : System B T) :
    (finish letters result s).io.tasks.map (·.request) =
      s.io.tasks.map (·.request) ++ positive result.toOption.join.toList := by
  cases result with
  | ok request => exact tasks_submit_map letters request s
  | error err => exact (List.append_nil _).symm

theorem alive_finish {s : System B T} (halive : s.io.alive = true) (letters : RandomLetters)
    (result : Except MatchException (Option BlockRequest)) :
    (finish letters result s).io.alive = result.isOk := by
  cases result with
  | ok request => exact (alive_submit letters request s).trans halive
  | error err => rfl

variable [LinearOrder T]

/-- What an iteration makes of the system. -/
structure Processed (s : System B T) (remoteAddressMap : AddressMap) (g : ApplicationConfig B)
    (alive : Bool) (request : Option BlockRequest) (s' : System B T) : Prop where
  remoteAddressMap : s'.remoteAddressMap = remoteAddressMap
  gConfig : s'.gConfig = g
  alive : s'.io.alive = alive
  tasks : s'.io.tasks.map (·.request) =
    s.io.tasks.map (·.request) ++ positive request.toList

variable (readXml : String → Option PTree) (mode : RemoveMode) {s : System B T}

/-- The failed-login thread acts as it does alone. The bind table of the configuration, which the
other thread writes, makes no difference to it. -/
theorem processEvent_authFailed {g : ApplicationConfig B} {table : AList fun _ : String => String}
    (hg : s.gConfig = g.withBindTable table) (hs : s.FailBanRuns) (i : Iteration)
    (eventXmlData : String) :
    let t := (⟨s.remoteAddressMap, true⟩ : AuthFailedState).stepEvent readXml g
      (i.failure eventXmlData)
    s.Processed t.1.remoteAddressMap s.gConfig t.1.alive t.2
      (s.processEvent readXml mode .authFailed i eventXmlData) := by
  unfold processEvent AuthFailedState.stepEvent Iteration.failure
  rw [if_pos rfl]
  dsimp only
  cases hmap : eventDataToMap readXml eventXmlData ∅ with
  | error err => exact ⟨rfl, rfl, rfl, (List.append_nil _).symm⟩
  | ok result =>
    have hsame : processRdpAuthFailedEvent s.gConfig = processRdpAuthFailedEvent g := by
      rw [hg]
      rfl
    dsimp only
    rw [step_authFailed hs, hsame, AuthFailedState.step_of_alive rfl]
    refine ⟨remoteAddressMap_finish .., gConfig_finish .., ?_, tasks_finish_map ..⟩
    rw [alive_finish]
    exact hs.1

/-- The succeeded-login thread acts as it does alone. -/
theorem processEvent_authSucceed (hs : s.NameCheckRuns) (i : Iteration) (eventXmlData : String) :
    let t := (⟨s.gConfig, true⟩ : AuthSucceedState B).stepEvent readXml (i.login eventXmlData)
    s.Processed s.remoteAddressMap t.1.gConfig t.1.alive t.2
      (s.processEvent readXml mode .authSucceed i eventXmlData) := by
  unfold processEvent AuthSucceedState.stepEvent Iteration.login
  rw [if_pos rfl]
  dsimp only
  cases hmap : eventDataToMap readXml eventXmlData ∅ with
  | error err => exact ⟨rfl, rfl, rfl, (List.append_nil _).symm⟩
  | ok result =>
    dsimp only
    rw [step_authSucceed hs, AuthSucceedState.step_of_alive rfl]
    refine ⟨remoteAddressMap_finish .., gConfig_finish .., ?_, tasks_finish_map ..⟩
    rw [alive_finish]
    exact hs.1

end System

variable (readXml : String → Option PTree)

/-- Of its configuration, the succeeded-login thread changes the bind table alone. -/
theorem gConfig_authSucceedThread (g : ApplicationConfig B) (events : List AuthSucceedEvent) :
    ∃ table, (authSucceedThread readXml g events).gConfig = g.withBindTable table := by
  induction events using List.reverseRecOn with
  | nil => exact ⟨g.mWorkstationNameConfig.mBindTable, rfl⟩
  | append_singleton events e ih =>
    obtain ⟨table, htable⟩ := ih
    rw [authSucceedThread_snoc]
    unfold AuthSucceedState.stepEvent
    split_ifs with halive
    · cases eventDataToMap readXml e.eventXmlData ∅ with
      | error err => exact ⟨table, htable⟩
      | ok result =>
        dsimp only
        rw [AuthSucceedState.step_of_alive halive, htable]
        exact processRdpAuthSucceedEvent_withBindTable g table _
    · exact ⟨table, htable⟩

/-- The requests that a thread makes on its events. -/
def failedRequests (g : ApplicationConfig B) (events : List AuthFailedEvent) :
    List BlockRequest :=
  (Mealy.trace (AuthFailedState.stepEvent readXml g) ⟨∅, true⟩ events).filterMap (·.output)

def succeedRequests (g : ApplicationConfig B) (events : List AuthSucceedEvent) :
    List BlockRequest :=
  (Mealy.trace (AuthSucceedState.stepEvent readXml) ⟨g, true⟩ events).filterMap (·.output)

theorem failedRequests_snoc (g : ApplicationConfig B) (events : List AuthFailedEvent)
    (e : AuthFailedEvent) : failedRequests readXml g (events ++ [e]) =
      failedRequests readXml g events ++
        ((authFailedThread readXml g events).stepEvent readXml g e).2.toList := by
  unfold failedRequests
  rw [Mealy.trace_snoc, List.filterMap_append]
  rfl

theorem succeedRequests_snoc (g : ApplicationConfig B) (events : List AuthSucceedEvent)
    (e : AuthSucceedEvent) : succeedRequests readXml g (events ++ [e]) =
      succeedRequests readXml g events ++
        ((authSucceedThread readXml g events).stepEvent readXml e).2.toList := by
  unfold succeedRequests
  rw [Mealy.trace_snoc, List.filterMap_append]
  rfl

namespace Service

/-- The events that the failed-login thread has popped. -/
def failures (s : Service B T) : List AuthFailedEvent :=
  (s.popped .authFailed).map fun x => x.1.failure x.2

/-- The events that the succeeded-login thread has popped. -/
def successes (s : Service B T) : List AuthSucceedEvent :=
  (s.popped .authSucceed).map fun x => x.1.login x.2

/-- Each thread has popped a beginning of what its callback pushed, each is in the state that
these events alone would have led to, and the tasks are their requests in some order. -/
structure IsItsThreads (g : ApplicationConfig B) (s : Service B T) : Prop where
  queue : ∀ side, (s.popped side).map Prod.snd ++ (s.evt side).mQueue = s.pushed side
  remoteAddressMap :
    s.system.remoteAddressMap = (authFailedThread readXml g s.failures).remoteAddressMap
  gConfig : s.system.gConfig = (authSucceedThread readXml g s.successes).gConfig
  alive : s.system.io.alive = true → (authFailedThread readXml g s.failures).alive = true ∧
    (authSucceedThread readXml g s.successes).alive = true
  tasks : Interleaves (positive (failedRequests readXml g s.failures))
    (positive (succeedRequests readXml g s.successes)) (s.system.io.tasks.map (·.request))

namespace IsItsThreads
variable {readXml} {g : ApplicationConfig B} {s s' : Service B T}

theorem start (g : ApplicationConfig B) (now : T) (present : List FirewallRule) :
    IsItsThreads readXml g (start g now present) where
  queue side := by cases side <;> rfl
  remoteAddressMap := rfl
  gConfig := rfl
  alive _ := ⟨rfl, rfl⟩
  tasks := Interleaves.nil

theorem enabled (hs : IsItsThreads readXml g s) (side : EventSide) :
    side.enabled s.system.gConfig = side.enabled g := by
  obtain ⟨table, htable⟩ := gConfig_authSucceedThread readXml g s.successes
  rw [hs.gConfig, htable]
  cases side <;> rfl

/-- A step between the iterations. -/
theorem between (hs : IsItsThreads readXml g s) (hpopped : s'.popped = s.popped)
    (hqueue : ∀ side, (s'.popped side).map Prod.snd ++ (s'.evt side).mQueue = s'.pushed side)
    (hmap : s'.system.remoteAddressMap = s.system.remoteAddressMap)
    (hconfig : s'.system.gConfig = s.system.gConfig)
    (halive : s'.system.io.alive = true → s.system.io.alive = true)
    (htasks : s'.system.io.tasks = s.system.io.tasks) : IsItsThreads readXml g s' := by
  have hfailures : s'.failures = s.failures := by
    unfold failures
    rw [hpopped]
  have hsuccesses : s'.successes = s.successes := by
    unfold successes
    rw [hpopped]
  refine ⟨hqueue, ?_, ?_, fun h => ?_, ?_⟩
  · rw [hmap, hfailures]
    exact hs.remoteAddressMap
  · rw [hconfig, hsuccesses]
    exact hs.gConfig
  · rw [hfailures, hsuccesses]
    exact hs.alive (halive h)
  · rw [hfailures, hsuccesses, htasks]
    exact hs.tasks

theorem queue_update (hs : IsItsThreads readXml g s) (side : EventSide)
    {o : SubscribeSystemEventBase} {popped : List (Iteration × String)} {pushed : List String}
    (h : popped.map Prod.snd ++ o.mQueue = pushed) (side' : EventSide) :
    (update s.popped side popped side').map Prod.snd ++ (update s.evt side o side').mQueue =
      update s.pushed side pushed side' := by
  by_cases hside : side' = side
  · subst hside
    rw [update_self, update_self, update_self]
    exact h
  · rw [update_of_ne hside, update_of_ne hside, update_of_ne hside]
    exact hs.queue side'

/-- The queue of the side that pops. -/
theorem queue_iterate (hs : IsItsThreads readXml g s) {side : EventSide} {i : Iteration}
    {o : SubscribeSystemEventBase} {eventXmlData : String}
    (ho : (s.evt side).mQueue = eventXmlData :: o.mQueue) (side' : EventSide) :
    (update s.popped side (s.popped side ++ [(i, eventXmlData)]) side').map Prod.snd ++
      (update s.evt side o side').mQueue = s.pushed side' := by
  rw [← congrFun (update_eq_self side s.pushed) side']
  refine hs.queue_update side ?_ side'
  rw [← hs.queue side, ho, List.map_append, List.append_assoc]
  rfl

theorem failed (hs : IsItsThreads readXml g s) {e : AuthFailedEvent}
    (hqueue : ∀ side, (s'.popped side).map Prod.snd ++ (s'.evt side).mQueue = s'.pushed side)
    (hfailures : s'.failures = s.failures ++ [e]) (hsuccesses : s'.successes = s.successes)
    (halive : s.system.io.alive = true)
    (hprocessed : let t := (authFailedThread readXml g s.failures).stepEvent readXml g e
      s.system.Processed t.1.remoteAddressMap s.system.gConfig t.1.alive t.2 s'.system) :
    IsItsThreads readXml g s' := by
  refine ⟨hqueue, ?_, ?_, fun h => ?_, ?_⟩
  · rw [hfailures, authFailedThread_snoc, hprocessed.remoteAddressMap]
  · rw [hsuccesses, hprocessed.gConfig]
    exact hs.gConfig
  · rw [hfailures, hsuccesses, authFailedThread_snoc, ← hprocessed.alive]
    exact ⟨h, (hs.alive halive).2⟩
  · rw [hfailures, hsuccesses, failedRequests_snoc, positive_append, hprocessed.tasks]
    rcases positive_toList ((authFailedThread readXml g s.failures).stepEvent readXml g e).2 with
      hnone | ⟨r, -, hsome⟩
    · rw [hnone, List.append_nil, List.append_nil]
      exact hs.tasks
    · rw [hsome]
      exact hs.tasks.left r

theorem succeeded (hs : IsItsThreads readXml g s) {e : AuthSucceedEvent}
    (hqueue : ∀ side, (s'.popped side).map Prod.snd ++ (s'.evt side).mQueue = s'.pushed side)
    (hfailures : s'.failures = s.failures) (hsuccesses : s'.successes = s.successes ++ [e])
    (halive : s.system.io.alive = true)
    (hprocessed : let t := (authSucceedThread readXml g s.successes).stepEvent readXml e
      s.system.Processed s.system.remoteAddressMap t.1.gConfig t.1.alive t.2 s'.system) :
    IsItsThreads readXml g s' := by
  refine ⟨hqueue, ?_, ?_, fun h => ?_, ?_⟩
  · rw [hfailures, hprocessed.remoteAddressMap]
    exact hs.remoteAddressMap
  · rw [hsuccesses, authSucceedThread_snoc, hprocessed.gConfig]
  · rw [hfailures, hsuccesses, authSucceedThread_snoc, ← hprocessed.alive]
    exact ⟨(hs.alive halive).1, h⟩
  · rw [hfailures, hsuccesses, succeedRequests_snoc, positive_append, hprocessed.tasks]
    rcases positive_toList ((authSucceedThread readXml g s.successes).stepEvent readXml e).2 with
      hnone | ⟨r, -, hsome⟩
    · rw [hnone, List.append_nil, List.append_nil]
      exact hs.tasks
    · rw [hsome]
      exact hs.tasks.right r

variable [AddGroupWithOne T] [LinearOrder T] {mode : RemoveMode}

theorem iterated (hs : IsItsThreads readXml g s) {side : EventSide} {i : Iteration}
    {o : SubscribeSystemEventBase} {eventXmlData : String} (halive : s.system.io.alive = true)
    (henabled : side.enabled s.system.gConfig = true)
    (ho : (s.evt side).mQueue = eventXmlData :: o.mQueue) :
    IsItsThreads readXml g { s with
      evt := update s.evt side o
      system := s.system.processEvent readXml mode side i eventXmlData
      popped := update s.popped side (s.popped side ++ [(i, eventXmlData)]) } := by
  cases side with
  | authFailed =>
    obtain ⟨table, htable⟩ := gConfig_authSucceedThread readXml g s.successes
    have hthread : ⟨s.system.remoteAddressMap, true⟩ = authFailedThread readXml g s.failures := by
      rw [hs.remoteAddressMap, ← (hs.alive halive).1]
    have hprocessed := System.processEvent_authFailed readXml mode (hs.gConfig.trans htable)
      ⟨halive, henabled⟩ i eventXmlData
    rw [hthread] at hprocessed
    exact hs.failed (hs.queue_iterate ho) List.map_append rfl halive hprocessed
  | authSucceed =>
    have hthread : ⟨s.system.gConfig, true⟩ = authSucceedThread readXml g s.successes := by
      rw [hs.gConfig, ← (hs.alive halive).2]
    have hprocessed := System.processEvent_authSucceed readXml mode ⟨halive, henabled⟩ i
      eventXmlData
    rw [hthread] at hprocessed
    exact hs.succeeded (hs.queue_iterate ho) rfl List.map_append halive hprocessed

theorem effect (hs : IsItsThreads readXml g s) {a : ServiceAction T}
    (h : s.Effect readXml mode a s') : IsItsThreads readXml g s' := by
  cases h with
  | idle => exact hs
  | @subscribed side evtSubscribe o halive henabled ho =>
    refine hs.between rfl (fun side' => ?_) rfl rfl id rfl
    have hqueue := hs.queue_update side (o := o) (ho ▸ hs.queue side) side'
    rw [update_eq_self, update_eq_self] at hqueue
    exact hqueue
  | @refused side evtSubscribe o halive henabled hside ho hresult =>
    refine hs.between rfl (fun side' => ?_) rfl rfl (fun hdead => nomatch hdead) rfl
    have hqueue := hs.queue_update side (o := o) (ho ▸ hs.queue side) side'
    rw [update_eq_self, update_eq_self] at hqueue
    exact hqueue
  | @called side n o halive henabled ho =>
    refine hs.between rfl (fun side' => ?_) rfl rfl id rfl
    have hpush : (s.popped side).map Prod.snd ++ o.mQueue = s.pushed side ++ n.text?.toList := by
      rw [ho, ← hs.queue side, List.append_assoc]
    have hqueue := hs.queue_update side hpush side'
    rw [update_eq_self] at hqueue
    exact hqueue
  | iterated halive henabled ho => exact hs.iterated halive henabled ho
  | @io step halive =>
    exact hs.between rfl hs.queue rfl rfl (fun _ => halive) (s.system.io.tasks_step mode step)

theorem run (mode : RemoveMode) (hs : IsItsThreads readXml g s)
    (actions : List (ServiceAction T)) : IsItsThreads readXml g (s.run readXml mode actions) := by
  induction actions generalizing s with
  | nil => exact hs
  | cons a actions ih => exact ih (hs.effect (step_effect readXml mode s a))

end IsItsThreads
variable {readXml} [AddGroupWithOne T] [LinearOrder T] {mode : RemoveMode} {s s' : Service B T}

theorem not_alive_step (hdead : s.system.io.alive = false) (a : ServiceAction T) :
    (s.step readXml mode a).system.io.alive = false := by
  unfold step
  rw [if_neg (Bool.not_eq_true _ ▸ hdead)]
  exact hdead

theorem alive_of_alive_step {a : ServiceAction T}
    (h : (s.step readXml mode a).system.io.alive = true) : s.system.io.alive = true := by
  by_contra hdead
  rw [Bool.not_eq_true] at hdead
  exact Bool.false_ne_true ((not_alive_step hdead a).symm.trans h)

theorem run_snoc (readXml : String → Option PTree) (mode : RemoveMode) (s : Service B T)
    (actions : List (ServiceAction T)) (a : ServiceAction T) :
    s.run readXml mode (actions ++ [a]) =
      (s.run readXml mode actions).step readXml mode a := List.foldl_concat ..

/-- The text that a callback of the side delivers. -/
def deliveredTo (side : EventSide) : ServiceAction T → Option String
  | .callback other n => if other = side then n.text? else none
  | _ => none

theorem pushed_step {g : ApplicationConfig B} (hs : s.IsItsThreads readXml g)
    (halive : s.system.io.alive = true) {side : EventSide} (henabled : side.enabled g = true)
    (a : ServiceAction T) :
    (s.step readXml mode a).pushed side = s.pushed side ++ (deliveredTo side a).toList := by
  have hnone : s.pushed side = s.pushed side ++ (none : Option String).toList :=
    (List.append_nil _).symm
  unfold step
  rw [if_pos halive]
  cases a with
  | subscribe other evtSubscribe =>
    refine Eq.trans ?_ hnone
    dsimp only
    split_ifs
    · unfold subscribe
      dsimp only
      split_ifs <;> rfl
    · rfl
  | callback other n =>
    dsimp only [deliveredTo]
    by_cases hother : other = side
    · subst hother
      rw [hs.enabled, if_pos henabled, if_pos rfl]
      exact update_self ..
    · rw [if_neg hother]
      refine Eq.trans ?_ hnone
      split_ifs
      · exact update_of_ne (Ne.symm hother) ..
      · rfl
  | iterate other i =>
    refine Eq.trans ?_ hnone
    dsimp only
    split_ifs
    · unfold iterate
      split <;> rfl
    · rfl
  | io step => exact hnone

/-- While the program lives, every text that a callback delivers to a thread gets into its queue. -/
theorem pushed_run {g : ApplicationConfig B} {now : T} {present : List FirewallRule}
    {actions : List (ServiceAction T)}
    (halive : ((start g now present).run readXml mode actions).system.io.alive = true)
    {side : EventSide} (henabled : side.enabled g = true) :
    ((start g now present).run readXml mode actions).pushed side =
      actions.filterMap (deliveredTo side) := by
  induction actions using List.reverseRecOn with
  | nil => rfl
  | append_singleton actions a ih =>
    rw [run_snoc] at halive ⊢
    have hbefore := alive_of_alive_step halive
    have hthreads : ((start g now present).run readXml mode actions).IsItsThreads readXml g :=
      (IsItsThreads.start g now present).run mode actions
    rw [pushed_step hthreads hbefore henabled, ih hbefore, List.filterMap_append]
    cases hdelivered : deliveredTo side a <;> simp [hdelivered]

/-- What a living program does to the system is at most one step of the system. -/
theorem Effect.system {a : ServiceAction T} (h : s.Effect readXml mode a s')
    (halive : s'.system.io.alive = true) : s'.system = s.system ∨
      ∃ step, s'.system = s.system.step mode step ∧
        ∀ ioStep, step = .io ioStep → a = .io ioStep := by
  cases h with
  | idle => exact Or.inl rfl
  | subscribed => exact Or.inl rfl
  | refused => cases halive
  | called => exact Or.inl rfl
  | @iterated side i o eventXmlData _ _ _ =>
    right
    dsimp only at halive ⊢
    unfold System.processEvent at halive ⊢
    cases hmap : eventDataToMap readXml eventXmlData ∅ with
    | error err =>
      rw [hmap] at halive
      cases side <;> cases halive
    | ok result =>
      cases side with
      | authFailed => exact ⟨.authFailed _ _, rfl, fun _ h => by cases h⟩
      | authSucceed => exact ⟨.authSucceed _ _, rfl, fun _ h => by cases h⟩
  | @io step _ => exact Or.inr ⟨.io step, rfl, fun _ h => by cases h; rfl⟩

/-- As long as the program lives, its runs are runs of the system, with the same steps of the io
thread. -/
theorem exists_system_run (readXml : String → Option PTree) (mode : RemoveMode) (s : Service B T)
    (actions : List (ServiceAction T))
    (halive : (s.run readXml mode actions).system.io.alive = true) :
    ∃ steps, (s.run readXml mode actions).system = s.system.run mode steps ∧
      ∀ step, SystemAction.io step ∈ steps → ServiceAction.io step ∈ actions := by
  induction actions using List.reverseRecOn with
  | nil => exact ⟨[], rfl, fun _ h => absurd h List.not_mem_nil⟩
  | append_singleton actions a ih =>
    rw [run_snoc] at halive ⊢
    obtain ⟨steps, hsteps, hio⟩ := ih (alive_of_alive_step halive)
    rcases (step_effect readXml mode _ a).system halive with heq | ⟨step, heq, hstep⟩
    · refine ⟨steps, heq.trans hsteps, fun ioStep h => ?_⟩
      exact List.mem_append_left _ (hio ioStep h)
    · refine ⟨steps ++ [step], ?_, fun ioStep h => ?_⟩
      · rw [System.run_snoc, heq, hsteps]
      · rcases List.mem_append.mp h with h | h
        · exact List.mem_append_left _ (hio ioStep h)
        · apply List.mem_append_right
          rw [hstep ioStep (List.mem_singleton.mp h).symm]
          exact List.mem_singleton_self _

end Service
end RDPBlocker
