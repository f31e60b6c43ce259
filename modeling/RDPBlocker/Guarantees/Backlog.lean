import RDPBlocker.Guarantees.Service
import RDPBlocker.Guarantees.Settling

/-! The texts that wait in the queues: every schedule in which the threads get their turns comes to
the end of them. -/
namespace RDPBlocker
open Foundation Function
variable {B : Boost} {T : Type*} [AddGroupWithOne T] [LinearOrder T]
  {readXml : String → Option PTree} {mode : RemoveMode}

namespace System
variable {s : System B T}

omit [LinearOrder T] in
theorem now_submit (letters : RandomLetters) (request : Option BlockRequest) (s : System B T) :
    (submit letters request s).io.loop.now = s.io.loop.now := by
  cases request with
  | none => rfl
  | some r => exact now_createBlockRemoteAddressTasks ..

omit [LinearOrder T] in
theorem now_finish (letters : RandomLetters)
    (result : Except MatchException (Option BlockRequest)) (s : System B T) :
    (finish letters result s).io.loop.now = s.io.loop.now := by
  cases result with
  | ok request => exact now_submit letters request s
  | error err => rfl

theorem now_processEvent (readXml : String → Option PTree) (mode : RemoveMode) (s : System B T)
    (side : EventSide) (i : Iteration) (eventXmlData : String) :
    (s.processEvent readXml mode side i eventXmlData).io.loop.now = s.io.loop.now := by
  unfold processEvent
  cases eventDataToMap readXml eventXmlData ∅ with
  | error err => cases side <;> rfl
  | ok result =>
    cases side with
    | authFailed =>
      dsimp only [step]
      split_ifs
      · exact now_finish ..
      · rfl
    | authSucceed =>
      dsimp only [step]
      split_ifs
      · exact now_finish ..
      · rfl

end System

namespace Service
variable {s : Service B T} {g : ApplicationConfig B} {side : EventSide}

theorem iterate_of_nil (h : (s.evt side).mQueue = []) (i : Iteration) :
    s.iterate readXml mode side i = s := by
  unfold iterate
  rw [pop_eq, h]

theorem iterate_of_cons {eventXmlData : String} {rest : List String}
    (h : (s.evt side).mQueue = eventXmlData :: rest) (i : Iteration) :
    s.iterate readXml mode side i = { s with
      evt := update s.evt side { s.evt side with mQueue := rest }
      system := s.system.processEvent readXml mode side i eventXmlData
      popped := update s.popped side (s.popped side ++ [(i, eventXmlData)]) } := by
  unfold iterate
  rw [pop_eq, h]

/-- How many texts wait. -/
def waiting (s : Service B T) (side : EventSide) : ℕ := (s.evt side).mQueue.length

/-- Each thread that `main` starts is past its subscription. -/
def Waits (g : ApplicationConfig B) (s : Service B T) : Prop :=
  ∀ side, side.enabled g = true → s.subscribed side = true

/-- What an iteration leaves as it is, and how many texts wait afterwards. -/
theorem iterate_keeps (readXml : String → Option PTree) (mode : RemoveMode) (s : Service B T)
    (side : EventSide) (i : Iteration) :
    (∀ other, (s.iterate readXml mode side i).subscribed other = s.subscribed other) ∧
      (s.iterate readXml mode side i).pushed = s.pushed ∧
      (s.iterate readXml mode side i).system.io.loop.now = s.system.io.loop.now ∧
      ∀ other, (s.iterate readXml mode side i).waiting other =
        s.waiting other - if other = side then 1 else 0 := by
  cases hqueue : (s.evt side).mQueue with
  | nil =>
    rw [iterate_of_nil hqueue]
    refine ⟨fun _ => rfl, rfl, rfl, fun other => ?_⟩
    split_ifs with h
    · rw [h, waiting, hqueue]
      rfl
    · rfl
  | cons eventXmlData rest =>
    rw [iterate_of_cons hqueue]
    refine ⟨fun other => ?_, rfl, System.now_processEvent .., fun other => ?_⟩
    · by_cases h : other = side
      · subst h
        simp only [subscribed, update_self]
      · simp only [subscribed, update_of_ne h]
    · by_cases h : other = side
      · subst h
        simp only [waiting, update_self, hqueue, List.length_cons, if_true, Nat.add_sub_cancel]
      · simp only [waiting, update_of_ne h, if_neg h, Nat.sub_zero]

/-- The iterations of a schedule, in which each turn is for one of the threads. -/
def turns (schedule : List (EventSide × Iteration)) : List (ServiceAction T) :=
  schedule.map fun turn => .iterate turn.1 turn.2

/-- What a schedule leaves as it is, and how many texts wait after it. -/
structure TookTurns (g : ApplicationConfig B) (schedule : List (EventSide × Iteration))
    (s t : Service B T) : Prop where
  waits : t.Waits g
  pushed : t.pushed = s.pushed
  now : t.system.io.loop.now = s.system.io.loop.now
  waiting : ∀ side, side.enabled g = true →
    t.waiting side = s.waiting side - schedule.countP fun turn => decide (turn.1 = side)

theorem TookTurns.step {schedule : List (EventSide × Iteration)} {t : Service B T}
    (h : TookTurns g schedule s t) (ht : t.IsItsThreads readXml g)
    (halive : t.system.io.alive = true) (mode : RemoveMode) (side : EventSide) (i : Iteration) :
    TookTurns g (schedule ++ [(side, i)]) s (t.step readXml mode (.iterate side i)) := by
  obtain ⟨hsubscribed, hpushed, hnow, hwaiting⟩ := t.iterate_keeps readXml mode side i
  have hcount (other : EventSide) :
      (schedule ++ [(side, i)]).countP (fun turn => decide (turn.1 = other)) =
        schedule.countP (fun turn => decide (turn.1 = other)) + if other = side then 1 else 0 := by
    rw [List.countP_append, List.countP_singleton]
    simp only [decide_eq_true_eq, eq_comm (a := side)]
  unfold Service.step
  rw [if_pos halive]
  dsimp only
  rw [ht.enabled side]
  by_cases henabled : side.enabled g = true
  · rw [if_pos ⟨henabled, h.waits side henabled⟩]
    refine ⟨fun other hother => ?_, hpushed.trans h.pushed, hnow.trans h.now,
      fun other hother => ?_⟩
    · rw [hsubscribed]
      exact h.waits other hother
    · rw [hwaiting, h.waiting other hother, hcount, Nat.sub_sub]
  · rw [if_neg fun hboth => henabled hboth.1]
    refine ⟨h.waits, h.pushed, h.now, fun other hother => ?_⟩
    have hne : other ≠ side := by
      rintro rfl
      exact henabled hother
    rw [h.waiting other hother, hcount, if_neg hne, Nat.add_zero]

theorem tookTurns_run (hs : s.IsItsThreads readXml g) (hw : s.Waits g) (mode : RemoveMode)
    (schedule : List (EventSide × Iteration))
    (halive : (s.run readXml mode (turns schedule)).system.io.alive = true) :
    TookTurns g schedule s (s.run readXml mode (turns schedule)) := by
  induction schedule using List.reverseRecOn with
  | nil => exact ⟨hw, rfl, rfl, fun side _ => rfl⟩
  | append_singleton schedule turn ih =>
    have hturns : (turns (schedule ++ [turn]) : List (ServiceAction T)) =
        turns schedule ++ [.iterate turn.1 turn.2] := List.map_append
    rw [hturns, run_snoc] at halive ⊢
    have hbefore := alive_of_alive_step halive
    exact (ih hbefore).step (hs.run mode _) hbefore mode turn.1 turn.2

/-- The steps of the io thread act on the system alone. -/
theorem run_io (readXml : String → Option PTree) (mode : RemoveMode) (s : Service B T)
    (steps : List (IoStep T)) : s.run readXml mode (steps.map .io) =
      { s with system := s.system.run mode (steps.map .io) } := by
  induction steps generalizing s with
  | nil => rfl
  | cons step steps ih =>
    have hstep : s.step readXml mode (.io step) =
        { s with system := s.system.step mode (.io step) } := by
      unfold Service.step
      by_cases halive : s.system.io.alive = true
      · rw [if_pos halive]
      · have hidle : s.system.io.step mode step = s.system.io := if_neg halive
        rw [if_neg halive]
        simp only [System.step, hidle]
    exact (ih _).trans (by rw [hstep]; rfl)

end Service

/-- The queues are empty, every text that was pushed has been popped in its order, and the io
thread has nothing to do at the moment. -/
structure Service.CaughtUp (g : ApplicationConfig B) (s t : Service B T) : Prop where
  empty : ∀ side, side.enabled g = true → (t.evt side).mQueue = [] ∧
    (t.popped side).map Prod.snd = s.pushed side
  at_rest : t.system.io.loop.Quiescent
  now : t.system.io.loop.now = s.system.io.loop.now

/-- From every state that the program can be in after its subscriptions, every schedule with enough
turns for each thread comes to the end of the queues, whatever the threads read, and then the io
thread can carry out all that is due; or one of the turns ends the process. -/
theorem backlog_clears {g : ApplicationConfig B} {now : T} {present : List FirewallRule}
    {actions : List (ServiceAction T)} {s : Service B T}
    (hrun : (Service.start g now present).run readXml mode actions = s)
    (halive : s.system.io.alive = true) (hw : s.Waits g)
    {schedule : List (EventSide × Iteration)}
    (henough : ∀ side, side.enabled g = true →
      s.waiting side ≤ schedule.countP fun turn => decide (turn.1 = side)) :
    (∃ past turn later, schedule = past ++ turn :: later ∧
        (s.run readXml mode (Service.turns past)).Kills readXml (.iterate turn.1 turn.2)) ∨
      ∃ steps : List (IoStep T), (∀ hr, IoStep.run hr ∈ steps → hr = allSucceed) ∧
        (s.run readXml mode (Service.turns schedule ++ steps.map .io)).system.io.alive = true ∧
        s.CaughtUp g (s.run readXml mode (Service.turns schedule ++ steps.map .io)) := by
  have hs : s.IsItsThreads readXml g :=
    hrun ▸ (Service.IsItsThreads.start g now present).run mode actions
  cases hlives : (s.run readXml mode (Service.turns schedule)).system.io.alive with
  | false =>
    left
    obtain ⟨_, _, _, hsplit, -, hkills⟩ := (Service.alive_run_iff readXml mode halive _).mp hlives
    obtain ⟨past, rest, hschedule, rfl, hrest⟩ := List.map_eq_append_iff.mp hsplit
    obtain ⟨turn, later, rfl, rfl, -⟩ := List.map_eq_cons_iff.mp hrest
    exact ⟨past, turn, later, hschedule, hkills⟩
  | true =>
    right
    have htook := Service.tookTurns_run hs hw mode schedule hlives
    have hthreads := hs.run mode (Service.turns schedule)
    obtain ⟨rest, steps, ⟨hsteps, hsucceed, hsame, -⟩, hquiescent, hnow⟩ :=
      IoState.exists_settles_now hlives mode
    have hio : s.run readXml mode (Service.turns schedule ++ steps.map .io) =
        { s.run readXml mode (Service.turns schedule) with
          system := (s.run readXml mode (Service.turns schedule)).system.run mode
            (steps.map .io) } := by
      rw [← Service.run_io]
      exact List.foldl_append
    refine ⟨steps, hsucceed, ?_, ⟨fun side hside => ?_, ?_, ?_⟩⟩
    all_goals rw [hio]
    · rw [System.io_run, hsteps, hsame, hlives]
    · have hnone := htook.waiting side hside
      rw [Nat.sub_eq_zero_of_le (henough side hside)] at hnone
      have hempty := List.length_eq_zero_iff.mp hnone
      have hqueue := hthreads.queue side
      rw [hempty, List.append_nil] at hqueue
      refine ⟨hempty, hqueue.trans ?_⟩
      rw [htook.pushed]
    · rw [System.io_run, hsteps]
      exact hquiescent
    · rw [System.io_run, hsteps, hnow]
      exact htook.now

/-- Two failures wait, and the thread gets three turns. -/
def twoWaiting : List (ServiceAction ℤ) :=
  let failure : EvtNotification := .deliver { renderedContent := "<Event/>" }
  [.subscribe .authFailed fun _ _ => { handle := 1 }, .callback .authFailed failure,
    .callback .authFailed failure]

theorem backlog_clears_twoWaiting :
    let s := (Service.start threeInTen 0 [({ name := "Core" } : FirewallRule)]).run
      (readSample "<Event/>" [ipAddressElement.child]) .first twoWaiting
    let schedule : List (EventSide × Iteration) :=
      List.replicate 3 (.authFailed, ⟨0, 0, sameLetter (Fin.last _)⟩)
    (∃ past turn later, schedule = past ++ turn :: later ∧
        (s.run (readSample "<Event/>" [ipAddressElement.child]) .first
          (Service.turns past)).Kills (readSample "<Event/>" [ipAddressElement.child])
            (.iterate turn.1 turn.2)) ∨
      ∃ steps : List (IoStep ℤ), (∀ hr, IoStep.run hr ∈ steps → hr = allSucceed) ∧
        (s.run (readSample "<Event/>" [ipAddressElement.child]) .first
          (Service.turns schedule ++ steps.map .io)).system.io.alive = true ∧
        s.CaughtUp threeInTen (s.run (readSample "<Event/>" [ipAddressElement.child]) .first
          (Service.turns schedule ++ steps.map .io)) := by
  refine backlog_clears rfl rfl (fun side hside => ?_) fun side hside => ?_
  · cases side with
    | authFailed => rfl
    | authSucceed => cases hside
  · cases side with
    | authFailed => decide
    | authSucceed => cases hside

end RDPBlocker
