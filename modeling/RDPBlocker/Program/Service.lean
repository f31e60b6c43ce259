import RDPBlocker.Program.EventData
import RDPBlocker.Program.SubscribeSystemEvent
import RDPBlocker.Program.System

/-! The running program: the two event threads with their subscriptions, and the io thread. -/
namespace RDPBlocker
open Foundation Function
variable {B : Boost} {T : Type*}

inductive EventSide
  | authFailed
  | authSucceed
deriving DecidableEq, Repr

/-- What one iteration of an event thread reads besides the event, and the letters of the rule
name that it would draw. -/
structure Iteration where
  now : ℤ
  randomDelay : ℤ
  letters : RandomLetters

def Iteration.failure (i : Iteration) (eventXmlData : String) : AuthFailedEvent :=
  ⟨i.now, i.randomDelay, eventXmlData⟩

def Iteration.login (i : Iteration) (eventXmlData : String) : AuthSucceedEvent :=
  ⟨i.randomDelay, eventXmlData⟩

/-- `main` starts the thread of the side. -/
def EventSide.enabled (g : ApplicationConfig B) : EventSide → Bool
  | .authFailed => g.mFailBan.mEnable
  | .authSucceed => g.mWorkstationNameConfig.mEnableCheck

namespace System

variable [AddGroupWithOne T] [LinearOrder T]

/-- The rest of an iteration after `Pop`. What `EventDataToMap` throws ends the process; the
failed-login thread has purged its records by then. -/
def processEvent (readXml : String → Option PTree) (mode : RemoveMode) (s : System B T)
    (side : EventSide) (i : Iteration) (eventXmlData : String) : System B T :=
  match side, eventDataToMap readXml eventXmlData ∅ with
  | .authFailed, .ok (_, eventAttr) =>
    s.step mode (.authFailed ⟨i.now, i.randomDelay, eventAttr⟩ i.letters)
  | .authFailed, .error _ =>
    ended { s with remoteAddressMap := deleteExpireRemoteAddress i.now s.remoteAddressMap }
  | .authSucceed, .ok (_, eventAttr) =>
    s.step mode (.authSucceed ⟨i.randomDelay, eventAttr⟩ i.letters)
  | .authSucceed, .error _ => s.ended

end System

structure Service (B : Boost) (T : Type*) where
  evt : EventSide → SubscribeSystemEventBase
  system : System B T
  /-- History: the texts that the callbacks pushed, oldest first. -/
  pushed : EventSide → List String
  /-- History: the texts that the threads popped, each with the iteration. -/
  popped : EventSide → List (Iteration × String)

/-- A step of one of the event threads, of the system that calls back, or of the rest. -/
inductive ServiceAction (T : Type*)
  | subscribe (side : EventSide) (evtSubscribe : EvtSubscribe)
  | callback (side : EventSide) (notification : EvtNotification)
  | iterate (side : EventSide) (i : Iteration)
  | io (step : IoStep T)

namespace Service

/-- The state in which `main` starts the threads. -/
def start (g : ApplicationConfig B) (now : T) (present : List FirewallRule) : Service B T where
  evt
    | .authFailed => rdpAuthFailedEvent
    | .authSucceed => rdpAuthSucceedEvent
  system := System.start g now present
  pushed _ := []
  popped _ := []

/-- `Subscribe` has been called, and has succeeded. -/
def subscribed (s : Service B T) (side : EventSide) : Bool :=
  (s.evt side).mHandleSubscription.isVaild eventLogHandleTraits

/-- The beginning of an event thread. -/
def subscribe (s : Service B T) (side : EventSide) (evtSubscribe : EvtSubscribe) : Service B T :=
  let (result, o, _) := (s.evt side).subscribe evtSubscribe
  let s := { s with evt := update s.evt side o }
  if result = true then s else { s with system := s.system.ended }

def callback (s : Service B T) (side : EventSide) (n : EvtNotification) : Service B T :=
  { s with
    evt := update s.evt side ((s.evt side).subscriptionCallback n).2.1
    pushed := update s.pushed side (s.pushed side ++ n.text?.toList) }

variable [AddGroupWithOne T] [LinearOrder T] (readXml : String → Option PTree) (mode : RemoveMode)

/-- One iteration of an event thread; with an empty queue it waits. -/
def iterate (s : Service B T) (side : EventSide) (i : Iteration) : Service B T :=
  match (s.evt side).pop with
  | .ok (some (eventXmlData, o)) =>
    { s with
      evt := update s.evt side o
      system := s.system.processEvent readXml mode side i eventXmlData
      popped := update s.popped side (s.popped side ++ [(i, eventXmlData)]) }
  | _ => s

/-- The system may call back before `Subscribe` has returned. -/
def step (s : Service B T) (a : ServiceAction T) : Service B T :=
  if s.system.io.alive = true then
    match a with
    | .subscribe side evtSubscribe =>
      if side.enabled s.system.gConfig = true ∧ s.subscribed side = false then
        s.subscribe side evtSubscribe
      else s
    | .callback side n => if side.enabled s.system.gConfig = true then s.callback side n else s
    | .iterate side i =>
      if side.enabled s.system.gConfig = true ∧ s.subscribed side = true then
        s.iterate readXml mode side i
      else s
    | .io step => { s with system := s.system.step mode (.io step) }
  else s

def run (s : Service B T) (actions : List (ServiceAction T)) : Service B T :=
  actions.foldl (step readXml mode) s

/-- What a step does, once for every kind. -/
inductive Effect (s : Service B T) : ServiceAction T → Service B T → Prop
  | idle (a : ServiceAction T) : Effect s a s
  | subscribed {side : EventSide} {evtSubscribe : EvtSubscribe} {o : SubscribeSystemEventBase}
      (halive : s.system.io.alive = true) (henabled : side.enabled s.system.gConfig = true)
      (ho : o.mQueue = (s.evt side).mQueue) :
      Effect s (.subscribe side evtSubscribe) { s with evt := update s.evt side o }
  | refused {side : EventSide} {evtSubscribe : EvtSubscribe} {o : SubscribeSystemEventBase}
      (halive : s.system.io.alive = true) (henabled : side.enabled s.system.gConfig = true)
      (hside : s.subscribed side = false) (ho : o.mQueue = (s.evt side).mQueue)
      (hresult : ((s.evt side).subscribe evtSubscribe).1 = false) :
      Effect s (.subscribe side evtSubscribe)
        { s with evt := update s.evt side o, system := s.system.ended }
  | called {side : EventSide} {n : EvtNotification} {o : SubscribeSystemEventBase}
      (halive : s.system.io.alive = true) (henabled : side.enabled s.system.gConfig = true)
      (ho : o.mQueue = (s.evt side).mQueue ++ n.text?.toList) :
      Effect s (.callback side n) { s with
        evt := update s.evt side o
        pushed := update s.pushed side (s.pushed side ++ n.text?.toList) }
  | iterated {side : EventSide} {i : Iteration} {o : SubscribeSystemEventBase}
      {eventXmlData : String} (halive : s.system.io.alive = true)
      (henabled : side.enabled s.system.gConfig = true)
      (ho : (s.evt side).mQueue = eventXmlData :: o.mQueue) :
      Effect s (.iterate side i) { s with
        evt := update s.evt side o
        system := s.system.processEvent readXml mode side i eventXmlData
        popped := update s.popped side (s.popped side ++ [(i, eventXmlData)]) }
  | io {step : IoStep T} (halive : s.system.io.alive = true) :
      Effect s (.io step) { s with system := s.system.step mode (.io step) }

theorem step_effect (s : Service B T) (a : ServiceAction T) :
    s.Effect readXml mode a (s.step readXml mode a) := by
  unfold step
  by_cases halive : s.system.io.alive = true
  · rw [if_pos halive]
    cases a with
    | subscribe side evtSubscribe =>
      dsimp only
      split_ifs with h
      · obtain ⟨henabled, hside⟩ := h
        obtain ⟨hresult, ho, -⟩ := subscribe_eq (s.evt side) evtSubscribe
        have hqueue := congrArg SubscribeSystemEventBase.mQueue ho
        unfold subscribe
        dsimp only
        split_ifs with hok
        · exact .subscribed halive henabled hqueue
        · exact .refused halive henabled hside hqueue (Bool.not_eq_true _ ▸ hok)
      · exact .idle _
    | callback side n =>
      dsimp only
      split_ifs with henabled
      · unfold callback
        refine .called halive henabled ?_
        rw [subscriptionCallback_eq]
      · exact .idle _
    | iterate side i =>
      dsimp only
      split_ifs with h
      · unfold iterate
        rw [pop_eq]
        cases hq : (s.evt side).mQueue with
        | nil => exact .idle _
        | cons eventXmlData rest => exact .iterated halive h.1 hq
      · exact .idle _
    | io step => exact .io halive
  · rw [if_neg halive]
    exact .idle a

end Service
end RDPBlocker
