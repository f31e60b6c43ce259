import RDPBlocker.Program.ConcurrentQueue
import RDPBlocker.Program.HandleWrapper

/-! The subscriptions to the event log, and the callback that fills their queues. -/
namespace RDPBlocker

abbrev DWORD := UInt32

def ERROR_SUCCESS : DWORD := 0

def ERROR_INSUFFICIENT_BUFFER : DWORD := 122

def ERROR_EVT_INVALID_QUERY : DWORD := 15001

def ERROR_EVT_CHANNEL_NOT_FOUND : DWORD := 15007

def ERROR_EVT_QUERY_RESULT_STALE : DWORD := 15011

inductive LogLevel
  | info
  | error
deriving DecidableEq, Repr

/-- A line for `g_logger`: the format, and the status that it prints. -/
structure LogLine where
  level : LogLevel
  format : String
  status : Option DWORD := none
deriving DecidableEq, Repr

/-- The two calls of `EvtRender` for one event. -/
structure EvtRenderCalls where
  /-- `GetLastError` after the first call, where that returns `FALSE`. -/
  firstError : Option DWORD := some ERROR_INSUFFICIENT_BUFFER
  /-- `GetLastError` after the second call. -/
  secondError : DWORD := ERROR_SUCCESS
  /-- The text in the buffer after the second call. -/
  renderedContent : String
deriving DecidableEq, Repr

/-- The status, the text in `out`, and what is logged. -/
def getEventData (calls : EvtRenderCalls) : DWORD × String × List LogLine :=
  match calls.firstError with
  | none => (ERROR_SUCCESS, "", [])
  | some status =>
    if ERROR_INSUFFICIENT_BUFFER = status then
      let status := calls.secondError
      let logged :=
        if ERROR_SUCCESS ≠ status then [⟨.error, "EvtRender failed with \x7b\x7d.", some status⟩]
        else []
      (status, calls.renderedContent, logged)
    else (status, "", [])

/-- `EVT_SUBSCRIBE_NOTIFY_ACTION` with what the callback can learn of the event. -/
inductive EvtNotification
  | error (status : DWORD)
  | deliver (calls : EvtRenderCalls)
  | other
deriving DecidableEq, Repr

structure SubscribeSystemEventBase where
  mHandleSubscription : HandleWrapper ℕ := .new eventLogHandleTraits
  mQueue : List String := []
  mPath : String := ""
  mQuery : String := ""
deriving DecidableEq

namespace SubscribeSystemEventBase

def push (o : SubscribeSystemEventBase) (data : String) : SubscribeSystemEventBase :=
  { o with mQueue := o.mQueue ++ [data] }

/-- `Pop`; `none` while it waits. -/
def pop (o : SubscribeSystemEventBase) :
    Except QueueFault (Option (String × SubscribeSystemEventBase)) :=
  (waitPop o.mQueue).map (Option.map fun x => (x.1, { o with mQueue := x.2 }))

/-- The status that the callback returns, the object, and what is logged. -/
def subscriptionCallback (o : SubscribeSystemEventBase) :
    EvtNotification → DWORD × SubscribeSystemEventBase × List LogLine
  | .error status =>
    if ERROR_EVT_QUERY_RESULT_STALE = status then
      (ERROR_SUCCESS, o, [⟨.info, "SubscriptionCallback: event records are missing.", none⟩])
    else
      (ERROR_SUCCESS, o,
        [⟨.error, "SubscriptionCallback: Win32 error 0x\x7b0:x\x7d", some status⟩])
  | .deliver calls =>
    let (status, eventData, logged) := getEventData calls
    (ERROR_SUCCESS, if ERROR_SUCCESS = status then o.push eventData else o, logged)
  | .other => (ERROR_SUCCESS, o, [⟨.info, "SubscriptionCallback: Unknown action.", none⟩])

end SubscribeSystemEventBase

/-- The call of `EvtSubscribe`: the handle that it returns, and `GetLastError` after it. -/
structure EvtSubscribeCall where
  handle : ℕ
  lastError : DWORD := ERROR_SUCCESS
deriving DecidableEq, Repr

/-- The channel and the query that a subscription is for. -/
abbrev EvtSubscribe := String → String → EvtSubscribeCall

namespace SubscribeSystemEventBase

/-- `Subscribe(path, query)`: the result, the object, the handles closed, and what is logged. -/
def subscribeTo (o : SubscribeSystemEventBase) (evtSubscribe : EvtSubscribe)
    (path query : String) :
    Bool × SubscribeSystemEventBase × List (HandleCall ℕ) × List LogLine :=
  let call := evtSubscribe path query
  let (mHandleSubscription, closed) :=
    o.mHandleSubscription.assignHandle eventLogHandleTraits call.handle
  let o := { o with mHandleSubscription := mHandleSubscription }
  if mHandleSubscription.isVaild eventLogHandleTraits = false then
    let status := call.lastError
    if ERROR_EVT_CHANNEL_NOT_FOUND = status then
      (false, o, closed, [⟨.error, "Channel was not found.", none⟩])
    else if ERROR_EVT_INVALID_QUERY = status then
      (false, o, closed, [⟨.error, "The query was not found.", none⟩])
    else (false, o, closed, [⟨.error, "EvtSubscribe failed with \x7b\x7d.", some status⟩])
  else (true, o, closed, [])

def subscribe (o : SubscribeSystemEventBase) (evtSubscribe : EvtSubscribe) :
    Bool × SubscribeSystemEventBase × List (HandleCall ℕ) × List LogLine :=
  o.subscribeTo evtSubscribe o.mPath o.mQuery

end SubscribeSystemEventBase

def rdpAuthFailedEvent : SubscribeSystemEventBase where
  mPath := "Security"
  mQuery := "*[System[(EventID=4625) and TimeCreated[timediff(@SystemTime) <= 86400000]]]"

def rdpAuthSucceedEvent : SubscribeSystemEventBase where
  mPath := "Security"
  mQuery := "*[System[(EventID=4624) and TimeCreated[timediff(@SystemTime) <= 86400000]]]"

section Equations
variable {o : SubscribeSystemEventBase}

/-- The text that a notification puts into the queue. -/
def EvtNotification.text? : EvtNotification → Option String
  | .deliver calls =>
    if ERROR_SUCCESS = (getEventData calls).1 then some (getEventData calls).2.1 else none
  | _ => none

/-- Whatever it is called for, the callback only ever adds one text at the end of the queue. -/
theorem subscriptionCallback_eq (o : SubscribeSystemEventBase) (n : EvtNotification) :
    (o.subscriptionCallback n).2.1 = { o with mQueue := o.mQueue ++ n.text?.toList } := by
  have hkeep : { o with mQueue := o.mQueue ++ [] } = o := by rw [List.append_nil]
  cases n with
  | error status =>
    refine Eq.trans ?_ hkeep.symm
    simp only [SubscribeSystemEventBase.subscriptionCallback]
    split_ifs <;> rfl
  | deliver calls =>
    simp only [SubscribeSystemEventBase.subscriptionCallback, EvtNotification.text?]
    split_ifs
    · rfl
    · exact hkeep.symm
  | other => exact hkeep.symm

/-- A notification that neither fills the queue nor is logged is for an event that could not even
be asked for its size. -/
theorem lost_silently_iff (o : SubscribeSystemEventBase) (n : EvtNotification) :
    n.text? = none ∧ (o.subscriptionCallback n).2.2 = [] ↔ ∃ calls status,
      n = .deliver calls ∧ calls.firstError = some status ∧ status ≠ ERROR_SUCCESS ∧
        status ≠ ERROR_INSUFFICIENT_BUFFER := by
  cases n with
  | error status =>
    simp only [SubscribeSystemEventBase.subscriptionCallback]
    split_ifs <;> simp
  | deliver calls =>
    simp only [EvtNotification.text?, SubscribeSystemEventBase.subscriptionCallback, getEventData]
    cases hfirst : calls.firstError with
    | none => simp [hfirst]
    | some status =>
      by_cases hbuffer : ERROR_INSUFFICIENT_BUFFER = status
      · by_cases hsecond : ERROR_SUCCESS = calls.secondError <;> simp [hbuffer, hsecond, hfirst]
      · have hbuffer' : status ≠ ERROR_INSUFFICIENT_BUFFER := Ne.symm hbuffer
        simp [hbuffer, hbuffer', hfirst, eq_comm]
  | other => simp [SubscribeSystemEventBase.subscriptionCallback]

theorem pop_eq (o : SubscribeSystemEventBase) : o.pop = .ok (match o.mQueue with
    | [] => none
    | data :: rest => some (data, { o with mQueue := rest })) := by
  unfold SubscribeSystemEventBase.pop waitPop takeFront
  cases o.mQueue <;> rfl

/-- The object gets the handle that the system returned, and the handle it had is closed. -/
theorem subscribe_eq (o : SubscribeSystemEventBase) (evtSubscribe : EvtSubscribe) :
    let handle := (evtSubscribe o.mPath o.mQuery).handle
    (o.subscribe evtSubscribe).1 = decide (handle ≠ 0) ∧
      (o.subscribe evtSubscribe).2.1 = { o with mHandleSubscription := ⟨handle⟩ } ∧
      (o.subscribe evtSubscribe).2.2.1 =
        (o.mHandleSubscription.owned eventLogHandleTraits).toList.map .closed := by
  have hclosed : (o.mHandleSubscription.close eventLogHandleTraits).2 =
      (o.mHandleSubscription.owned eventLogHandleTraits).toList.map .closed := by
    cases h : o.mHandleSubscription.owned eventLogHandleTraits with
    | none => rw [HandleWrapper.close_of_not_owned h]; rfl
    | some value => rw [HandleWrapper.close_of_owned h]; rfl
  rw [← hclosed]
  simp only [SubscribeSystemEventBase.subscribe, SubscribeSystemEventBase.subscribeTo,
    HandleWrapper.assignHandle, HandleWrapper.attach, HandleWrapper.isVaild, eventLogHandleTraits]
  by_cases hzero : (evtSubscribe o.mPath o.mQuery).handle = 0
  · simp only [hzero, ne_eq, not_true_eq_false, decide_false, if_true]
    split_ifs <;> exact ⟨rfl, rfl, rfl⟩
  · simp [hzero]

end Equations
end RDPBlocker
