import RDPBlocker.Foundation.Monitor

/-! The queue between the subscription callbacks and the event threads. Each section under the
mutex is one step; `push` notifies in a step of its own, after the unlock. -/
namespace RDPBlocker
open Foundation Function
variable {α Θ : Type*}

inductive QueueFault
  /-- `front` or `pop` of an empty `std::queue`. -/
  | emptyQueue
deriving DecidableEq, Repr

/-- `value = m_queue.front(); m_queue.pop();`. -/
def takeFront : List α → Except QueueFault (α × List α)
  | [] => .error .emptyQueue
  | value :: rest => .ok (value, rest)

/-- `concurrent_queue::try_pop`; `none` stands for the result `false`. -/
def tryPop (mQueue : List α) : Except QueueFault (Option (α × List α)) :=
  if mQueue.isEmpty = true then .ok none else (takeFront mQueue).map some

/-- `concurrent_queue::wait_pop` from one lock of the mutex to the next unlock; `none` stands for
a `wait`. -/
def waitPop (mQueue : List α) : Except QueueFault (Option (α × List α)) :=
  if mQueue.isEmpty = true then .ok none else (takeFront mQueue).map some

/-- What the caller gets of a section that removes. -/
def popped (result : Except QueueFault (Option (α × List α))) : Except QueueFault (Option α) :=
  result.map (Option.map Prod.fst)

/-- The steps of the threads, with what goes in and out. The result of a removal is the value that
the caller gets; `none` stands for `false`, or for a `wait`. -/
inductive QueueLabel (α Θ : Type*)
  | push (t : Θ) (value : α)
  | notify (t : Θ)
  | tryPop (t : Θ) (result : Except QueueFault (Option α))
  | waitPop (t : Θ) (result : Except QueueFault (Option α))
  /-- The rest of a `wait_pop` after a `wait`, up to the next one. -/
  | recheck (t : Θ) (result : Except QueueFault (Option α))
  | spurious (t : Θ)
deriving DecidableEq, Repr

namespace QueueLabel

/-- The value that a caller has pushed. -/
def pushed? : QueueLabel α Θ → Option α
  | push _ value => some value
  | _ => none

/-- The result of a removal. -/
def result? : QueueLabel α Θ → Option (Except QueueFault (Option α))
  | tryPop _ result | waitPop _ result | recheck _ result => some result
  | _ => none

/-- The value that a caller has got. -/
def removed? (label : QueueLabel α Θ) : Option α :=
  match label.result? with
  | some (.ok value?) => value?
  | _ => none

end QueueLabel

/-- The values that the callers have pushed, oldest first. -/
def pushedValues (labels : List (QueueLabel α Θ)) : List α := labels.filterMap QueueLabel.pushed?

/-- The values that the callers have got, oldest first. -/
def removedValues (labels : List (QueueLabel α Θ)) : List α := labels.filterMap QueueLabel.removed?

/-- The queue with the threads that use it. -/
structure ConcurrentQueue (α Θ : Type*) where
  mQueue : List α
  place : Θ → Place

namespace ConcurrentQueue
variable [DecidableEq Θ]

def start : ConcurrentQueue α Θ := ⟨[], fun _ => .outside⟩

/-- The section of `push` under the mutex. -/
def push (q : ConcurrentQueue α Θ) (t : Θ) (value : α) : ConcurrentQueue α Θ where
  mQueue := q.mQueue ++ [value]
  place := update q.place t .notifying

/-- The end of a section that removes; `onEmpty` is where the thread goes without a value. -/
def remove (q : ConcurrentQueue α Θ) (t : Θ) (onEmpty : Place)
    (result : Except QueueFault (Option (α × List α))) : ConcurrentQueue α Θ :=
  match result with
  | .error _ => q
  | .ok none => { q with place := update q.place t onEmpty }
  | .ok (some (_, rest)) => ⟨rest, update q.place t .outside⟩

/-- The steps of the threads, in any order. -/
inductive Step (q : ConcurrentQueue α Θ) : QueueLabel α Θ → ConcurrentQueue α Θ → Prop
  | push (t : Θ) (value : α) (h : q.place t = .outside) : Step q (.push t value) (q.push t value)
  | notify (t : Θ) (place : Θ → Place) (h : q.place t = .notifying)
      (hn : NotifyOne (update q.place t .outside) place) :
      Step q (.notify t) { q with place := place }
  | tryPop (t : Θ) (h : q.place t = .outside) :
      Step q (.tryPop t (popped (tryPop q.mQueue))) (q.remove t .outside (tryPop q.mQueue))
  | waitPop (t : Θ) (h : q.place t = .outside) :
      Step q (.waitPop t (popped (waitPop q.mQueue))) (q.remove t .waiting (waitPop q.mQueue))
  | recheck (t : Θ) (h : q.place t = .woken) :
      Step q (.recheck t (popped (waitPop q.mQueue))) (q.remove t .waiting (waitPop q.mQueue))
  | spurious (t : Θ) (h : q.place t = .waiting) :
      Step q (.spurious t) { q with place := update q.place t .woken }

/-- Any number of operations by any threads, by the labels of their steps, oldest first. -/
inductive Run : List (QueueLabel α Θ) → ConcurrentQueue α Θ → Prop
  | start : Run [] start
  | step {labels : List (QueueLabel α Θ)} {q q' : ConcurrentQueue α Θ} {label : QueueLabel α Θ}
      (hrun : Run labels q) (hstep : q.Step label q') : Run (labels ++ [label]) q'

end ConcurrentQueue
end RDPBlocker
