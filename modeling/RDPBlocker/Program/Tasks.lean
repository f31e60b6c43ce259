import RDPBlocker.Foundation.EventLoop
import RDPBlocker.Program.Config
import RDPBlocker.Program.Firewall

/-! Block tasks, and the thread that runs their handlers one after the other. -/
namespace RDPBlocker
open Foundation

def upperLetters : List Char := "ABCDEFGHIJKLMNOPQRSTUVWXYZ".toList

/-- `distrib i` is the `i`-th draw from the closed interval of the indices of the table. -/
def randomString (count : ℕ) (charsTable : List Char)
    (distrib : ℕ → Fin (charsTable.length - 1 + 1)) : String :=
  if charsTable.isEmpty then ""
  else String.ofList ((List.range count).map fun i => charsTable.getD (distrib i) ' ')

abbrev RandomLetters := ℕ → Fin (upperLetters.length - 1 + 1)

/-- One task object, with the arguments its handlers are bound to. The last two fields are
history: the timer only keeps their sum. -/
structure BlockRemoteAddressTask (T : Type*) where
  id : ℕ
  ruleName : String
  blockAddress : String
  blockTime : ℤ
  createdAt : T
deriving DecidableEq

inductive Handler (T : Type*)
  | block (task : BlockRemoteAddressTask T)
  | unblock (task : BlockRemoteAddressTask T)
deriving DecidableEq

/-- The `io_context` with its thread, the rules of the machine, and the tasks created so far,
oldest first. A task's `id` is its place in that list. -/
structure IoState (T : Type*) where
  loop : EventLoop T (Handler T)
  rules : FirewallRules
  tasks : List (BlockRemoteAddressTask T)
  alive : Bool

/-- What other parties and the io thread do to the `io_context`; `hr` says which COM calls of
the handler succeed. -/
inductive IoStep (T : Type*)
  | advance (t : T)
  | expire (k : ℕ)
  | run (hr : ComResults)

/-- A task creation by one of the event threads, or a step of the rest. -/
inductive TaskAction (T : Type*)
  | create (letters : RandomLetters) (remoteAddress : String) (blockTime : ℤ)
  | io (step : IoStep T)

section
variable {T : Type*}

def BlockRemoteAddressTask.rule (task : BlockRemoteAddressTask T) : FirewallRule :=
  blockRule task.ruleName task.blockAddress

/-- `block` and `unblock` of the task; neither looks at the result of the controller. -/
def Handler.exec (mode : RemoveMode) (hr : ComResults) (rules : FirewallRules) :
    Handler T → Except ComFault FirewallRules
  | .block task => do
    let (_, rules) ← blockInboundIP hr task.ruleName task.blockAddress rules
    return rules
  | .unblock task => .ok (deleteRuleByName mode hr task.ruleName rules).2

def IoState.start (now : T) (present : List FirewallRule) : IoState T :=
  ⟨EventLoop.start now, ⟨present, []⟩, [], true⟩

/-- The io thread takes the oldest ready handler and runs it to its end. -/
def IoState.runHandler (mode : RemoveMode) (hr : ComResults) (s : IoState T) : IoState T :=
  match s.loop.next? with
  | none => s
  | some (h, loop) =>
    match h.exec mode hr s.rules with
    | .ok rules => { s with loop := loop, rules := rules }
    | .error _ => { s with loop := loop, alive := false }

variable [AddGroupWithOne T]

def BlockRemoteAddressTask.deadline (task : BlockRemoteAddressTask T) : T :=
  task.createdAt + task.blockTime

def asyncBlock (task : BlockRemoteAddressTask T) (loop : EventLoop T (Handler T)) :
    EventLoop T (Handler T) :=
  loop.post (.block task)

/-- `expires_from_now(delay_time)`, then `async_wait`. -/
def asyncUnblock (task : BlockRemoteAddressTask T) (delayTime : ℤ)
    (loop : EventLoop T (Handler T)) : EventLoop T (Handler T) :=
  loop.wait (loop.now + delayTime) (.unblock task)

def createBlockRemoteAddressTasks (rulePrefix : String) (letters : RandomLetters)
    (remoteAddress : String) (blockTime : ℤ) (s : IoState T) : IoState T :=
  let ruleName := rulePrefix ++ randomString 8 upperLetters letters
  let task := ⟨s.tasks.length, ruleName, remoteAddress, blockTime, s.loop.now⟩
  if blockTime > 0 then
    { s with
      loop := asyncUnblock task blockTime (asyncBlock task s.loop)
      tasks := s.tasks ++ [task] }
  else s

/-- The task that a creation with a positive block time adds. -/
def newTask (rulePrefix : String) (letters : RandomLetters) (remoteAddress : String)
    (blockTime : ℤ) (s : IoState T) : BlockRemoteAddressTask T :=
  ⟨s.tasks.length, rulePrefix ++ randomString 8 upperLetters letters, remoteAddress, blockTime,
    s.loop.now⟩

theorem createBlockRemoteAddressTasks_of_pos {rulePrefix : String} {letters : RandomLetters}
    {remoteAddress : String} {blockTime : ℤ} (s : IoState T) (hpos : 0 < blockTime) :
    createBlockRemoteAddressTasks rulePrefix letters remoteAddress blockTime s =
      let task := newTask rulePrefix letters remoteAddress blockTime s
      { s with
        loop := (s.loop.post (.block task)).wait task.deadline (.unblock task)
        tasks := s.tasks ++ [task] } :=
  if_pos hpos

theorem createBlockRemoteAddressTasks_of_not_pos {rulePrefix : String} {letters : RandomLetters}
    {remoteAddress : String} {blockTime : ℤ} (s : IoState T) (hpos : ¬ 0 < blockTime) :
    createBlockRemoteAddressTasks rulePrefix letters remoteAddress blockTime s = s :=
  if_neg hpos

theorem tasks_createBlockRemoteAddressTasks {rulePrefix : String} {letters : RandomLetters}
    {remoteAddress : String} {blockTime : ℤ} (s : IoState T) (hpos : 0 < blockTime) :
    (createBlockRemoteAddressTasks rulePrefix letters remoteAddress blockTime s).tasks =
      s.tasks ++ [newTask rulePrefix letters remoteAddress blockTime s] := by
  rw [createBlockRemoteAddressTasks_of_pos s hpos]

theorem now_createBlockRemoteAddressTasks (rulePrefix : String) (letters : RandomLetters)
    (remoteAddress : String) (blockTime : ℤ) (s : IoState T) :
    (createBlockRemoteAddressTasks rulePrefix letters remoteAddress blockTime s).loop.now =
      s.loop.now := by
  by_cases hpos : 0 < blockTime
  · rw [createBlockRemoteAddressTasks_of_pos s hpos]
    rfl
  · rw [createBlockRemoteAddressTasks_of_not_pos s hpos]

variable [LinearOrder T]

/-- Once the process has ended nothing happens any more. -/
def IoState.step (mode : RemoveMode) (s : IoState T) (step : IoStep T) : IoState T :=
  if s.alive then
    match step with
    | .advance t => { s with loop := s.loop.advance t }
    | .expire k => { s with loop := s.loop.expire k }
    | .run hr => s.runHandler mode hr
  else s

def IoState.act (rulePrefix : String) (mode : RemoveMode) (s : IoState T) :
    TaskAction T → IoState T
  | .create letters remoteAddress blockTime =>
    if s.alive then createBlockRemoteAddressTasks rulePrefix letters remoteAddress blockTime s
    else s
  | .io step => s.step mode step

end
end RDPBlocker
