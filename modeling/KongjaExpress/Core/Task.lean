import KongjaExpress.Utils.ListHead

/-! The messages of a task (`task.c`): threads that send, the callback that drains the
queue, and the notifications libev keeps between them. -/

namespace KongjaExpress.Tasks

open LinkedCells Utils

/-- The list heads: of the queue, of `tmp_list`, and of the messages. -/
inductive Cell (μ : Type)
  | msgs
  | tmpList
  | le (msg : μ)
  deriving DecidableEq

/-- What a `task_msg_t` holds, handler and argument, with the thread that sent it and the
number of messages sent before it. -/
structure Message (ι β : Type) where
  sender : Option ι
  serial : Nat
  content : β
  deriving DecidableEq

/-- Where the receiver is: in its event loop, in `task_queue_noti_callback` before and
behind the lock, or in a message's handler. -/
inductive Phase (μ : Type)
  | loop
  | started
  | draining
  | handling (msg : μ)
  deriving DecidableEq

/-- The threads are the receiver's own and those of `ι`. A thread is `signalling` once it
has added its message and not yet called `ev_async_send`. -/
structure Task (ι μ β : Type) where
  links : Links (Cell μ)
  numMsgs : UInt32
  memory : μ → Message ι β
  allocated : μ → Bool
  signalling : Option ι → Bool
  pending : Nat
  phase : Phase μ
  sent : List (Message ι β)
  handled : List (Message ι β)

variable {ι μ β : Type} [DecidableEq ι] [DecidableEq μ]

/-- `task_queue_init`, on memory that may hold anything. -/
def taskQueueInit (links : Links (Cell μ)) (memory : μ → Message ι β) : Task ι μ β where
  links := initListHead .msgs links
  numMsgs := 0
  memory := memory
  allocated _ := false
  signalling _ := false
  pending := 0
  phase := .loop
  sent := []
  handled := []

def taskQueueAdd (msg : μ) (task : Task ι μ β) : Task ι μ β :=
  { task with
    links := listAddTail (.le msg) .msgs (initListHead (.le msg) task.links)
    numMsgs := task.numMsgs + 1 }

/-- `task_notify` up to `ev_async_send`, with the memory `malloc` returned. -/
def taskNotifyAdd (thread : Option ι) (msg : μ) (content : β) (task : Task ι μ β) :
    Task ι μ β :=
  let message : Message ι β := ⟨thread, task.sent.length, content⟩
  taskQueueAdd msg { task with
    memory := Function.update task.memory msg message
    allocated := Function.update task.allocated msg true
    signalling := Function.update task.signalling thread true
    sent := task.sent ++ [message] }

/-- The runs of the callback that are due: one more, unless a send is merged with one that
has not begun. -/
def evAsyncSend (merged : Bool) (pending : Nat) : Nat :=
  if merged && 0 < pending then pending else pending + 1

/-- The rest of `task_notify`. -/
def taskNotifySignal (thread : Option ι) (merged : Bool) (task : Task ι μ β) : Task ι μ β :=
  { task with
    signalling := Function.update task.signalling thread false
    pending := evAsyncSend merged task.pending }

def taskQueueCut (task : Task ι μ β) : Task ι μ β :=
  { task with
    links := listCutPosition .tmpList .msgs (task.links.prev .msgs) task.links
    numMsgs := 0 }

/-- The loop and the handlers are the receiver's own code; the callback is not
interrupted by it. -/
def Phase.ownCode : Phase μ → Bool
  | .loop | .handling _ => true
  | .started | .draining => false

/-- A thread is free to call `task_notify`. -/
def Task.MayNotify (task : Task ι μ β) (thread : Option ι) : Prop :=
  task.signalling thread = false ∧ (thread = none → task.phase.ownCode = true)

instance (task : Task ι μ β) (thread : Option ι) : Decidable (task.MayNotify thread) :=
  inferInstanceAs (Decidable (_ ∧ _))

inductive TaskEvent (ι μ β : Type)
  /-- `task_notify` up to the end of `task_queue_add`. -/
  | add (thread : Option ι) (msg : μ) (content : β)
  /-- `task_notify` returns -1: `malloc` failed. -/
  | refuse (thread : Option ι)
  /-- `ev_async_send`, and `task_notify` returns 0. -/
  | signal (thread : Option ι) (merged : Bool)
  /-- libev runs the callback. -/
  | start
  | cut
  /-- The handler of the first message begins. -/
  | take
  /-- It returns, and the message is freed. -/
  | finish
  /-- `tmp_list` is empty. -/
  | done

def taskStep (task : Task ι μ β) : TaskEvent ι μ β → Option (Task ι μ β)
  | .add thread msg content =>
      if task.MayNotify thread ∧ task.allocated msg = false then
        some (taskNotifyAdd thread msg content task)
      else none
  | .refuse thread => if task.MayNotify thread then some task else none
  | .signal thread merged =>
      if task.signalling thread then some (taskNotifySignal thread merged task) else none
  | .start =>
      if task.phase = .loop ∧ 0 < task.pending ∧ task.signalling none = false then
        some { task with
          links := initListHead .tmpList task.links
          pending := task.pending - 1
          phase := .started }
      else none
  | .cut =>
      if task.phase = .started then some { taskQueueCut task with phase := .draining } else none
  | .take =>
      if task.phase = .draining ∧ listEmpty .tmpList task.links = false then
        match task.links.next .tmpList with
        | .le msg => some { task with
            links := listDelInit (.le msg) task.links
            phase := .handling msg
            handled := task.handled ++ [task.memory msg] }
        -- no list is linked to another's head
        | _ => none
      else none
  | .finish =>
      match task.phase with
      | .handling msg =>
          if task.signalling none = false then
            some { task with
              allocated := Function.update task.allocated msg false
              phase := .draining }
          else none
      | _ => none
  | .done =>
      if task.phase = .draining ∧ listEmpty .tmpList task.links = true then
        some { task with phase := .loop }
      else none

end KongjaExpress.Tasks
