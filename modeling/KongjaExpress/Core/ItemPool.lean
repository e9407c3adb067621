import KongjaExpress.Core.TaskQueue

/-! The pool of `item_pool.c`, whose buffers travel to the consuming task in messages, and
the producers of `log_write`. -/

namespace KongjaExpress.Tasks

open LinkedCells Utils

/-- The list heads: of the free list and of the buffers. -/
inductive PoolCell (n : Nat)
  | freeBufferList
  | le (buf : Fin n)
  deriving DecidableEq

/-- A pool of `n` buffers, its task, and the buffer each thread holds. -/
structure ItemPool (ι μ : Type) (n : Nat) where
  links : Links (PoolCell n)
  task : Task ι μ (Fin n)
  holding : Option ι → Option (Fin n)

variable {ι μ : Type} {n : Nat}

def getItemPoolBuffer (links : Links (PoolCell n)) : Option (Fin n) × Links (PoolCell n) :=
  if listEmpty .freeBufferList links then (none, links)
  else
    match links.next .freeBufferList with
    | .le buf => (some buf, listDelInit (.le buf) links)
    | .freeBufferList => (none, links)

def putItemPoolBuffer (buf : Fin n) (links : Links (PoolCell n)) : Links (PoolCell n) :=
  listAddTail (.le buf) .freeBufferList links

/-- `item_pool_init`, on memory that may hold anything. -/
def itemPoolInit (links : Links (PoolCell n)) (task : Task ι μ (Fin n)) : ItemPool ι μ n where
  links := (List.finRange n).foldl
    (fun links buf => putItemPoolBuffer buf (initListHead (.le buf) links))
    (initListHead .freeBufferList links)
  task := task
  holding _ := none

/-- `log_write` passes the text on if it fits in a buffer. -/
def logFits (len : Int) : Bool := 0 < len && len < 256

inductive PoolEvent (ι μ : Type)
  | get (thread : Option ι)
  /-- `item_pool_put` of a text that came out `len` bytes long. -/
  | put (thread : Option ι) (len : Int)
  /-- `item_pool_notify`, with what `malloc` returns, up to `ev_async_send`. -/
  | notify (thread : Option ι) (len : Int) (malloc : Option μ)
  | signal (thread : Option ι) (merged : Bool)
  | start
  | cut
  | take
  /-- `__consume_buffer` gives the buffer back, and the message is freed. -/
  | finish
  | done

variable [DecidableEq ι] [DecidableEq μ]

/-- What `item_pool_notify` does of `task_notify`; whether it succeeds is not looked at. -/
def notifyEvent (thread : Option ι) (malloc : Option μ) (buf : Fin n) : TaskEvent ι μ (Fin n) :=
  match malloc with
  | some msg => .add thread msg buf
  | none => .refuse thread

def ItemPool.stepTask (pool : ItemPool ι μ n) (event : TaskEvent ι μ (Fin n)) :
    Option (ItemPool ι μ n) :=
  (taskStep pool.task event).map fun task => { pool with task := task }

def itemPoolStep (pool : ItemPool ι μ n) : PoolEvent ι μ → Option (ItemPool ι μ n)
  | .get thread =>
      if pool.task.MayNotify thread ∧ pool.holding thread = none then
        let (buf, links) := getItemPoolBuffer pool.links
        some { pool with links := links, holding := Function.update pool.holding thread buf }
      else none
  | .put thread len =>
      (pool.holding thread).bind fun buf =>
        if pool.task.MayNotify thread ∧ logFits len = false then
          some { pool with
            links := putItemPoolBuffer buf pool.links
            holding := Function.update pool.holding thread none }
        else none
  | .notify thread len malloc =>
      (pool.holding thread).bind fun buf =>
        if logFits len then
          (taskStep pool.task (notifyEvent thread malloc buf)).map fun task =>
            { pool with task := task, holding := Function.update pool.holding thread none }
        else none
  | .signal thread merged => pool.stepTask (.signal thread merged)
  | .start => if pool.holding none = none then pool.stepTask .start else none
  | .cut => pool.stepTask .cut
  | .take => pool.stepTask .take
  | .finish =>
      match pool.task.phase with
      | .handling msg =>
          if pool.holding none = none then
            (taskStep pool.task .finish).map fun task =>
              { pool with
                links := putItemPoolBuffer (pool.task.memory msg).content pool.links
                task := task }
          else none
      | _ => none
  | .done => pool.stepTask .done

end KongjaExpress.Tasks
