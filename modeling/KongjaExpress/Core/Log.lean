import KongjaExpress.Core.ItemPoolConservation

/-! The log of `log.c`: threads that print texts into the buffers of a pool, and the task
that writes the buffers to `stdout`. -/

namespace KongjaExpress.Tasks

open LinkedCells Placement Utils

def logBufferNumElem : Nat := 128

def logBufferSize : Nat := 256

/-- What `vsnprintf` makes of a format and its arguments: a text, or an error that may
leave anything in the buffer. -/
inductive Formatted
  | text (bytes : List UInt8)
  | error (left : List UInt8)

def Formatted.bytes : Formatted → List UInt8
  | .text bytes => bytes
  | .error _ => []

def cString (buffer : List UInt8) : List UInt8 := buffer.takeWhile (· ≠ 0)

def overwrite (bytes buffer : List UInt8) : List UInt8 :=
  bytes.take buffer.length ++ buffer.drop bytes.length

/-- What `vsnprintf` returns, and the buffer behind it. -/
def vsnprintf (size : Nat) (formatted : Formatted) (buffer : List UInt8) : Int × List UInt8 :=
  match formatted with
  | .text bytes =>
      (if bytes.length < 2 ^ 31 then bytes.length else -1,
        overwrite (bytes.take (size - 1) ++ [0]) buffer)
  | .error left => (-1, overwrite (left.take size) buffer)

/-- A call of `log_write` behind `vsnprintf`: its `len`, and what was formatted, which the
code does not keep. -/
structure LogCall where
  len : Int
  formatted : Formatted

/-- `stdout` has one entry for each `fprintf`; `passed` has the texts that `log_write` has
put into the queue, with their threads. -/
structure Log (ι μ : Type) where
  debugLogPool : ItemPool ι μ logBufferNumElem
  debugLogBuffer : Fin logBufferNumElem → List UInt8
  call : Option ι → Option LogCall
  printed : Bool
  stdout : List (List UInt8)
  passed : List (Option ι × List UInt8)

inductive LogEvent (ι μ : Type)
  /-- `log_write` returns at once if `item_pool_get` gives no buffer. -/
  | get (thread : Option ι)
  | vsnprintf (thread : Option ι) (formatted : Formatted)
  | put (thread : Option ι)
  | notify (thread : Option ι) (malloc : Option μ)
  | signal (thread : Option ι) (merged : Bool)
  | start
  | cut
  | take
  /-- `debug_log`, which `__consume_buffer` calls first. -/
  | debugLog
  | finish
  | done

variable {ι μ : Type} [DecidableEq μ]

/-- `log_init`: `debug_log_buffer_init` gives each buffer its row of a static array. -/
def logInit (links : Links (PoolCell logBufferNumElem)) (taskLinks : Links (Cell μ))
    (memory : μ → Message ι (Fin logBufferNumElem)) : Log ι μ where
  debugLogPool := itemPoolInit links (taskQueueInit taskLinks memory)
  debugLogBuffer _ := List.replicate logBufferSize 0
  call _ := none
  printed := true
  stdout := []
  passed := []

variable [DecidableEq ι]

def Log.stepPool (log : Log ι μ) (event : PoolEvent ι μ) : Option (Log ι μ) :=
  (itemPoolStep log.debugLogPool event).map fun pool => { log with debugLogPool := pool }

/-- `vsnprintf` into the buffer of a thread. -/
def Log.format (log : Log ι μ) (thread : Option ι) (buf : Fin logBufferNumElem)
    (formatted : Formatted) : Log ι μ :=
  let (len, buffer) := vsnprintf logBufferSize formatted (log.debugLogBuffer buf)
  { log with
    debugLogBuffer := Function.update log.debugLogBuffer buf buffer
    call := Function.update log.call thread (some ⟨len, formatted⟩) }

/-- `fprintf` of a buffer. -/
def Log.print (log : Log ι μ) (buf : Fin logBufferNumElem) : Log ι μ :=
  { log with printed := true, stdout := log.stdout ++ [cString (log.debugLogBuffer buf)] }

/-- `log_write` returns; it has put a text into the queue unless `malloc` failed. -/
def Log.leave (log : Log ι μ) (thread : Option ι) (passed : List (Option ι × List UInt8)) :
    Log ι μ :=
  { log with call := Function.update log.call thread none, passed := log.passed ++ passed }

def logStep (log : Log ι μ) : LogEvent ι μ → Option (Log ι μ)
  | .get thread => log.stepPool (.get thread)
  | .vsnprintf thread formatted =>
      (log.debugLogPool.holding thread).bind fun buf =>
        if (log.call thread).isNone then some (log.format thread buf formatted) else none
  | .put thread =>
      (log.call thread).bind fun call =>
        (log.stepPool (.put thread call.len)).map fun next => next.leave thread []
  | .notify thread malloc =>
      (log.call thread).bind fun call =>
        (log.stepPool (.notify thread call.len malloc)).map fun next =>
          next.leave thread (malloc.toList.map fun _ => (thread, call.formatted.bytes))
  | .signal thread merged => log.stepPool (.signal thread merged)
  | .start => log.stepPool .start
  | .cut => log.stepPool .cut
  | .take => (log.stepPool .take).map fun next => { next with printed := false }
  | .debugLog =>
      match log.debugLogPool.task.phase with
      | .handling msg =>
          if log.printed then none
          else some (log.print (log.debugLogPool.task.memory msg).content)
      | _ => none
  | .finish => if log.printed then log.stepPool .finish else none
  | .done => log.stepPool .done

end KongjaExpress.Tasks
