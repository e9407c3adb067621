import KongjaExpress.Core.Log

/-! Whatever the threads do, the log prints the texts it has taken, each whole and once, in
the order in which they were passed on. -/

namespace KongjaExpress.Tasks

open LinkedCells Placement Utils

section Strings

theorem cString_zero (bytes tail : List UInt8) : cString (bytes ++ 0 :: tail) = cString bytes := by
  induction bytes with
  | nil => rfl
  | cons byte bytes ih =>
      simp only [cString, List.cons_append, List.takeWhile_cons] at ih ⊢
      rw [ih]

theorem overwrite_length {bytes buffer : List UInt8} (fits : bytes.length ≤ buffer.length) :
    (overwrite bytes buffer).length = buffer.length := by
  simp only [overwrite, List.length_append, List.length_take, List.length_drop]
  omega

theorem vsnprintf_length (formatted : Formatted) {size : Nat} {buffer : List UInt8}
    (room : 0 < size) (sized : buffer.length = size) :
    (vsnprintf size formatted buffer).2.length = size := by
  cases formatted with
  | text bytes =>
      rw [← sized]
      apply overwrite_length
      simp only [List.length_append, List.length_take, List.length_singleton]
      omega
  | error left =>
      rw [← sized]
      apply overwrite_length
      simp only [List.length_take]
      omega

theorem logFits_iff {len : Int} : logFits len = true ↔ 0 < len ∧ len < 256 := by
  simp [logFits]

/-- A text that `log_write` passes on is in the buffer, and ends there. -/
theorem vsnprintf_fits {formatted : Formatted} {buffer : List UInt8}
    (sized : buffer.length = logBufferSize)
    (fits : logFits (vsnprintf logBufferSize formatted buffer).1 = true) :
    cString (vsnprintf logBufferSize formatted buffer).2 = cString formatted.bytes ∧
      0 < formatted.bytes.length ∧ formatted.bytes.length < logBufferSize := by
  cases formatted with
  | error left => contradiction
  | text bytes =>
      have bounds := logFits_iff.mp fits
      have short : 0 < bytes.length ∧ bytes.length < logBufferSize := by
        simp only [vsnprintf] at bounds
        simp only [logBufferSize]
        split at bounds <;> omega
      have whole : bytes.take (logBufferSize - 1) = bytes := List.take_of_length_le (by omega)
      have inside : (bytes ++ [0]).take buffer.length = bytes ++ [0] :=
        List.take_of_length_le (by simp; omega)
      simp only [vsnprintf, whole, overwrite, inside, List.append_assoc, List.singleton_append,
        Formatted.bytes, cString_zero, true_and]
      exact short

end Strings

variable {ι μ : Type}

section Pool

variable {n : Nat} {pool : ItemPool ι μ n} {free : List (Fin n)} {queue batch : List μ}

/-- The lists of a pool none of whose buffers is in two places; one that `malloc` lost is in
none. -/
structure Shared (pool : ItemPool ι μ n) (free : List (Fin n)) (queue batch : List μ) : Prop where
  stocked : Stocked pool free queue batch
  apart : Apart (At pool free (batch ++ queue))

theorem Shared.task {task : Task ι μ (Fin n)} {queue' batch' : List μ}
    (shared : Shared pool free queue batch) (queued : Queued task queue' batch')
    (messages : batch' ++ queue' = batch ++ queue) (memory : task.memory = pool.task.memory)
    (running : task.phase.running = pool.task.phase.running) :
    Shared { pool with task := task } free queue' batch' := by
  refine ⟨⟨shared.stocked.free, queued⟩, shared.apart.congr fun place buf => ?_⟩
  cases place with
  | free => exact Iff.rfl
  | held thread => exact Iff.rfl
  | carried msg => simp only [At, messages, memory]
  | consumed => simp only [At, memory, ← mem_running, running]

theorem Shared.fresh {place : Place ι μ} {buf : Fin n} (shared : Shared pool free queue batch)
    (there : At pool free (batch ++ queue) place buf) (elsewhere : place ≠ .free) :
    buf ∉ free := fun back => elsewhere (shared.apart buf place .free there back)

variable [DecidableEq ι]

theorem Shared.get {thread : Option ι} (shared : Shared pool free queue batch)
    (unused : pool.holding thread = none) :
    ∃ free', Shared { pool with
      links := (getItemPoolBuffer pool.links).2
      holding := Function.update pool.holding thread (getItemPoolBuffer pool.links).1 }
      free' queue batch := by
  have stocked := shared.stocked
  cases free with
  | nil =>
      have same : Function.update pool.holding thread none = pool.holding :=
        Function.update_eq_self_iff.mpr unused.symm
      rw [getItemPoolBuffer_nil stocked.free, same]
      exact ⟨[], shared⟩
  | cons buf free =>
      rcases getItemPoolBuffer_cons stocked.free with ⟨got, rest⟩
      rw [got]
      exact ⟨free, ⟨rest, stocked.queued⟩, (get_moves stocked unused).apart shared.apart⟩

theorem Shared.put {thread : Option ι} {buf : Fin n} (shared : Shared pool free queue batch)
    (held : pool.holding thread = some buf) :
    Shared { pool with
      links := putItemPoolBuffer buf pool.links
      holding := Function.update pool.holding thread none } (free ++ [buf]) queue batch := by
  have fresh : buf ∉ free := @Shared.fresh _ _ _ _ _ _ _ (.held thread) _ shared held nofun
  exact ⟨⟨putItemPoolBuffer_circular shared.stocked.free fresh, shared.stocked.queued⟩,
    (put_moves held).apart shared.apart⟩

theorem Shared.leak {thread : Option ι} {buf : Fin n} (shared : Shared pool free queue batch)
    (held : pool.holding thread = some buf) :
    Shared { pool with holding := Function.update pool.holding thread none } free queue batch :=
  ⟨⟨shared.stocked.free, shared.stocked.queued⟩, (leak_drops held).apart shared.apart⟩

variable [DecidableEq μ]

theorem Shared.notify {thread : Option ι} {buf : Fin n} {msg : μ}
    (shared : Shared pool free queue batch) (held : pool.holding thread = some buf)
    (fresh : pool.task.allocated msg = false) :
    Shared { pool with
      task := taskNotifyAdd thread msg buf pool.task
      holding := Function.update pool.holding thread none } free (queue ++ [msg]) batch :=
  ⟨⟨shared.stocked.free, queued_add shared.stocked.queued fresh⟩,
    (notify_moves shared.stocked held fresh).apart shared.apart⟩

omit [DecidableEq ι] in
theorem Shared.take {msg : μ} (shared : Shared pool free queue (msg :: batch))
    (draining : pool.task.phase = .draining) :
    Shared { pool with task := { pool.task with
      links := listDelInit (.le msg) pool.task.links
      phase := .handling msg
      handled := pool.task.handled ++ [pool.task.memory msg] } } free queue batch :=
  ⟨⟨shared.stocked.free, queued_take shared.stocked.queued draining⟩,
    (take_moves shared.stocked draining).apart shared.apart⟩

omit [DecidableEq ι] in
theorem Shared.finish {msg : μ} (shared : Shared pool free queue batch)
    (handling : pool.task.phase = .handling msg) :
    Shared { pool with
      links := putItemPoolBuffer (pool.task.memory msg).content pool.links
      task := { pool.task with
        allocated := Function.update pool.task.allocated msg false
        phase := .draining } } (free ++ [(pool.task.memory msg).content]) queue batch := by
  have fresh : (pool.task.memory msg).content ∉ free :=
    @Shared.fresh _ _ _ _ _ _ _ .consumed _ shared ⟨msg, handling, rfl⟩ nofun
  exact ⟨⟨putItemPoolBuffer_circular shared.stocked.free fresh,
      queued_finish shared.stocked.queued handling⟩,
    (finish_moves handling).apart shared.apart⟩

end Pool

/-- The message that is consumed, until its text is printed. -/
def Log.due (log : Log ι μ) : List μ :=
  if log.printed then [] else log.debugLogPool.task.phase.running

def Log.text (log : Log ι μ) (msg : μ) : List UInt8 :=
  cString (log.debugLogBuffer (log.debugLogPool.task.memory msg).content)

/-- A call that is behind `vsnprintf` holds a buffer, with its text in it if it fits. -/
def Log.Formats (log : Log ι μ) (thread : Option ι) (call : LogCall) : Prop :=
  ∃ buf, log.debugLogPool.holding thread = some buf ∧
    (logFits call.len = true →
      cString (log.debugLogBuffer buf) = cString call.formatted.bytes ∧
        0 < call.formatted.bytes.length ∧ call.formatted.bytes.length < logBufferSize)

/-- The texts passed on are those printed, then those in the buffers on their way. -/
structure Written (log : Log ι μ) (free : List (Fin logBufferNumElem)) (queue batch : List μ) :
    Prop where
  shared : Shared log.debugLogPool free queue batch
  sizes : ∀ buf, (log.debugLogBuffer buf).length = logBufferSize
  calls : ∀ thread call, log.call thread = some call → log.Formats thread call
  order : log.passed.map (fun entry => cString entry.2) =
    log.stdout ++ (log.due ++ batch ++ queue).map log.text
  fits : ∀ entry ∈ log.passed, 0 < entry.2.length ∧ entry.2.length < logBufferSize

section Steps

variable {log : Log ι μ} {free : List (Fin logBufferNumElem)} {queue batch : List μ}

theorem Written.still {pool : ItemPool ι μ logBufferNumElem} {call : Option ι → Option LogCall}
    {free' : List (Fin logBufferNumElem)} {queue' batch' : List μ}
    (written : Written log free queue batch) (shared : Shared pool free' queue' batch')
    (messages : batch' ++ queue' = batch ++ queue)
    (memory : pool.task.memory = log.debugLogPool.task.memory)
    (running : pool.task.phase.running = log.debugLogPool.task.phase.running)
    (calls : ∀ thread called, call thread = some called →
      log.call thread = some called ∧ pool.holding thread = log.debugLogPool.holding thread) :
    Written { log with debugLogPool := pool, call := call } free' queue' batch' where
  shared := shared
  sizes := written.sizes
  calls thread called calling := by
    rcases calls thread called calling with ⟨before, same⟩
    rcases written.calls thread called before with ⟨buf, held, formatted⟩
    exact ⟨buf, same.trans held, formatted⟩
  order := by
    have due : ({ log with debugLogPool := pool, call := call } : Log ι μ).due = log.due := by
      simp only [Log.due, running]
    have text : ({ log with debugLogPool := pool, call := call } : Log ι μ).text = log.text := by
      funext msg
      simp only [Log.text, memory]
    rw [due, text, List.append_assoc, messages, ← List.append_assoc]
    exact written.order
  fits := written.fits

/-- A message on its way does not carry the buffer that a thread holds. -/
theorem Written.carried {thread : Option ι} {buf : Fin logBufferNumElem} {msg : μ}
    (written : Written log free queue batch)
    (held : log.debugLogPool.holding thread = some buf) (there : msg ∈ log.due ++ batch ++ queue) :
    (log.debugLogPool.task.memory msg).content ≠ buf := by
  intro same
  have holds : At log.debugLogPool free (batch ++ queue) (.held thread) buf := held
  rw [List.append_assoc, List.mem_append] at there
  rcases there with due | waits
  · have handling : log.debugLogPool.task.phase = .handling msg := by
      apply mem_running.mp
      unfold Log.due at due
      split at due
      · contradiction
      · exact due
    have consumed : At log.debugLogPool free (batch ++ queue) .consumed buf :=
      ⟨msg, handling, same⟩
    have clash := written.shared.apart buf _ _ holds consumed
    contradiction
  · have carried : At log.debugLogPool free (batch ++ queue) (.carried msg) buf := ⟨waits, same⟩
    have clash := written.shared.apart buf _ _ holds carried
    contradiction

variable [DecidableEq ι]

theorem Written.format {thread : Option ι} {buf : Fin logBufferNumElem} (formatted : Formatted)
    (written : Written log free queue batch)
    (held : log.debugLogPool.holding thread = some buf) :
    Written (log.format thread buf formatted) free queue batch where
  shared := written.shared
  sizes other := by
    change (Function.update log.debugLogBuffer buf _ other).length = logBufferSize
    by_cases same : other = buf
    · rw [same, Function.update_self]
      exact vsnprintf_length formatted (by decide) (written.sizes buf)
    · rw [Function.update_of_ne same]
      exact written.sizes other
  calls other call calling := by
    change Function.update log.call thread _ other = some call at calling
    by_cases same : other = thread
    · subst same
      rw [Function.update_self] at calling
      obtain rfl := Option.some.inj calling
      refine ⟨buf, held, fun fits => ?_⟩
      change cString (Function.update log.debugLogBuffer buf _ buf) = _ ∧ _
      rw [Function.update_self]
      exact vsnprintf_fits (written.sizes buf) fits
    · rw [Function.update_of_ne same] at calling
      rcases written.calls other call calling with ⟨own, holds, text⟩
      have apart : own ≠ buf := by
        intro clash
        subst clash
        exact same (Place.held.inj (written.shared.apart own (.held other) (.held thread) holds held))
      refine ⟨own, holds, fun fits => ?_⟩
      change cString (Function.update log.debugLogBuffer buf _ own) = _ ∧ _
      rw [Function.update_of_ne apart]
      exact text fits
  order := by
    have texts : (log.due ++ batch ++ queue).map (log.format thread buf formatted).text =
        (log.due ++ batch ++ queue).map log.text := by
      apply List.map_congr_left
      intro msg there
      change cString (Function.update log.debugLogBuffer buf _
        (log.debugLogPool.task.memory msg).content) = _
      rw [Function.update_of_ne (written.carried held there)]
      rfl
    change _ = log.stdout ++ (log.due ++ batch ++ queue).map _
    rw [texts]
    exact written.order
  fits := written.fits

theorem calls_left {thread other : Option ι} {call : LogCall}
    {holding : Option ι → Option (Fin logBufferNumElem)}
    (calling : Function.update log.call thread none other = some call) :
    log.call other = some call ∧ Function.update holding thread none other = holding other := by
  have apart : other ≠ thread := by
    intro same
    rw [same, Function.update_self] at calling
    contradiction
  rw [Function.update_of_ne apart] at calling
  exact ⟨calling, Function.update_of_ne apart none holding⟩

/-- `malloc` fails: the buffer is lost, and the text with it. -/
theorem Written.lost {thread : Option ι} {buf : Fin logBufferNumElem}
    (written : Written log free queue batch)
    (held : log.debugLogPool.holding thread = some buf) :
    Written { log with
      debugLogPool := { log.debugLogPool with
        holding := Function.update log.debugLogPool.holding thread none }
      call := Function.update log.call thread none } free queue batch :=
  written.still (written.shared.leak held) rfl rfl rfl fun _ _ calling => calls_left calling

variable [DecidableEq μ]

omit [DecidableEq ι] in
theorem texts_sent {msgs : List μ} {msg : μ} {message : Message ι (Fin logBufferNumElem)}
    (unused : msg ∉ msgs) :
    (msgs ++ [msg]).map (fun sent => cString (log.debugLogBuffer
      (Function.update log.debugLogPool.task.memory msg message sent).content)) =
      msgs.map log.text ++ [cString (log.debugLogBuffer message.content)] := by
  have known : msgs.map (fun sent => cString (log.debugLogBuffer
      (Function.update log.debugLogPool.task.memory msg message sent).content)) =
      msgs.map log.text := by
    apply List.map_congr_left
    intro sent there
    have other : sent ≠ msg := fun same => unused (same ▸ there)
    rw [Function.update_of_ne other]
    rfl
  rw [List.map_append, known, List.map_singleton, Function.update_self]

theorem Written.notify {thread : Option ι} {call : LogCall} {buf : Fin logBufferNumElem} {msg : μ}
    (written : Written log free queue batch) (calling : log.call thread = some call)
    (fits : logFits call.len = true) (held : log.debugLogPool.holding thread = some buf)
    (fresh : log.debugLogPool.task.allocated msg = false) :
    Written { log with
      debugLogPool := { log.debugLogPool with
        task := taskNotifyAdd thread msg buf log.debugLogPool.task
        holding := Function.update log.debugLogPool.holding thread none }
      call := Function.update log.call thread none
      passed := log.passed ++ [(thread, call.formatted.bytes)] } free (queue ++ [msg]) batch := by
  rcases written.calls thread call calling with ⟨own, holds, text⟩
  obtain rfl := Option.some.inj (holds.symm.trans held)
  rcases text fits with ⟨shown, sized⟩
  have shared := written.shared.notify held fresh
  have unused : msg ∉ log.due ++ batch ++ queue := by
    intro there
    have live : msg ∈ log.debugLogPool.task.phase.running ++ batch ++ queue := by
      unfold Log.due at there
      split at there
      · exact List.append_assoc _ _ _ ▸ List.mem_append_right _ there
      · exact there
    rw [written.shared.stocked.queued.live msg live] at fresh
    contradiction
  constructor
  · exact shared
  · exact written.sizes
  · intro other called calling'
    rcases calls_left calling' with ⟨before, same⟩
    rcases written.calls other called before with ⟨own', holds', text'⟩
    exact ⟨own', same.trans holds', text'⟩
  · calc
      (log.passed ++ [(thread, call.formatted.bytes)]).map (fun entry => cString entry.2)
      _ = log.passed.map (fun entry => cString entry.2) ++ [cString call.formatted.bytes] := by
        rw [List.map_append, List.map_singleton]
      _ = log.stdout ++ ((log.due ++ batch ++ queue).map log.text ++
            [cString (log.debugLogBuffer own)]) := by
        rw [written.order, shown, List.append_assoc]
      _ = log.stdout ++ (log.due ++ batch ++ (queue ++ [msg])).map (fun sent =>
            cString (log.debugLogBuffer (Function.update log.debugLogPool.task.memory msg
              ⟨thread, log.debugLogPool.task.sent.length, own⟩ sent).content)) := by
        rw [← List.append_assoc _ queue [msg], texts_sent unused]
  · intro entry member
    rcases List.mem_append.mp member with before | now
    · exact written.fits entry before
    · obtain rfl := List.mem_singleton.mp now
      exact sized

omit [DecidableEq ι] in
theorem Written.take {msg : μ} (written : Written log free queue (msg :: batch))
    (draining : log.debugLogPool.task.phase = .draining) :
    Written { log with
      debugLogPool := { log.debugLogPool with task := { log.debugLogPool.task with
        links := listDelInit (.le msg) log.debugLogPool.task.links
        phase := .handling msg
        handled := log.debugLogPool.task.handled ++ [log.debugLogPool.task.memory msg] } }
      printed := false } free queue batch where
  shared := written.shared.take draining
  sizes := written.sizes
  calls := written.calls
  order := by
    have before := written.order
    have none : log.due = [] := by
      simp [Log.due, draining, Phase.running]
    rw [none] at before
    exact before
  fits := written.fits

omit [DecidableEq ι] [DecidableEq μ] in
theorem Written.print {msg : μ} (written : Written log free queue batch)
    (handling : log.debugLogPool.task.phase = .handling msg) (waits : log.printed = false) :
    Written (log.print (log.debugLogPool.task.memory msg).content) free queue batch where
  shared := written.shared
  sizes := written.sizes
  calls := written.calls
  order := by
    have due : log.due = [msg] := by
      simp [Log.due, waits, handling, Phase.running]
    have after : log.passed.map (fun entry => cString entry.2) =
        log.stdout ++ [log.text msg] ++ ([] ++ batch ++ queue).map log.text := by
      rw [written.order, due]
      simp
    exact after
  fits := written.fits

omit [DecidableEq ι] in
theorem Written.finish {msg : μ} (written : Written log free queue batch)
    (handling : log.debugLogPool.task.phase = .handling msg) (printed : log.printed = true) :
    Written { log with debugLogPool := { log.debugLogPool with
      links := putItemPoolBuffer (log.debugLogPool.task.memory msg).content log.debugLogPool.links
      task := { log.debugLogPool.task with
        allocated := Function.update log.debugLogPool.task.allocated msg false
        phase := .draining } } } (free ++ [(log.debugLogPool.task.memory msg).content]) queue
      batch where
  shared := written.shared.finish handling
  sizes := written.sizes
  calls := written.calls
  order := by
    have before := written.order
    simp only [Log.due, printed, if_true] at before ⊢
    exact before
  fits := written.fits

def Ordered (log : Log ι μ) : Prop := ∃ free queue batch, Written log free queue batch

omit [DecidableEq ι] [DecidableEq μ] in
theorem Written.task {task : Task ι μ (Fin logBufferNumElem)} {queue' batch' : List μ}
    (written : Written log free queue batch) (queued : Queued task queue' batch')
    (messages : batch' ++ queue' = batch ++ queue)
    (memory : task.memory = log.debugLogPool.task.memory)
    (running : task.phase.running = log.debugLogPool.task.phase.running) :
    Ordered { log with debugLogPool := { log.debugLogPool with task := task } } :=
  ⟨free, queue', batch', written.still (written.shared.task queued messages memory running)
    messages memory running fun _ _ calling => ⟨calling, rfl⟩⟩

omit [DecidableEq μ] in
theorem Written.get {thread : Option ι} (written : Written log free queue batch)
    (unused : log.debugLogPool.holding thread = none) :
    Ordered { log with debugLogPool := { log.debugLogPool with
      links := (getItemPoolBuffer log.debugLogPool.links).2
      holding := Function.update log.debugLogPool.holding thread
        (getItemPoolBuffer log.debugLogPool.links).1 } } := by
  rcases written.shared.get unused with ⟨free', shared⟩
  refine ⟨free', queue, batch, written.still shared rfl rfl rfl fun other call calling => ?_⟩
  rcases written.calls other call calling with ⟨buf, held, -⟩
  have apart : other ≠ thread := by
    intro same
    rw [same, unused] at held
    contradiction
  exact ⟨calling, Function.update_of_ne apart _ _⟩

omit [DecidableEq μ] in
theorem Written.put {thread : Option ι} {buf : Fin logBufferNumElem}
    (written : Written log free queue batch)
    (held : log.debugLogPool.holding thread = some buf) :
    Ordered { log with
      debugLogPool := { log.debugLogPool with
        links := putItemPoolBuffer buf log.debugLogPool.links
        holding := Function.update log.debugLogPool.holding thread none }
      call := Function.update log.call thread none } :=
  ⟨free ++ [buf], queue, batch, written.still (written.shared.put held) rfl rfl rfl
    fun _ _ calling => calls_left calling⟩

theorem Written.unmoved {event : PoolEvent ι μ} {next : Log ι μ}
    (written : Written log free queue batch) (taken : log.stepPool event = some next)
    (quiet : event.quiet = true) : Ordered next := by
  rcases Option.map_eq_some_iff.mp taken with ⟨pool, stepped, rfl⟩
  rcases itemPoolQuiet_some written.shared.stocked quiet stepped with
    ⟨task, queue', batch', rfl, queued, messages, memory, running⟩
  exact written.task queued messages memory running

theorem Written.notifies {thread : Option ι} {call : LogCall} {malloc : Option μ}
    {next : Log ι μ} (written : Written log free queue batch) (calling : log.call thread = some call)
    (taken : log.stepPool (.notify thread call.len malloc) = some next) :
    Ordered (next.leave thread (malloc.toList.map fun _ => (thread, call.formatted.bytes))) := by
  rcases Option.map_eq_some_iff.mp taken with ⟨pool, stepped, rfl⟩
  cases malloc with
  | none =>
      rcases itemPoolNotify_none stepped with ⟨buf, held, rfl⟩
      refine ⟨free, queue, batch, ?_⟩
      simpa [Log.leave] using written.lost held
  | some msg =>
      rcases itemPoolNotify_some stepped with ⟨buf, held, fits, fresh, rfl⟩
      exact ⟨free, queue ++ [msg], batch, written.notify calling fits held fresh⟩

theorem Written.prints {next : Log ι μ} (written : Written log free queue batch)
    (taken : logStep log .debugLog = some next) : Ordered next := by
  simp only [logStep] at taken
  split at taken
  · rename_i msg handling
    rcases Option.ite_none_left_eq_some.mp taken with ⟨waits, same⟩
    obtain rfl := Option.some.inj same
    rw [Bool.not_eq_true] at waits
    exact ⟨free, queue, batch, written.print handling waits⟩
  · contradiction

theorem logStep_ordered (log : Log ι μ) (event : LogEvent ι μ) (next : Log ι μ)
    (ordered : Ordered log) (taken : logStep log event = some next) : Ordered next := by
  rcases ordered with ⟨free, queue, batch, written⟩
  cases event with
  | get thread =>
      rcases Option.map_eq_some_iff.mp taken with ⟨pool, stepped, rfl⟩
      rcases itemPoolGet_some stepped with ⟨unused, rfl⟩
      exact written.get unused
  | vsnprintf thread formatted =>
      rcases Option.bind_eq_some_iff.mp taken with ⟨buf, held, wrote⟩
      rcases Option.ite_none_right_eq_some.mp wrote with ⟨-, same⟩
      obtain rfl := Option.some.inj same
      exact ⟨free, queue, batch, written.format formatted held⟩
  | put thread =>
      rcases Option.bind_eq_some_iff.mp taken with ⟨call, calling, returned⟩
      rcases Option.map_eq_some_iff.mp returned with ⟨middle, moved, rfl⟩
      rcases Option.map_eq_some_iff.mp moved with ⟨pool, stepped, rfl⟩
      rcases itemPoolPut_some stepped with ⟨buf, held, rfl⟩
      simpa [Log.leave] using written.put held
  | notify thread malloc =>
      rcases Option.bind_eq_some_iff.mp taken with ⟨call, calling, returned⟩
      rcases Option.map_eq_some_iff.mp returned with ⟨middle, moved, rfl⟩
      exact written.notifies calling moved
  | signal thread merged => exact written.unmoved taken rfl
  | start => exact written.unmoved taken rfl
  | cut => exact written.unmoved taken rfl
  | take =>
      rcases Option.map_eq_some_iff.mp taken with ⟨middle, moved, rfl⟩
      rcases Option.map_eq_some_iff.mp moved with ⟨pool, stepped, rfl⟩
      rcases itemPoolTake_some written.shared.stocked stepped with ⟨msg, rest, rfl, draining, rfl⟩
      exact ⟨free, queue, rest, written.take draining⟩
  | debugLog => exact written.prints taken
  | finish =>
      rcases Option.ite_none_right_eq_some.mp taken with ⟨printed, moved⟩
      rcases Option.map_eq_some_iff.mp moved with ⟨pool, stepped, rfl⟩
      rcases itemPoolFinish_some stepped with ⟨msg, handling, rfl⟩
      exact ⟨_, queue, batch, written.finish handling printed⟩
  | done => exact written.unmoved taken rfl

omit [DecidableEq ι] in
theorem logInit_ordered (links : Links (PoolCell logBufferNumElem)) (taskLinks : Links (Cell μ))
    (memory : μ → Message ι (Fin logBufferNumElem)) : Ordered (logInit links taskLinks memory) := by
  rcases itemPoolInit_kept links taskLinks memory with ⟨free, queue, batch, stocked, placed⟩
  have none : batch ++ queue = [] := List.map_eq_nil_iff.mp stocked.queued.order.symm
  refine ⟨free, queue, batch, ⟨stocked, placed.apart⟩, ?_, ?_, ?_, ?_⟩
  · exact fun buf => List.length_replicate
  · exact fun thread call calling => nomatch calling
  · change [] = ([] ++ batch ++ queue).map _
    rw [List.nil_append, none, List.map_nil]
  · exact fun entry member => absurd member List.not_mem_nil

end Steps

section Calls

variable [DecidableEq ι]

/-- What a thread has `vsnprintf` print in an event. -/
def LogEvent.textBy (thread : Option ι) : LogEvent ι μ → Option (List UInt8)
  | .vsnprintf other formatted => if other = thread then some formatted.bytes else none
  | _ => none

def Log.passedBy (log : Log ι μ) (thread : Option ι) : List (List UInt8) :=
  (log.passed.filter fun entry => decide (entry.1 = thread)).map Prod.snd

def Log.current (log : Log ι μ) (thread : Option ι) : List (List UInt8) :=
  (log.call thread).toList.map fun call => call.formatted.bytes

variable [DecidableEq μ] {log next : Log ι μ}

omit [DecidableEq μ] in
theorem leave_sublist {thread other : Option ι} {call : LogCall} (malloc : Option μ)
    (calling : log.call other = some call) :
    ((log.leave other (malloc.toList.map fun _ => (other, call.formatted.bytes))).passedBy thread ++
      (log.leave other (malloc.toList.map fun _ => (other, call.formatted.bytes))).current
        thread).Sublist (log.passedBy thread ++ log.current thread) := by
  by_cases same : other = thread
  · subst same
    have current : log.current other = [call.formatted.bytes] := by
      simp [Log.current, calling]
    rw [current]
    cases malloc <;> simp [Log.leave, Log.passedBy, Log.current]
  · have apart : thread ≠ other := fun back => same back.symm
    cases malloc <;> simp [Log.leave, Log.passedBy, Log.current, same, apart]

omit [DecidableEq μ] in
/-- `vsnprintf` is called once in a call. -/
theorem format_sublist {thread other : Option ι} {buf : Fin logBufferNumElem}
    {formatted : Formatted} (outside : (log.call other).isNone = true) :
    ((log.format other buf formatted).passedBy thread ++
      (log.format other buf formatted).current thread).Sublist
      (log.passedBy thread ++ log.current thread ++
        ((LogEvent.vsnprintf other formatted : LogEvent ι μ).textBy thread).toList) := by
  rw [Option.isNone_iff_eq_none] at outside
  by_cases same : other = thread
  · subst same
    simp [Log.format, Log.passedBy, Log.current, LogEvent.textBy, outside]
  · have apart : thread ≠ other := fun back => same back.symm
    simp [Log.format, Log.passedBy, Log.current, LogEvent.textBy, same, apart]

theorem stepPool_calls {event : PoolEvent ι μ} (thread : Option ι)
    (taken : log.stepPool event = some next) :
    next.passedBy thread ++ next.current thread = log.passedBy thread ++ log.current thread := by
  rcases Option.map_eq_some_iff.mp taken with ⟨pool, -, rfl⟩
  rfl

theorem logStep_sublist {event : LogEvent ι μ} (thread : Option ι)
    (taken : logStep log event = some next) :
    (next.passedBy thread ++ next.current thread).Sublist
      (log.passedBy thread ++ log.current thread ++ (event.textBy thread).toList) := by
  have pool {event : PoolEvent ι μ} {next : Log ι μ} (moved : log.stepPool event = some next) :
      (next.passedBy thread ++ next.current thread).Sublist
        (log.passedBy thread ++ log.current thread ++ []) := by
    rw [stepPool_calls thread moved, List.append_nil]
  cases event with
  | vsnprintf other formatted =>
      rcases Option.bind_eq_some_iff.mp taken with ⟨buf, -, wrote⟩
      rcases Option.ite_none_right_eq_some.mp wrote with ⟨outside, same⟩
      obtain rfl := Option.some.inj same
      exact format_sublist outside
  | put other =>
      rcases Option.bind_eq_some_iff.mp taken with ⟨call, calling, returned⟩
      rcases Option.map_eq_some_iff.mp returned with ⟨middle, moved, rfl⟩
      rcases Option.map_eq_some_iff.mp moved with ⟨pool, -, rfl⟩
      change List.Sublist _ (_ ++ [])
      rw [List.append_nil]
      exact @leave_sublist _ _ _ { log with debugLogPool := pool } _ _ _ none calling
  | notify other malloc =>
      rcases Option.bind_eq_some_iff.mp taken with ⟨call, calling, returned⟩
      rcases Option.map_eq_some_iff.mp returned with ⟨middle, moved, rfl⟩
      rcases Option.map_eq_some_iff.mp moved with ⟨pool, -, rfl⟩
      change List.Sublist _ (_ ++ [])
      rw [List.append_nil]
      exact @leave_sublist _ _ _ { log with debugLogPool := pool } _ _ _ malloc calling
  | get other => exact pool taken
  | signal other merged => exact pool taken
  | start => exact pool taken
  | cut => exact pool taken
  | done => exact pool taken
  | take =>
      rcases Option.map_eq_some_iff.mp taken with ⟨middle, moved, rfl⟩
      rcases Option.map_eq_some_iff.mp moved with ⟨pool, -, rfl⟩
      exact List.sublist_append_left _ []
  | debugLog =>
      simp only [logStep] at taken
      split at taken
      · rcases Option.ite_none_left_eq_some.mp taken with ⟨-, same⟩
        obtain rfl := Option.some.inj same
        exact List.sublist_append_left _ []
      · contradiction
  | finish =>
      rcases Option.ite_none_right_eq_some.mp taken with ⟨-, moved⟩
      exact pool moved

theorem logRun_sublist {events : List (LogEvent ι μ)} (thread : Option ι)
    (run : events.foldlM logStep log = some next) :
    (next.passedBy thread ++ next.current thread).Sublist
      (log.passedBy thread ++ log.current thread ++
        events.filterMap (LogEvent.textBy thread)) := by
  induction events generalizing log with
  | nil =>
      obtain rfl := Option.some.inj run
      simp
  | cons event events ih =>
      rcases Run.foldlM_cons_some run with ⟨middle, taken, rest⟩
      have step := logStep_sublist thread taken
      have later := ih rest
      have split : (event :: events).filterMap (LogEvent.textBy thread) =
          (event.textBy thread).toList ++ events.filterMap (LogEvent.textBy thread) := by
        cases seen : event.textBy thread <;> simp [seen]
      rw [split, ← List.append_assoc]
      exact later.trans (step.append (List.Sublist.refl _))

end Calls

/-- What the threads have had printed, what was passed on and what is on `stdout`. -/
structure Prints [DecidableEq ι] (events : List (LogEvent ι μ)) (log : Log ι μ)
    (waiting : List (List UInt8)) : Prop where
  order : log.passed.map (fun entry => cString entry.2) = log.stdout ++ waiting
  fits : ∀ entry ∈ log.passed, 0 < entry.2.length ∧ entry.2.length < logBufferSize
  threads : ∀ thread,
    (log.passedBy thread).Sublist (events.filterMap (LogEvent.textBy thread))
  quiet : log.debugLogPool.task.phase = .loop → log.debugLogPool.task.pending = 0 →
    (∀ thread, log.debugLogPool.task.signalling thread = false) → waiting = []

theorem Written.quiet {log : Log ι μ} {free : List (Fin logBufferNumElem)} {queue batch : List μ}
    (written : Written log free queue batch) (rest : log.debugLogPool.task.phase = .loop)
    (due : log.debugLogPool.task.pending = 0)
    (silent : ∀ thread, log.debugLogPool.task.signalling thread = false) :
    log.due ++ batch ++ queue = [] := by
  have queued := written.shared.stocked.queued
  have none : log.due = [] := by
    simp [Log.due, rest, Phase.running]
  have empty : queue = [] := by
    by_contra full
    rcases queued.awake full with notified | started | ⟨thread, adding⟩
    · omega
    · rw [rest] at started
      contradiction
    · rw [silent thread] at adding
      contradiction
  rw [none, queued.waiting (Or.inl rest), empty]
  rfl

variable [DecidableEq ι] [DecidableEq μ]

/-- In every run the texts passed on come out on `stdout`, each whole, once and in the order
in which they were passed on, and those of a thread in the order of its calls; none is left
once the log has nothing to do. -/
theorem log_prints (links : Links (PoolCell logBufferNumElem)) (taskLinks : Links (Cell μ))
    (memory : μ → Message ι (Fin logBufferNumElem)) {events : List (LogEvent ι μ)} {log : Log ι μ}
    (run : events.foldlM logStep (logInit links taskLinks memory) = some log) :
    ∃ waiting, Prints events log waiting := by
  have ordered : Ordered log :=
    Run.invariant logStep_ordered (logInit_ordered links taskLinks memory) run
  rcases ordered with ⟨free, queue, batch, written⟩
  refine ⟨(log.due ++ batch ++ queue).map log.text, written.order, written.fits, ?_, ?_⟩
  · intro thread
    have whole := logRun_sublist thread run
    exact (List.sublist_append_left _ _).trans whole
  · intro rest due silent
    rw [written.quiet rest due silent, List.map_nil]

section Tests

def chatter : List (LogEvent Bool Nat) :=
  [.get (some true), .vsnprintf (some true) (.text [72, 105]), .get (some false),
    .notify (some true) (some 0), .signal (some true) false, .start, .cut, .take,
    .vsnprintf (some false) (.text [66, 121, 101, 0, 33]), .debugLog,
    .notify (some false) (some 1), .finish, .done, .get (some true),
    .signal (some false) false, .vsnprintf (some true) (.text (List.replicate 300 65)),
    .put (some true), .start, .cut, .take, .debugLog, .finish, .done]

theorem log_prints_chatter :
    ∃ log, chatter.foldlM logStep
        (logInit ⟨id, id⟩ ⟨id, id⟩ fun _ => ⟨none, 0, ⟨0, by decide⟩⟩) = some log ∧
      log.stdout = [[72, 105], [66, 121, 101]] ∧ ∃ waiting, Prints chatter log waiting := by
  have ran : (chatter.foldlM logStep (logInit ⟨id, id⟩ ⟨id, id⟩
      fun _ => ⟨none, 0, ⟨0, by decide⟩⟩)).map Log.stdout = some [[72, 105], [66, 121, 101]] := by
    decide +kernel
  rcases Option.map_eq_some_iff.mp ran with ⟨log, run, printed⟩
  exact ⟨log, run, printed, log_prints _ _ _ run⟩

end Tests

end KongjaExpress.Tasks
