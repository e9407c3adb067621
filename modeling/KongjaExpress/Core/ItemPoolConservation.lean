import KongjaExpress.Core.ItemPool
import KongjaExpress.Library.Placement

/-! No buffer of a pool is lost unless `malloc` fails. -/

namespace KongjaExpress.Tasks

open LinkedCells Placement Utils

/-- Where a buffer can be: in the free list, with a thread, in a message that is queued, or
being consumed. -/
inductive Place (ι μ : Type)
  | free
  | held (thread : Option ι)
  | carried (msg : μ)
  | consumed
  deriving DecidableEq

variable {ι μ : Type} {n : Nat}

def At (pool : ItemPool ι μ n) (free : List (Fin n)) (messages : List μ) :
    Place ι μ → Fin n → Prop
  | .free, buf => buf ∈ free
  | .held thread, buf => pool.holding thread = some buf
  | .carried msg, buf => msg ∈ messages ∧ (pool.task.memory msg).content = buf
  | .consumed, buf =>
      ∃ msg, pool.task.phase = .handling msg ∧ (pool.task.memory msg).content = buf

structure Stocked (pool : ItemPool ι μ n) (free : List (Fin n)) (queue batch : List μ) :
    Prop where
  free : Circular pool.links .freeBufferList (free.map .le)
  queued : Queued pool.task queue batch

structure Lists (pool : ItemPool ι μ n) (free : List (Fin n)) (queue batch : List μ) : Prop where
  free : Circular pool.links .freeBufferList (free.map .le)
  msgs : Circular pool.task.links .msgs (queue.map .le)
  tmpList : pool.task.phase ≠ .loop → Circular pool.task.links .tmpList (batch.map .le)
  idle : pool.task.phase = .loop → batch = []

def ItemPool.Idle (pool : ItemPool ι μ n) (queue : List μ) : Prop :=
  pool.task.phase = .loop ∧ queue = [] ∧ ∀ thread, pool.holding thread = none

/-- Each buffer is in exactly one place, and the free list, where no buffer is twice, has
all of them once nobody is at work. -/
def Conserved (pool : ItemPool ι μ n) : Prop :=
  ∃ free queue batch, Lists pool free queue batch ∧ Placed (At pool free (batch ++ queue)) ∧
    free.Nodup ∧ (pool.Idle queue → ∀ buf, buf ∈ free)

section Lists

variable {pool : ItemPool ι μ n} {free : List (Fin n)} {queue batch : List μ}

theorem Stocked.lists (stocked : Stocked pool free queue batch) : Lists pool free queue batch where
  free := stocked.free
  msgs := stocked.queued.msgs
  tmpList := stocked.queued.tmpList
  idle rest := stocked.queued.waiting (Or.inl rest)

theorem poolLe_injective : Function.Injective (@PoolCell.le n) := fun _ _ => PoolCell.le.inj

theorem le_injective : Function.Injective (@Cell.le μ) := fun _ _ => Cell.le.inj

theorem Lists.unique {free' : List (Fin n)} {queue' batch' : List μ}
    (lists : Lists pool free queue batch) (lists' : Lists pool free' queue' batch') :
    free = free' ∧ queue = queue' ∧ batch = batch' := by
  refine ⟨poolLe_injective.list_map (lists.free.unique lists'.free),
    le_injective.list_map (lists.msgs.unique lists'.msgs), ?_⟩
  by_cases rest : pool.task.phase = .loop
  · rw [lists.idle rest, lists'.idle rest]
  · exact le_injective.list_map ((lists.tmpList rest).unique (lists'.tmpList rest))

theorem free_nodup (circular : Circular pool.links .freeBufferList (free.map .le)) : free.Nodup :=
  (List.nodup_cons.mp circular.nodup).2.of_map _

theorem idle_free (lists : Lists pool free queue batch)
    (placed : Placed (At pool free (batch ++ queue))) (idle : pool.Idle queue) (buf : Fin n) :
    buf ∈ free := by
  rcases idle with ⟨rest, none, silent⟩
  rcases placed buf with ⟨place, there, -⟩
  cases place with
  | free => exact there
  | held thread => simp [At, silent thread] at there
  | carried msg => simp [At, none, lists.idle rest] at there
  | consumed => simp [At, rest] at there

theorem conserved_iff_placed (lists : Lists pool free queue batch) :
    Conserved pool ↔ Placed (At pool free (batch ++ queue)) := by
  constructor
  · rintro ⟨free', queue', batch', lists', placed, -⟩
    rcases lists.unique lists' with ⟨rfl, rfl, rfl⟩
    exact placed
  · intro placed
    exact ⟨free, queue, batch, lists, placed, free_nodup lists.free, idle_free lists placed⟩

end Lists

section FreeList

variable {links : Links (PoolCell n)} {free : List (Fin n)}

theorem getItemPoolBuffer_cons {buf : Fin n}
    (circular : Circular links .freeBufferList ((buf :: free).map .le)) :
    getItemPoolBuffer links = (some buf, listDelInit (.le buf) links) ∧
      Circular (listDelInit (.le buf) links) .freeBufferList (free.map .le) := by
  have full : ¬ listEmpty .freeBufferList links = true := by simp [listEmpty_iff circular]
  rw [List.map_cons] at circular
  constructor
  · rw [getItemPoolBuffer, if_neg full, circular.first]
  · exact listDelInit_circular circular

theorem getItemPoolBuffer_nil (circular : Circular links .freeBufferList ([].map .le)) :
    getItemPoolBuffer links = (none, links) :=
  if_pos ((listEmpty_iff circular).mpr rfl)

theorem putItemPoolBuffer_circular {buf : Fin n}
    (circular : Circular links .freeBufferList (free.map .le)) (fresh : buf ∉ free) :
    Circular (putItemPoolBuffer buf links) .freeBufferList ((free ++ [buf]).map .le) := by
  rw [List.map_append]
  exact listAddTail_circular circular (by simpa using fresh)

/-- The buffers from `item_pool_init`'s loop, one after the other. -/
theorem itemPoolInit_loop {bufs : List (Fin n)}
    (circular : Circular links .freeBufferList (free.map .le)) (distinct : (free ++ bufs).Nodup) :
    Circular (bufs.foldl (fun links buf => putItemPoolBuffer buf (initListHead (.le buf) links))
      links) .freeBufferList ((free ++ bufs).map .le) := by
  induction bufs generalizing links free with
  | nil => simpa using circular
  | cons buf bufs ih =>
      have fresh : buf ∉ free := by grind
      have initialised : Circular (initListHead (.le buf) links) .freeBufferList (free.map .le) :=
        circular.frame (initListHead_outside _ _) (by grind)
      have put := ih (putItemPoolBuffer_circular initialised fresh) (by simpa using distinct)
      rwa [List.append_assoc, List.singleton_append] at put

end FreeList

theorem itemPoolInit_stocked (links : Links (PoolCell n)) {task : Task ι μ (Fin n)}
    (queued : Queued task [] []) : Stocked (itemPoolInit links task) (List.finRange n) [] [] where
  free := by
    have empty := initListHead_circular (.freeBufferList : PoolCell n) links
    exact @itemPoolInit_loop n _ [] _ empty (List.nodup_finRange n)
  queued := queued

section Steps

variable {pool : ItemPool ι μ n} {free : List (Fin n)} {queue batch : List μ} [DecidableEq ι]

theorem get_moves {thread : Option ι} {buf : Fin n}
    (stocked : Stocked pool (buf :: free) queue batch) (unused : pool.holding thread = none) :
    Moves (At pool (buf :: free) (batch ++ queue))
      (At { pool with
        links := listDelInit (.le buf) pool.links
        holding := Function.update pool.holding thread (some buf) } free (batch ++ queue))
      buf .free (.held thread) := by
  have distinct := free_nodup stocked.free
  refine ⟨List.mem_cons_self, fun place other => ?_⟩
  cases place with
  | free =>
      simp only [At, List.mem_cons]
      grind
  | held holder =>
      simp only [At, Function.update_apply]
      grind
  | carried msg => simp [At]
  | consumed => simp [At]

theorem put_moves {thread : Option ι} {buf : Fin n} {links : Links (PoolCell n)}
    (held : pool.holding thread = some buf) :
    Moves (At pool free (batch ++ queue))
      (At { pool with
        links := links
        holding := Function.update pool.holding thread none } (free ++ [buf]) (batch ++ queue))
      buf (.held thread) .free := by
  refine ⟨held, fun place other => ?_⟩
  cases place with
  | free => simp [At, or_comm]
  | held holder =>
      simp only [At, Function.update_apply]
      grind
  | carried msg => simp [At]
  | consumed => simp [At]

theorem leak_drops {thread : Option ι} {buf : Fin n} (held : pool.holding thread = some buf) :
    Drops (At pool free (batch ++ queue))
      (At { pool with holding := Function.update pool.holding thread none } free (batch ++ queue))
      buf (.held thread) := by
  refine ⟨held, fun place other => ?_⟩
  cases place with
  | free => simp [At]
  | held holder =>
      simp only [At, Function.update_apply]
      grind
  | carried msg => simp [At]
  | consumed => simp [At]

variable [DecidableEq μ]

theorem notify_moves {thread : Option ι} {buf : Fin n} {msg : μ}
    (stocked : Stocked pool free queue batch) (held : pool.holding thread = some buf)
    (fresh : pool.task.allocated msg = false) :
    Moves (At pool free (batch ++ queue))
      (At { pool with
        task := taskNotifyAdd thread msg buf pool.task
        holding := Function.update pool.holding thread none } free (batch ++ (queue ++ [msg])))
      buf (.held thread) (.carried msg) := by
  have absent : msg ∉ pool.task.phase.running ++ batch ++ queue := fun member => by
    simp [stocked.queued.live msg member] at fresh
  refine ⟨held, fun place other => ?_⟩
  cases place with
  | free => simp [At]
  | held holder =>
      simp only [At, Function.update_apply]
      grind
  | carried carrier =>
      simp only [At, taskNotifyAdd, taskQueueAdd, Function.update_apply]
      grind
  | consumed =>
      simp only [At, taskNotifyAdd, taskQueueAdd, Function.update_apply]
      grind [Phase.running]

omit [DecidableEq ι] in
theorem take_moves {msg : μ} (stocked : Stocked pool free queue (msg :: batch))
    (draining : pool.task.phase = .draining) :
    Moves (At pool free (msg :: batch ++ queue))
      (At { pool with task := { pool.task with
        links := listDelInit (.le msg) pool.task.links
        phase := .handling msg
        handled := pool.task.handled ++ [pool.task.memory msg] } } free (batch ++ queue))
      (pool.task.memory msg).content (.carried msg) .consumed := by
  have apart := stocked.queued.apart
  rw [draining] at apart
  refine ⟨⟨by simp, rfl⟩, fun place other => ?_⟩
  cases place with
  | free => simp [At]
  | held holder => simp [At]
  | carried carrier =>
      simp only [At]
      grind [Phase.running]
  | consumed =>
      simp only [At, draining]
      grind

omit [DecidableEq ι] in
theorem finish_moves {msg : μ} {links : Links (PoolCell n)}
    (handling : pool.task.phase = .handling msg) :
    Moves (At pool free (batch ++ queue))
      (At { pool with
        links := links
        task := { pool.task with
          allocated := Function.update pool.task.allocated msg false
          phase := .draining } } (free ++ [(pool.task.memory msg).content]) (batch ++ queue))
      (pool.task.memory msg).content .consumed .free := by
  refine ⟨⟨msg, handling, rfl⟩, fun place other => ?_⟩
  cases place with
  | free => simp [At, or_comm]
  | held holder => simp [At]
  | carried carrier => simp [At]
  | consumed =>
      simp only [At, handling]
      grind

section Inversions

variable {next : ItemPool ι μ n} {thread : Option ι} {len : Int}

theorem itemPoolGet_some (taken : itemPoolStep pool (.get thread) = some next) :
    pool.holding thread = none ∧
      next = { pool with
        links := (getItemPoolBuffer pool.links).2
        holding := Function.update pool.holding thread (getItemPoolBuffer pool.links).1 } := by
  rcases Option.ite_none_right_eq_some.mp taken with ⟨⟨-, unused⟩, got⟩
  exact ⟨unused, (Option.some.inj got).symm⟩

theorem itemPoolPut_some (taken : itemPoolStep pool (.put thread len) = some next) :
    ∃ buf, pool.holding thread = some buf ∧
      next = { pool with
        links := putItemPoolBuffer buf pool.links
        holding := Function.update pool.holding thread none } := by
  rcases Option.bind_eq_some_iff.mp taken with ⟨buf, held, gave⟩
  rcases Option.ite_none_right_eq_some.mp gave with ⟨-, put⟩
  exact ⟨buf, held, (Option.some.inj put).symm⟩

theorem itemPoolNotify_some {msg : μ}
    (taken : itemPoolStep pool (.notify thread len (some msg)) = some next) :
    ∃ buf, pool.holding thread = some buf ∧ logFits len = true ∧
      pool.task.allocated msg = false ∧
      next = { pool with
        task := taskNotifyAdd thread msg buf pool.task
        holding := Function.update pool.holding thread none } := by
  rcases Option.bind_eq_some_iff.mp taken with ⟨buf, held, gave⟩
  rcases Option.ite_none_right_eq_some.mp gave with ⟨fits, notified⟩
  rcases Option.map_eq_some_iff.mp notified with ⟨task, stepped, rfl⟩
  rcases Option.ite_none_right_eq_some.mp stepped with ⟨⟨-, fresh⟩, added⟩
  obtain rfl := Option.some.inj added
  exact ⟨buf, held, fits, fresh, rfl⟩

theorem itemPoolNotify_none (taken : itemPoolStep pool (.notify thread len none) = some next) :
    ∃ buf, pool.holding thread = some buf ∧
      next = { pool with holding := Function.update pool.holding thread none } := by
  rcases Option.bind_eq_some_iff.mp taken with ⟨buf, held, gave⟩
  rcases Option.ite_none_right_eq_some.mp gave with ⟨-, notified⟩
  rcases Option.map_eq_some_iff.mp notified with ⟨task, stepped, rfl⟩
  rcases Option.ite_none_right_eq_some.mp stepped with ⟨-, refused⟩
  obtain rfl := Option.some.inj refused
  exact ⟨buf, held, rfl⟩

theorem itemPoolTake_some (stocked : Stocked pool free queue batch)
    (taken : itemPoolStep pool .take = some next) :
    ∃ msg rest, batch = msg :: rest ∧ pool.task.phase = .draining ∧
      next = { pool with task := { pool.task with
        links := listDelInit (.le msg) pool.task.links
        phase := .handling msg
        handled := pool.task.handled ++ [pool.task.memory msg] } } := by
  rcases Option.map_eq_some_iff.mp taken with ⟨task, stepped, rfl⟩
  rcases take_some stocked.queued stepped with ⟨msg, rest, cut, draining, rfl⟩
  exact ⟨msg, rest, cut, draining, rfl⟩

theorem itemPoolFinish_some (taken : itemPoolStep pool .finish = some next) :
    ∃ msg, pool.task.phase = .handling msg ∧
      next = { pool with
        links := putItemPoolBuffer (pool.task.memory msg).content pool.links
        task := { pool.task with
          allocated := Function.update pool.task.allocated msg false
          phase := .draining } } := by
  simp only [itemPoolStep] at taken
  split at taken
  · rename_i msg handling
    rcases Option.ite_none_right_eq_some.mp taken with ⟨-, finished⟩
    rcases Option.map_eq_some_iff.mp finished with ⟨task, stepped, rfl⟩
    rcases finish_some stepped with ⟨msg', handling', rfl⟩
    obtain rfl := Phase.handling.inj (handling.symm.trans handling')
    exact ⟨msg, handling, rfl⟩
  · contradiction

/-- The events that move no buffer and no message out of the two lists. -/
def PoolEvent.quiet : PoolEvent ι μ → Bool
  | .signal _ _ | .start | .cut | .done => true
  | _ => false

theorem itemPoolQuiet_some {event : PoolEvent ι μ} (stocked : Stocked pool free queue batch)
    (quiet : event.quiet = true) (taken : itemPoolStep pool event = some next) :
    ∃ task queue' batch', next = { pool with task := task } ∧ Queued task queue' batch' ∧
      batch' ++ queue' = batch ++ queue ∧ task.memory = pool.task.memory ∧
      task.phase.running = pool.task.phase.running := by
  have queued := stocked.queued
  cases event with
  | signal thread merged =>
      rcases Option.map_eq_some_iff.mp taken with ⟨task, stepped, rfl⟩
      rcases Option.ite_none_right_eq_some.mp stepped with ⟨-, signalled⟩
      obtain rfl := Option.some.inj signalled
      exact ⟨_, queue, batch, rfl, queued_signal queued thread merged, rfl, rfl, rfl⟩
  | start =>
      rcases Option.ite_none_right_eq_some.mp taken with ⟨-, taken⟩
      rcases Option.map_eq_some_iff.mp taken with ⟨task, stepped, rfl⟩
      rcases Option.ite_none_right_eq_some.mp stepped with ⟨⟨rest, -⟩, started⟩
      obtain rfl := Option.some.inj started
      exact ⟨_, queue, batch, rfl, queued_start queued rest, rfl, rfl, by rw [rest]; rfl⟩
  | cut =>
      rcases Option.map_eq_some_iff.mp taken with ⟨task, stepped, rfl⟩
      rcases Option.ite_none_right_eq_some.mp stepped with ⟨started, cut⟩
      obtain rfl := Option.some.inj cut
      have messages : queue ++ [] = batch ++ queue := by
        rw [queued.waiting (Or.inr started), List.append_nil, List.nil_append]
      exact ⟨_, [], queue, rfl, queued_cut queued started, messages, rfl, by rw [started]; rfl⟩
  | done =>
      rcases Option.map_eq_some_iff.mp taken with ⟨task, stepped, rfl⟩
      rcases Option.ite_none_right_eq_some.mp stepped with ⟨⟨draining, empty⟩, returned⟩
      obtain rfl := Option.some.inj returned
      exact ⟨_, queue, batch, rfl, queued_done queued draining empty, rfl, rfl,
        by rw [draining]; rfl⟩
  | get thread => contradiction
  | put thread len => contradiction
  | notify thread len malloc => contradiction
  | take => contradiction
  | finish => contradiction

end Inversions

def Kept (pool : ItemPool ι μ n) : Prop :=
  ∃ free queue batch, Stocked pool free queue batch ∧ Placed (At pool free (batch ++ queue))

/-- `malloc` fails inside `task_notify`. -/
def PoolEvent.mallocFails : PoolEvent ι μ → Bool
  | .notify _ _ none => true
  | _ => false

omit [DecidableEq μ] in
theorem put_kept {thread : Option ι} {buf : Fin n} (stocked : Stocked pool free queue batch)
    (placed : Placed (At pool free (batch ++ queue))) (held : pool.holding thread = some buf) :
    Kept { pool with
      links := putItemPoolBuffer buf pool.links
      holding := Function.update pool.holding thread none } := by
  have fresh : buf ∉ free := fun back => by
    have same : (Place.free : Place ι μ) = .held thread := (placed buf).unique back held
    contradiction
  exact ⟨free ++ [buf], queue, batch,
    ⟨putItemPoolBuffer_circular stocked.free fresh, stocked.queued⟩,
    (put_moves held).placed placed⟩

omit [DecidableEq μ] in
theorem get_kept {thread : Option ι} (stocked : Stocked pool free queue batch)
    (placed : Placed (At pool free (batch ++ queue))) (unused : pool.holding thread = none) :
    Kept { pool with
      links := (getItemPoolBuffer pool.links).2
      holding := Function.update pool.holding thread (getItemPoolBuffer pool.links).1 } := by
  cases free with
  | nil =>
      have same : Function.update pool.holding thread none = pool.holding :=
        Function.update_eq_self_iff.mpr unused.symm
      rw [getItemPoolBuffer_nil stocked.free, same]
      exact ⟨[], queue, batch, stocked, placed⟩
  | cons buf free =>
      rcases getItemPoolBuffer_cons stocked.free with ⟨got, rest⟩
      rw [got]
      exact ⟨free, queue, batch, ⟨rest, stocked.queued⟩, (get_moves stocked unused).placed placed⟩

omit [DecidableEq ι] [DecidableEq μ] in
theorem stepTask_kept {task : Task ι μ (Fin n)} {queue' batch' : List μ}
    (stocked : Stocked pool free queue batch) (placed : Placed (At pool free (batch ++ queue)))
    (queued : Queued task queue' batch') (messages : batch' ++ queue' = batch ++ queue)
    (memory : task.memory = pool.task.memory)
    (running : task.phase.running = pool.task.phase.running) :
    Kept { pool with task := task } := by
  refine ⟨free, queue', batch', ⟨stocked.free, queued⟩, placed.congr fun place buf => ?_⟩
  cases place with
  | free => exact Iff.rfl
  | held thread => exact Iff.rfl
  | carried msg => simp only [At, messages, memory]
  | consumed => simp only [At, memory, ← mem_running, running]

theorem notify_kept {thread : Option ι} {buf : Fin n} {msg : μ}
    (stocked : Stocked pool free queue batch) (placed : Placed (At pool free (batch ++ queue)))
    (held : pool.holding thread = some buf) (fresh : pool.task.allocated msg = false) :
    Kept { pool with
      task := taskNotifyAdd thread msg buf pool.task
      holding := Function.update pool.holding thread none } :=
  ⟨free, queue ++ [msg], batch, ⟨stocked.free, queued_add stocked.queued fresh⟩,
    (notify_moves stocked held fresh).placed placed⟩

omit [DecidableEq ι] in
theorem take_kept {msg : μ} (stocked : Stocked pool free queue (msg :: batch))
    (placed : Placed (At pool free (msg :: batch ++ queue)))
    (draining : pool.task.phase = .draining) :
    Kept { pool with task := { pool.task with
      links := listDelInit (.le msg) pool.task.links
      phase := .handling msg
      handled := pool.task.handled ++ [pool.task.memory msg] } } :=
  ⟨free, queue, batch, ⟨stocked.free, queued_take stocked.queued draining⟩,
    (take_moves stocked draining).placed placed⟩

omit [DecidableEq ι] in
theorem finish_kept {msg : μ} (stocked : Stocked pool free queue batch)
    (placed : Placed (At pool free (batch ++ queue))) (handling : pool.task.phase = .handling msg) :
    Kept { pool with
      links := putItemPoolBuffer (pool.task.memory msg).content pool.links
      task := { pool.task with
        allocated := Function.update pool.task.allocated msg false
        phase := .draining } } := by
  have fresh : (pool.task.memory msg).content ∉ free := fun back => by
    have same : (Place.free : Place ι μ) = .consumed :=
      (placed _).unique back ⟨msg, handling, rfl⟩
    contradiction
  exact ⟨free ++ [(pool.task.memory msg).content], queue, batch,
    ⟨putItemPoolBuffer_circular stocked.free fresh, queued_finish stocked.queued handling⟩,
    (finish_moves handling).placed placed⟩

theorem itemPoolStep_kept (pool : ItemPool ι μ n) (event : PoolEvent ι μ) (next : ItemPool ι μ n)
    (kept : Kept pool) (works : event.mallocFails = false)
    (taken : itemPoolStep pool event = some next) : Kept next := by
  rcases kept with ⟨free, queue, batch, stocked, placed⟩
  have still (quiet : event.quiet = true) : Kept next := by
    rcases itemPoolQuiet_some stocked quiet taken with
      ⟨task, queue', batch', rfl, queued, messages, memory, running⟩
    exact stepTask_kept stocked placed queued messages memory running
  cases event with
  | get thread =>
      rcases itemPoolGet_some taken with ⟨unused, rfl⟩
      exact get_kept stocked placed unused
  | put thread len =>
      rcases itemPoolPut_some taken with ⟨buf, held, rfl⟩
      exact put_kept stocked placed held
  | notify thread len malloc =>
      cases malloc with
      | none => contradiction
      | some msg =>
          rcases itemPoolNotify_some taken with ⟨buf, held, -, fresh, rfl⟩
          exact notify_kept stocked placed held fresh
  | signal thread merged => exact still rfl
  | start => exact still rfl
  | cut => exact still rfl
  | take =>
      rcases itemPoolTake_some stocked taken with ⟨msg, rest, rfl, draining, rfl⟩
      exact take_kept stocked placed draining
  | finish =>
      rcases itemPoolFinish_some taken with ⟨msg, handling, rfl⟩
      exact finish_kept stocked placed handling
  | done => exact still rfl

/-- A message that cannot be allocated takes its buffer out of every place. -/
theorem itemPoolStep_leaks {event : PoolEvent ι μ} {next : ItemPool ι μ n} (kept : Kept pool)
    (fails : event.mallocFails = true) (taken : itemPoolStep pool event = some next) :
    ¬ Conserved next := by
  rcases kept with ⟨free, queue, batch, stocked, placed⟩
  unfold PoolEvent.mallocFails at fails
  split at fails
  · rcases itemPoolNotify_none taken with ⟨buf, held, rfl⟩
    rename_i thread len
    have after : Stocked { pool with holding := Function.update pool.holding thread none }
        free queue batch := ⟨stocked.free, stocked.queued⟩
    rw [conserved_iff_placed after.lists]
    exact (leak_drops held).not_placed placed
  · contradiction

omit [DecidableEq ι] [DecidableEq μ] in
theorem kept_conserved (kept : Kept pool) : Conserved pool := by
  rcases kept with ⟨free, queue, batch, stocked, placed⟩
  exact (conserved_iff_placed stocked.lists).mpr placed

omit [DecidableEq ι] in
theorem itemPoolInit_kept (links : Links (PoolCell n)) (taskLinks : Links (Cell μ))
    (memory : μ → Message ι (Fin n)) :
    Kept (itemPoolInit links (taskQueueInit taskLinks memory)) := by
  refine ⟨_, [], [], itemPoolInit_stocked links (taskQueueInit_queued taskLinks memory), ?_⟩
  intro buf
  refine ⟨.free, List.mem_finRange buf, fun place there => ?_⟩
  cases place with
  | free => rfl
  | held thread => simp [At, itemPoolInit] at there
  | carried msg => simp [At] at there
  | consumed => simp [At, itemPoolInit, taskQueueInit] at there

/-- In every run the buffers are conserved at every step exactly if `malloc` never fails
inside `task_notify`. -/
theorem pool_conserved_iff (links : Links (PoolCell n)) (taskLinks : Links (Cell μ))
    (memory : μ → Message ι (Fin n)) (events : List (PoolEvent ι μ)) :
    Conserved (itemPoolInit links (taskQueueInit taskLinks memory)) ∧
      (Run.Along itemPoolStep (fun _ _ next => Conserved next)
          (itemPoolInit links (taskQueueInit taskLinks memory)) events ↔
        Run.Along itemPoolStep (fun _ event _ => event.mallocFails = false)
          (itemPoolInit links (taskQueueInit taskLinks memory)) events) := by
  have start := itemPoolInit_kept links taskLinks memory
  have works (pool : ItemPool ι μ n) (event : PoolEvent ι μ) (next : ItemPool ι μ n)
      (kept : Kept pool) (taken : itemPoolStep pool event = some next)
      (conserved : Conserved next) : event.mallocFails = false := by
    rw [← Bool.not_eq_true]
    exact fun fails => itemPoolStep_leaks kept fails taken conserved
  refine ⟨kept_conserved start, ?_⟩
  apply Run.along_iff (J := Kept) (L := fun _ _ _ => True)
  · intro pool event next kept _ taken
    exact ⟨works pool event next kept taken,
      fun good => kept_conserved (itemPoolStep_kept pool event next kept good taken)⟩
  · intro pool event next kept _ taken conserved
    exact itemPoolStep_kept pool event next kept (works pool event next kept taken conserved) taken
  · exact start
  · exact Run.along_of_invariant (J := fun _ => True) (fun _ _ _ _ _ => trivial)
      (fun _ _ _ _ _ => trivial) events trivial

end Steps

section Tests

def onePool : ItemPool Bool Nat 1 :=
  itemPoolInit ⟨id, id⟩ (taskQueueInit ⟨id, id⟩ fun _ => ⟨none, 0, 0⟩)

/-- A thread logs a text, and `malloc` fails. -/
def leak : List (PoolEvent Bool Nat) := [.get (some true), .notify (some true) 5 none]

/-- Nobody is at work, and the free list is empty. -/
theorem pool_leaks :
    ∃ pool, leak.foldlM itemPoolStep onePool = some pool ∧ ¬ Conserved pool ∧
      pool.task.phase = .loop ∧ pool.task.sent = [] ∧ (∀ thread, pool.holding thread = none) ∧
      listEmpty .freeBufferList pool.links = true := by
  have ran : (leak.foldlM itemPoolStep onePool).map (fun pool =>
      (pool.task.phase, pool.task.sent, decide (∀ thread, pool.holding thread = none),
        listEmpty .freeBufferList pool.links)) = some (.loop, [], true, true) := by decide
  rcases Option.map_eq_some_iff.mp ran with ⟨pool, run, seen⟩
  simp only [Prod.mk.injEq, decide_eq_true_eq] at seen
  rcases Run.foldlM_cons_some run with ⟨middle, got, rest⟩
  rcases Run.foldlM_cons_some rest with ⟨last, failed, same⟩
  obtain rfl := Option.some.inj same
  have start : Kept onePool := itemPoolInit_kept _ _ _
  have kept := itemPoolStep_kept onePool _ middle start rfl got
  exact ⟨last, run, itemPoolStep_leaks kept rfl failed, seen⟩

end Tests

end KongjaExpress.Tasks
