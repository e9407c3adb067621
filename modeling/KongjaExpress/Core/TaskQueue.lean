import KongjaExpress.Core.Task
import KongjaExpress.Library.Run

/-! What every step of a task's messaging keeps: the lists behind `msgs` and `tmpList`,
and the messages in them. -/

namespace KongjaExpress.Tasks

open LinkedCells Utils

variable {ι μ β : Type}

def Phase.running : Phase μ → List μ
  | .handling msg => [msg]
  | _ => []

theorem mem_running {phase : Phase μ} {msg : μ} :
    msg ∈ phase.running ↔ phase = .handling msg := by
  cases phase <;> simp [Phase.running, eq_comm]

/-- The messages in the queue, and those that were cut off it and wait in `tmpList`. -/
structure Queued (task : Task ι μ β) (queue batch : List μ) : Prop where
  msgs : Circular task.links .msgs (queue.map .le)
  tmpList : task.phase ≠ .loop → Circular task.links .tmpList (batch.map .le)
  waiting : task.phase = .loop ∨ task.phase = .started → batch = []
  apart : (task.phase.running ++ batch ++ queue).Nodup
  live : ∀ msg ∈ task.phase.running ++ batch ++ queue, task.allocated msg = true
  numMsgs : task.numMsgs = .ofNat queue.length
  order : task.sent = task.handled ++ (batch ++ queue).map task.memory
  serials : task.sent.map Message.serial = List.range task.sent.length
  awake : queue ≠ [] →
    0 < task.pending ∨ task.phase = .started ∨ ∃ thread, task.signalling thread = true

theorem map_update_apart [DecidableEq μ] {γ : Type} {f : μ → γ} {msg : μ} {value : γ}
    {list : List μ} (apart : msg ∉ list) : list.map (Function.update f msg value) = list.map f := by
  apply List.map_congr_left
  intro a member
  have other : a ≠ msg := fun same => apart (by rwa [← same])
  exact Function.update_of_ne other value f

theorem evAsyncSend_pos (merged : Bool) (pending : Nat) : 0 < evAsyncSend merged pending := by
  unfold evAsyncSend
  split
  · rename_i due
    rw [Bool.and_eq_true, decide_eq_true_eq] at due
    exact due.2
  · exact Nat.succ_pos pending

theorem queued_signal [DecidableEq ι] {task : Task ι μ β} {queue batch : List μ}
    (queued : Queued task queue batch) (thread : Option ι) (merged : Bool) :
    Queued (taskNotifySignal thread merged task) queue batch :=
  ⟨queued.msgs, queued.tmpList, queued.waiting, queued.apart, queued.live, queued.numMsgs,
    queued.order, queued.serials, fun _ => Or.inl (evAsyncSend_pos merged task.pending)⟩

variable [DecidableEq μ] {task : Task ι μ β} {queue batch : List μ}

theorem taskQueueInit_queued (links : Links (Cell μ)) (memory : μ → Message ι β) :
    Queued (taskQueueInit links memory) [] [] where
  msgs := initListHead_circular _ _
  tmpList busy := absurd rfl busy
  waiting _ := rfl
  apart := List.nodup_nil
  live _ member := absurd member List.not_mem_nil
  numMsgs := rfl
  order := rfl
  serials := rfl
  awake full := absurd rfl full

theorem queued_start (queued : Queued task queue batch) (rest : task.phase = .loop) :
    Queued { task with
      links := initListHead .tmpList task.links
      pending := task.pending - 1
      phase := .started } queue batch := by
  obtain rfl := queued.waiting (Or.inl rest)
  have apart := queued.apart
  have live := queued.live
  rw [rest] at apart live
  constructor
  · exact queued.msgs.frame (initListHead_outside _ _) (by grind)
  · exact fun _ => initListHead_circular _ _
  · exact fun _ => rfl
  · exact apart
  · exact live
  · exact queued.numMsgs
  · exact queued.order
  · exact queued.serials
  · exact fun _ => Or.inr (Or.inl rfl)

theorem queued_cut (queued : Queued task queue batch) (started : task.phase = .started) :
    Queued { taskQueueCut task with phase := .draining } [] queue := by
  obtain rfl := queued.waiting (Or.inr started)
  have apart := queued.apart
  have live := queued.live
  rw [started] at apart live
  have moved := listCutPosition_circular queued.msgs
    (queued.tmpList (by rw [started]; simp)) (by simp)
  constructor
  · exact moved.1
  · exact fun _ => moved.2
  · simp
  · simpa [Phase.running] using apart
  · simpa [Phase.running, taskQueueCut] using live
  · rfl
  · simpa [taskQueueCut] using queued.order
  · exact queued.serials
  · exact fun full => absurd rfl full

theorem queued_take {msg : μ} (queued : Queued task queue (msg :: batch))
    (draining : task.phase = .draining) :
    Queued { task with
      links := listDelInit (.le msg) task.links
      phase := .handling msg
      handled := task.handled ++ [task.memory msg] } queue batch := by
  have apart := queued.apart
  have live := queued.live
  rw [draining] at apart live
  have tmpList := queued.tmpList (by rw [draining]; simp)
  rw [List.map_cons] at tmpList
  constructor
  · exact queued.msgs.frame (listDelInit_outside tmpList) (by grind)
  · exact fun _ => listDelInit_circular tmpList
  · simp
  · exact apart
  · exact live
  · exact queued.numMsgs
  · change task.sent = task.handled ++ [task.memory msg] ++ (batch ++ queue).map task.memory
    rw [queued.order]
    simp
  · exact queued.serials
  · intro full
    simpa [draining] using queued.awake full

theorem queued_finish {msg : μ} (queued : Queued task queue batch)
    (handling : task.phase = .handling msg) :
    Queued { task with
      allocated := Function.update task.allocated msg false
      phase := .draining } queue batch := by
  have apart := queued.apart
  have live := queued.live
  rw [handling] at apart live
  constructor
  · exact queued.msgs
  · exact fun _ => queued.tmpList (by rw [handling]; simp)
  · simp
  · exact (List.nodup_cons.mp apart).2
  · intro other member
    have distinct : other ≠ msg := fun same =>
      (List.nodup_cons.mp apart).1 (by rwa [← same])
    change Function.update task.allocated msg false other = true
    rw [Function.update_of_ne distinct]
    exact live other (List.mem_cons_of_mem msg member)
  · exact queued.numMsgs
  · exact queued.order
  · exact queued.serials
  · intro full
    simpa [handling] using queued.awake full

theorem queued_done (queued : Queued task queue batch) (draining : task.phase = .draining)
    (empty : listEmpty .tmpList task.links = true) :
    Queued { task with phase := .loop } queue batch := by
  have apart := queued.apart
  have live := queued.live
  rw [draining] at apart live
  have none := (listEmpty_iff (queued.tmpList (by rw [draining]; simp))).mp empty
  refine ⟨queued.msgs, fun busy => absurd rfl busy, fun _ => List.map_eq_nil_iff.mp none, apart,
    live, queued.numMsgs, queued.order, queued.serials, fun full => ?_⟩
  simpa [draining] using queued.awake full

theorem queued_first (queued : Queued task queue batch) (draining : task.phase = .draining)
    (full : listEmpty .tmpList task.links = false) :
    ∃ msg rest, batch = msg :: rest ∧ task.links.next .tmpList = .le msg := by
  have tmpList := queued.tmpList (by rw [draining]; simp)
  cases batch with
  | nil =>
      rw [(listEmpty_iff tmpList).mpr rfl] at full
      contradiction
  | cons msg rest => exact ⟨msg, rest, rfl, tmpList.first⟩

variable [DecidableEq ι]

theorem queued_add (queued : Queued task queue batch) {thread : Option ι} {msg : μ} {content : β}
    (free : task.allocated msg = false) :
    Queued (taskNotifyAdd thread msg content task) (queue ++ [msg]) batch := by
  have fresh : msg ∉ task.phase.running ++ batch ++ queue := fun member => by
    simp [queued.live msg member] at free
  have apart := queued.apart
  have initialised : Circular (initListHead (.le msg) task.links) .msgs (queue.map .le) :=
    queued.msgs.frame (initListHead_outside _ _) (by grind)
  constructor
  · rw [List.map_append]
    exact listAddTail_circular initialised (by grind)
  · intro busy
    have kept := (queued.tmpList busy).frame (initListHead_outside (.le msg) _) (by grind)
    exact kept.frame (listAddTail_outside initialised _) (by grind)
  · exact queued.waiting
  · change (task.phase.running ++ batch ++ (queue ++ [msg])).Nodup
    rw [← List.append_assoc]
    exact List.Nodup.append apart (List.nodup_singleton msg) (by simpa using fresh)
  · intro other member
    change Function.update task.allocated msg true other = true
    by_cases same : other = msg
    · rw [same, Function.update_self]
    · rw [Function.update_of_ne same]
      exact queued.live other (by grind [taskNotifyAdd, taskQueueAdd])
  · change task.numMsgs + 1 = .ofNat (queue ++ [msg]).length
    rw [queued.numMsgs, List.length_append, List.length_singleton, UInt32.ofNat_add]
    rfl
  · have known : (batch ++ queue).map (Function.update task.memory msg
        ⟨thread, task.sent.length, content⟩) = (batch ++ queue).map task.memory :=
      map_update_apart (by grind)
    have filled : (batch ++ (queue ++ [msg])).map (Function.update task.memory msg
        ⟨thread, task.sent.length, content⟩) =
          (batch ++ queue).map task.memory ++ [⟨thread, task.sent.length, content⟩] := by
      rw [← List.append_assoc, List.map_append, known, List.map_singleton, Function.update_self]
    calc
      task.sent ++ [⟨thread, task.sent.length, content⟩] =
          task.handled ++ (batch ++ queue).map task.memory ++
            [⟨thread, task.sent.length, content⟩] := by rw [← queued.order]
      _ = task.handled ++ (batch ++ (queue ++ [msg])).map
            (Function.update task.memory msg ⟨thread, task.sent.length, content⟩) := by
        rw [filled, List.append_assoc]
  · change (task.sent ++ [_]).map Message.serial = List.range (task.sent ++ [_]).length
    rw [List.map_append, queued.serials, List.length_append, List.length_singleton,
      List.range_succ]
    rfl
  · intro _
    refine Or.inr (Or.inr ⟨thread, ?_⟩)
    exact Function.update_self thread true task.signalling

theorem take_some {next : Task ι μ β} (queued : Queued task queue batch)
    (taken : taskStep task .take = some next) :
    ∃ msg rest, batch = msg :: rest ∧ task.phase = .draining ∧
      next = { task with
        links := listDelInit (.le msg) task.links
        phase := .handling msg
        handled := task.handled ++ [task.memory msg] } := by
  rcases Option.ite_none_right_eq_some.mp taken with ⟨⟨draining, full⟩, took⟩
  rcases queued_first queued draining full with ⟨msg, rest, cut, first⟩
  rw [first] at took
  exact ⟨msg, rest, cut, draining, (Option.some.inj took).symm⟩

theorem finish_some {next : Task ι μ β} (finished : taskStep task .finish = some next) :
    ∃ msg, task.phase = .handling msg ∧
      next = { task with
        allocated := Function.update task.allocated msg false
        phase := .draining } := by
  simp only [taskStep] at finished
  split at finished
  · rename_i msg handling
    rcases Option.ite_none_right_eq_some.mp finished with ⟨-, freed⟩
    exact ⟨msg, handling, (Option.some.inj freed).symm⟩
  · contradiction

def Sound (task : Task ι μ β) : Prop := ∃ queue batch, Queued task queue batch

theorem taskStep_sound (task : Task ι μ β) (event : TaskEvent ι μ β) (next : Task ι μ β)
    (sound : Sound task) (taken : taskStep task event = some next) : Sound next := by
  rcases sound with ⟨queue, batch, queued⟩
  cases event with
  | add thread msg content =>
      rcases Option.ite_none_right_eq_some.mp taken with ⟨⟨-, free⟩, added⟩
      obtain rfl := Option.some.inj added
      exact ⟨queue ++ [msg], batch, queued_add queued free⟩
  | refuse thread =>
      rcases Option.ite_none_right_eq_some.mp taken with ⟨-, same⟩
      obtain rfl := Option.some.inj same
      exact ⟨queue, batch, queued⟩
  | signal thread merged =>
      rcases Option.ite_none_right_eq_some.mp taken with ⟨-, signalled⟩
      obtain rfl := Option.some.inj signalled
      exact ⟨queue, batch, queued_signal queued thread merged⟩
  | start =>
      rcases Option.ite_none_right_eq_some.mp taken with ⟨⟨rest, -⟩, started⟩
      obtain rfl := Option.some.inj started
      exact ⟨queue, batch, queued_start queued rest⟩
  | cut =>
      rcases Option.ite_none_right_eq_some.mp taken with ⟨started, cut⟩
      obtain rfl := Option.some.inj cut
      exact ⟨[], queue, queued_cut queued started⟩
  | take =>
      rcases take_some queued taken with ⟨msg, rest, rfl, draining, rfl⟩
      exact ⟨queue, rest, queued_take queued draining⟩
  | finish =>
      rcases finish_some taken with ⟨msg, handling, rfl⟩
      exact ⟨queue, batch, queued_finish queued handling⟩
  | done =>
      rcases Option.ite_none_right_eq_some.mp taken with ⟨⟨draining, empty⟩, returned⟩
      obtain rfl := Option.some.inj returned
      exact ⟨queue, batch, queued_done queued draining empty⟩

end KongjaExpress.Tasks
