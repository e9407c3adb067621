import KongjaExpress.Core.TaskQueue

/-! Every message is handled once and in order, under any interleaving of its senders with
the receiver. -/

namespace KongjaExpress.Tasks

open LinkedCells Utils

variable {ι μ β : Type} [DecidableEq ι] [DecidableEq μ]

theorem taskRun_sound (links : Links (Cell μ)) (memory : μ → Message ι β)
    {events : List (TaskEvent ι μ β)} {task : Task ι μ β}
    (run : events.foldlM taskStep (taskQueueInit links memory) = some task) : Sound task :=
  Run.invariant taskStep_sound ⟨[], [], taskQueueInit_queued links memory⟩ run

def Message.sentBy (thread : Option ι) (message : Message ι β) : Bool := message.sender = thread

/-- What is queued and what waits in `tmp_list` are the lists behind their heads, and what
was sent is what was handled, then what waits, then what is queued. -/
structure Delivers (task : Task ι μ β) (queue batch : List μ) : Prop where
  msgs : Circular task.links .msgs (queue.map .le)
  tmpList : task.phase ≠ .loop → Circular task.links .tmpList (batch.map .le)
  idle : task.phase = .loop → batch = []
  order : task.sent = task.handled ++ (batch ++ queue).map task.memory
  once : task.handled.map Message.serial = List.range task.handled.length
  senders : ∀ thread,
    task.handled.filter (Message.sentBy thread) <+: task.sent.filter (Message.sentBy thread)
  numMsgs : task.numMsgs.toNat = queue.length % 2 ^ 32
  awake : queue ≠ [] →
    0 < task.pending ∨ task.phase = .started ∨ ∃ thread, task.signalling thread = true
  quiet : task.phase = .loop → task.pending = 0 → (∀ thread, task.signalling thread = false) →
    task.handled = task.sent

omit [DecidableEq ι] [DecidableEq μ] in
theorem serials_handled {task : Task ι μ β} {queue batch : List μ}
    (queued : Queued task queue batch) :
    task.handled.map Message.serial = List.range task.handled.length := by
  have serials := queued.serials
  rw [queued.order, List.map_append] at serials
  have front := congrArg (List.take task.handled.length) serials
  rw [List.take_left' (by simp), List.take_range] at front
  rwa [min_eq_left (by simp)] at front

omit [DecidableEq μ] in
theorem queued_delivers {task : Task ι μ β} {queue batch : List μ}
    (queued : Queued task queue batch) : Delivers task queue batch where
  msgs := queued.msgs
  tmpList := queued.tmpList
  idle rest := queued.waiting (Or.inl rest)
  order := queued.order
  once := serials_handled queued
  senders thread := by
    rw [queued.order, List.filter_append]
    exact List.prefix_append _ _
  numMsgs := by
    rw [queued.numMsgs]
    exact UInt32.toNat_ofNat'
  awake := queued.awake
  quiet rest due silent := by
    have empty : queue = [] := by
      by_contra full
      rcases queued.awake full with notified | started | ⟨thread, adding⟩
      · omega
      · rw [rest] at started
        contradiction
      · rw [silent thread] at adding
        contradiction
    have order := queued.order
    rw [queued.waiting (Or.inl rest), empty] at order
    simpa using order.symm

/-- Every run delivers every message, at most once, in the order the messages were added,
and wakes the receiver for it. -/
theorem messaging_delivers (links : Links (Cell μ)) (memory : μ → Message ι β)
    {events : List (TaskEvent ι μ β)} {task : Task ι μ β}
    (run : events.foldlM taskStep (taskQueueInit links memory) = some task) :
    ∃ queue batch, Delivers task queue batch := by
  rcases taskRun_sound links memory run with ⟨queue, batch, queued⟩
  exact ⟨queue, batch, queued_delivers queued⟩

section Tests

def unlinked : Links (Cell Nat) := ⟨id, id⟩

def unsent : Nat → Message Bool Nat := fun _ => ⟨none, 0, 0⟩

def crossing : List (TaskEvent Bool Nat Nat) :=
  [.add (some true) 0 7, .signal (some true) false, .start, .cut, .take, .add (some false) 1 8,
    .add none 2 9, .signal none false, .signal (some false) true, .finish, .done, .start, .cut,
    .take, .finish]

theorem messaging_delivers_crossing :
    ∃ task, crossing.foldlM taskStep (taskQueueInit unlinked unsent) = some task ∧
      task.handled.map Message.content = [7, 8] ∧
      ∃ queue batch, Delivers task queue batch := by
  have ran : (crossing.foldlM taskStep (taskQueueInit unlinked unsent)).map
      (fun task => task.handled.map Message.content) = some [7, 8] := by decide
  rcases Option.map_eq_some_iff.mp ran with ⟨task, run, handled⟩
  exact ⟨task, run, handled, messaging_delivers unlinked unsent run⟩

def flood (n : Nat) : List (TaskEvent Bool Nat Nat) :=
  (List.range n).flatMap fun msg => [.add (some true) msg 0, .signal (some true) false]

theorem flood_run (n : Nat) :
    ∃ task, (flood n).foldlM taskStep (taskQueueInit unlinked unsent) = some task ∧
      task.phase = .loop ∧ task.signalling (some true) = false ∧ task.handled = [] ∧
      task.sent.length = n ∧ ∀ msg, n ≤ msg → task.allocated msg = false := by
  induction n with
  | zero => exact ⟨_, rfl, rfl, rfl, rfl, rfl, fun _ _ => rfl⟩
  | succ n ih =>
      rcases ih with ⟨task, run, rest, silent, handled, sent, free⟩
      have may : task.MayNotify (some true) ∧ task.allocated n = false :=
        ⟨⟨silent, fun own => by simp at own⟩, free n le_rfl⟩
      have added : taskStep task (.add (some true) n 0) =
          some (taskNotifyAdd (some true) n 0 task) := if_pos may
      have adding : (taskNotifyAdd (some true) n 0 task).signalling (some true) = true := by
        simp [taskNotifyAdd, taskQueueAdd]
      have signalled : taskStep (taskNotifyAdd (some true) n 0 task) (.signal (some true) false) =
          some (taskNotifySignal (some true) false (taskNotifyAdd (some true) n 0 task)) := by
        rw [taskStep, if_pos adding]
      refine ⟨taskNotifySignal (some true) false (taskNotifyAdd (some true) n 0 task), ?_, rest,
        ?_, handled, ?_, ?_⟩
      · rw [flood, List.range_succ, List.flatMap_append, List.foldlM_append]
        change ((flood n).foldlM taskStep (taskQueueInit unlinked unsent)).bind _ = _
        rw [run, Option.bind_some]
        simp only [List.flatMap_cons, List.flatMap_nil, List.append_nil, List.foldlM_cons,
          List.foldlM_nil, added, signalled, Option.bind_eq_bind, Option.bind_some,
          Option.pure_def]
      · simp [taskNotifySignal]
      · simp [taskNotifySignal, taskNotifyAdd, taskQueueAdd, sent]
      · intro msg above
        have other : msg ≠ n := by omega
        change Function.update task.allocated n true msg = false
        rw [Function.update_of_ne other]
        exact free msg (by omega)

/-- The counter of the messages overflows where the list does not. -/
theorem numMsgs_overflows :
    ¬ ∀ (events : List (TaskEvent Bool Nat Nat)) (task : Task Bool Nat Nat),
      events.foldlM taskStep (taskQueueInit unlinked unsent) = some task →
        ∀ queue : List Nat, Circular task.links .msgs (queue.map .le) →
          task.numMsgs.toNat = queue.length := by
  intro claimed
  rcases flood_run (2 ^ 32) with ⟨task, run, rest, -, handled, sent, -⟩
  rcases taskRun_sound unlinked unsent run with ⟨queue, batch, queued⟩
  have order := queued.order
  rw [handled, queued.waiting (Or.inl rest), List.nil_append, List.nil_append] at order
  have length : queue.length = 2 ^ 32 := by
    rw [← sent, order, List.length_map]
  have counted := claimed _ task run queue queued.msgs
  rw [queued.numMsgs, UInt32.toNat_ofNat', length] at counted
  simp at counted

end Tests

end KongjaExpress.Tasks
