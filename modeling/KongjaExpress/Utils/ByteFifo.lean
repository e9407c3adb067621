import KongjaExpress.Library.Automaton
import KongjaExpress.Utils.CircBuffer

/-! The ring as what it is for: a queue of at most `size` bytes. -/

namespace KongjaExpress.Utils

variable {size : Nat}

inductive RingCall
  | put (buf : List UInt8)
  | get (count : Nat)
  | peek (count : Nat)
  | advance (count : Nat)
  | reset
  deriving DecidableEq, Repr

structure RingReply where
  result : Int
  bytes : List UInt8
  deriving DecidableEq, Repr

def ringCall (cb : CircBuffer size) : RingCall → RingReply × CircBuffer size
  | .put buf =>
      let (result, cb) := circBufferPut cb buf
      (⟨result, []⟩, cb)
  | .get count =>
      let (result, bytes, cb) := circBufferGet cb count
      (⟨result, bytes⟩, cb)
  | .peek count =>
      let (result, bytes) := circBufferPeek cb count
      (⟨result, bytes⟩, cb)
  | .advance count =>
      let (result, cb) := circBufferAdvance cb count
      (⟨result, []⟩, cb)
  | .reset => (⟨0, []⟩, circBufferReset cb)

/-- The same calls on a queue with room for `size` bytes. -/
def fifoCall (size : Nat) (queue : List UInt8) : RingCall → RingReply × List UInt8
  | .put buf =>
      if queue.length + buf.length ≤ size then (⟨0, []⟩, queue ++ buf) else (⟨-1, []⟩, queue)
  | .get count =>
      if count ≤ queue.length then (⟨0, queue.take count⟩, queue.drop count)
      else (⟨-1, []⟩, queue)
  | .peek count =>
      if count ≤ queue.length then (⟨0, queue.take count⟩, queue) else (⟨-1, []⟩, queue)
  | .advance count =>
      if count ≤ queue.length then (⟨0, []⟩, queue.drop count) else (⟨-1, []⟩, queue)
  | .reset => (⟨0, []⟩, [])

def Stores (cb : CircBuffer size) (queue : List UInt8) : Prop :=
  WellFormed cb ∧ contents cb = queue

theorem put_refines {cb : CircBuffer size} {queue : List UInt8} (stores : Stores cb queue)
    (buf : List UInt8) :
    (ringCall cb (.put buf)).1 = (fifoCall size queue (.put buf)).1 ∧
      Stores (ringCall cb (.put buf)).2 (fifoCall size queue (.put buf)).2 := by
  rcases stores with ⟨sound, rfl⟩
  by_cases fits : cb.dataSize + buf.length ≤ size
  · simp only [ringCall, fifoCall, contents_length, if_pos fits, (put_success fits).1, true_and]
    exact ⟨put_wellFormed sound, put_contents sound fits⟩
  · simp only [ringCall, fifoCall, contents_length, if_neg fits, put_failure (Nat.lt_of_not_le fits),
      true_and]
    exact ⟨sound, rfl⟩

theorem get_refines {cb : CircBuffer size} {queue : List UInt8} (stores : Stores cb queue)
    (count : Nat) :
    (ringCall cb (.get count)).1 = (fifoCall size queue (.get count)).1 ∧
      Stores (ringCall cb (.get count)).2 (fifoCall size queue (.get count)).2 := by
  rcases stores with ⟨sound, rfl⟩
  by_cases stored : count ≤ cb.dataSize
  · simp only [ringCall, fifoCall, contents_length, if_pos stored, get_success sound stored,
      true_and]
    exact ⟨advance_wellFormed sound, advance_contents stored⟩
  · simp only [ringCall, fifoCall, contents_length, if_neg stored,
      get_failure (Nat.lt_of_not_le stored), true_and]
    exact ⟨sound, rfl⟩

theorem peek_refines {cb : CircBuffer size} {queue : List UInt8} (stores : Stores cb queue)
    (count : Nat) :
    (ringCall cb (.peek count)).1 = (fifoCall size queue (.peek count)).1 ∧
      Stores (ringCall cb (.peek count)).2 (fifoCall size queue (.peek count)).2 := by
  rcases stores with ⟨sound, rfl⟩
  by_cases stored : count ≤ cb.dataSize
  · simp only [ringCall, fifoCall, contents_length, if_pos stored, peek_contents sound stored,
      true_and]
    exact ⟨sound, rfl⟩
  · simp only [ringCall, fifoCall, contents_length, if_neg stored,
      peek_failure (Nat.lt_of_not_le stored), true_and]
    exact ⟨sound, rfl⟩

theorem advance_refines {cb : CircBuffer size} {queue : List UInt8} (stores : Stores cb queue)
    (count : Nat) :
    (ringCall cb (.advance count)).1 = (fifoCall size queue (.advance count)).1 ∧
      Stores (ringCall cb (.advance count)).2 (fifoCall size queue (.advance count)).2 := by
  rcases stores with ⟨sound, rfl⟩
  by_cases stored : count ≤ cb.dataSize
  · have advanced := advance_success stored
    simp only [ringCall, fifoCall, contents_length, if_pos stored]
    exact ⟨by rw [advanced], advance_wellFormed sound, advance_contents stored⟩
  · simp only [ringCall, fifoCall, contents_length, if_neg stored,
      advance_failure (Nat.lt_of_not_le stored), true_and]
    exact ⟨sound, rfl⟩

theorem ringCall_refines {cb : CircBuffer size} {queue : List UInt8} (stores : Stores cb queue)
    (call : RingCall) :
    (ringCall cb call).1 = (fifoCall size queue call).1 ∧
      Stores (ringCall cb call).2 (fifoCall size queue call).2 := by
  cases call with
  | put buf => exact put_refines stores buf
  | get count => exact get_refines stores count
  | peek count => exact peek_refines stores count
  | advance count => exact advance_refines stores count
  | reset => exact ⟨rfl, reset_wellFormed stores.1, contents_reset cb⟩

/-- A call that reports an error has changed nothing, the stored bytes included. -/
theorem ringCall_failure {cb : CircBuffer size} {call : RingCall}
    (failed : (ringCall cb call).1.result = -1) : (ringCall cb call).2 = cb := by
  cases call with
  | put buf =>
      by_cases fits : cb.dataSize + buf.length ≤ size
      · simp [ringCall, (put_success fits).1] at failed
      · simp [ringCall, put_failure (Nat.lt_of_not_le fits)]
  | get count =>
      by_cases stored : count ≤ cb.dataSize
      · have enough : ¬ (cb.dataSize : Int) - count < 0 := by omega
        simp [ringCall, circBufferGet, enough] at failed
      · simp [ringCall, get_failure (Nat.lt_of_not_le stored)]
  | peek count => rfl
  | advance count =>
      by_cases stored : count ≤ cb.dataSize
      · simp [ringCall, advance_success stored] at failed
      · simp [ringCall, advance_failure (Nat.lt_of_not_le stored)]
  | reset => simp [ringCall] at failed

theorem ring_follows (size : Nat) :
    Automaton.Follows (Automaton.total (@ringCall size)) (Automaton.total (fifoCall size))
      (fun _ => Stores) := by
  intro n cb queue call reply queue' stores moved
  obtain ⟨rfl, rfl⟩ := Prod.ext_iff.mp (Option.some.inj moved)
  rcases ringCall_refines stores call with ⟨sameReply, related⟩
  exact ⟨(ringCall cb call).2, by rw [Automaton.total, ← sameReply], related⟩

/-- Every run of the ring is a run of the queue with the same replies. -/
theorem ring_refines_fifo (positive : 0 < size) (heap : Vector UInt8 size)
    (calls : List RingCall) :
    ∃ replies cb,
      Automaton.run (Automaton.total ringCall) (circBufferInit heap) calls = some (replies, cb) ∧
        Automaton.run (Automaton.total (fifoCall size)) [] calls = some (replies, contents cb) ∧
        WellFormed cb ∧ cb.endNdx < size ∧
        ∀ call, (ringCall cb call).1.result = -1 → (ringCall cb call).2 = cb := by
  have start : Stores (circBufferInit heap) [] :=
    ⟨circBufferInit_wellFormed positive heap, contents_init heap⟩
  rcases Automaton.total_runs (fifoCall size) [] calls with ⟨replies, queue, specified⟩
  rcases (ring_follows size).run start specified with ⟨cb, ran, sound, rfl⟩
  exact ⟨replies, cb, ran, specified, sound, sound.end_lt, fun call => ringCall_failure⟩

/-- A ring of two bytes: a wrap, a put that does not fit, and a peek across the end. -/
theorem ring_refines_fifo_two :
    ∃ replies cb,
      Automaton.run (Automaton.total ringCall) (circBufferInit (Vector.replicate 2 0))
          [.put [1], .get 1, .put [2, 3], .put [4], .peek 2] = some (replies, cb) ∧
        Automaton.run (Automaton.total (fifoCall 2)) []
          [.put [1], .get 1, .put [2, 3], .put [4], .peek 2] = some (replies, contents cb) ∧
        WellFormed cb ∧ cb.endNdx < 2 ∧
        ∀ call, (ringCall cb call).1.result = -1 → (ringCall cb call).2 = cb :=
  ring_refines_fifo (by decide) (Vector.replicate 2 0) _

end KongjaExpress.Utils
