import KongjaExpress.Library.Run
import KongjaExpress.Stream.Stream

/-! Runs of `stream_write` calls and TX events on one stream: what reaches the
kernel, and whether queued output is drained. -/

namespace KongjaExpress.Transport

open EventLoop Utils Run

/-- A stream with the bytes the kernel has accepted from it and the calls made on
it so far, each with its data and its result. -/
structure Session (txSize : Nat) where
  stream : Stream txSize
  sent : List UInt8
  calls : List (List UInt8 × Bool)
  deriving DecidableEq, Repr

inductive Input
  | write (data : List UInt8) (result : WriteResult)
  | txEvent (result : WriteResult)
  deriving DecidableEq, Repr

variable {txSize : Nat}

def sessionStep (s : Session txSize) : Input → Option (Session txSize)
  | .write data result =>
      let written := streamWrite s.stream data result
      some {
        stream := written.stream
        sent := s.sent ++ written.accepted
        calls := s.calls ++ [(data, written.ok)] }
  | .txEvent result =>
      (streamHandleTxEvent s.stream result).map fun (stream, accepted) =>
        { s with stream := stream, sent := s.sent ++ accepted }

/-- The sums that `circ_buffer.c` forms of its indices and so many bytes are C `int`s. -/
def IntSums (txSize count : Nat) : Prop := txSize + count < 2 ^ 31

instance (count : Nat) : Decidable (IntSums txSize count) :=
  inferInstanceAs (Decidable (_ < _))

/-- The results the kernel may give: up to the bytes offered or a failure inside
`stream_write`, at least one byte in a TX event that finds the queue non-empty. -/
def LegalInput (s : Session txSize) (input : Input) (_ : Session txSize) : Prop :=
  match input with
  | .write data result => (data ≠ [] ∧ IntSums txSize data.length) ∧ result.Legal data.length
  | .txEvent (.count n) =>
      circBufferIsEmpty s.stream.txBuf = false →
        1 ≤ n ∧ n ≤ s.stream.txBuf.dataSize ∧ n ≤ 128 ∧ IntSums txSize 128
  | .txEvent (.error _) => circBufferIsEmpty s.stream.txBuf = true

instance (s next : Session txSize) : (input : Input) → Decidable (LegalInput s input next)
  | .write _ _ => inferInstanceAs (Decidable (_ ∧ _))
  | .txEvent (.count _) => inferInstanceAs (Decidable (_ → _))
  | .txEvent (.error _) => inferInstanceAs (Decidable (_ = _))

/-- Every byte of `data` was accepted by the kernel or appended to the queue. -/
def Conveyed (s next : Session txSize) (data : List UInt8) : Prop :=
  ∃ taken queued, taken ++ queued = data ∧ next.sent = s.sent ++ taken ∧
    contents next.stream.txBuf = contents s.stream.txBuf ++ queued

def output (s : Session txSize) : List UInt8 := s.sent ++ contents s.stream.txBuf

def AllTrue (s : Session txSize) : Prop := ∀ call ∈ s.calls, call.2 = true

/-- The output is what it was at the start, then the data of all calls in order. -/
def Intact (start s : Session txSize) : Prop :=
  AllTrue s → output s = output start ++ (s.calls.map Prod.fst).flatten

structure TransmitIntegrity (start s : Session txSize) (input : Input)
    (next : Session txSize) : Prop where
  returns : ∀ data result, input = .write data result →
    ((streamWrite s.stream data result).ok = true ↔ Conveyed s next data)
  intact : Intact start next

/-- A call that finds the queue empty has its bytes taken whole, or refused for
good. -/
def DirectWriteSettled (s : Session txSize) (input : Input) (_ : Session txSize) : Prop :=
  match input with
  | .write data result =>
      circBufferIsEmpty s.stream.txBuf = true → result.Settled data.length
  | .txEvent _ => True

instance (s next : Session txSize) :
    (input : Input) → Decidable (DirectWriteSettled s input next)
  | .write _ _ => inferInstanceAs (Decidable (_ → _))
  | .txEvent _ => inferInstanceAs (Decidable True)

theorem streamHandleTxEvent_queued {stream : Stream txSize} {n : Nat}
    (sound : WellFormed stream.txBuf) (queued : circBufferIsEmpty stream.txBuf = false)
    (positive : 1 ≤ n) (stored : n ≤ stream.txBuf.dataSize) (short : n ≤ 128) :
    streamHandleTxEvent stream (.count n) =
      some ({ stream with
          txBuf := (circBufferAdvance stream.txBuf n).2
          watcher :=
            if circBufferIsEmpty (circBufferAdvance stream.txBuf n).2
            then watcherNoWatchTx stream.watcher else stream.watcher },
        (contents stream.txBuf).take n) := by
  have moved : ¬ (WriteResult.count n).ret ≤ 0 := by
    simp only [WriteResult.ret]
    omega
  have window : (if stream.txBuf.dataSize < 128 then stream.txBuf.dataSize else 128) ≤
      stream.txBuf.dataSize := by
    split <;> omega
  have inside : n ≤ if stream.txBuf.dataSize < 128 then stream.txBuf.dataSize else 128 := by
    split <;> omega
  rw [streamHandleTxEvent, if_neg (by simp [queued])]
  dsimp only [circBufferGetDataSize]
  rw [if_neg moved, peek_contents sound window]
  simp only [WriteResult.taken, WriteResult.ret, Int.toNat_natCast, List.take_take,
    Nat.min_eq_left inside]
  rfl

theorem streamHandleTxEvent_empty {stream : Stream txSize} (result : WriteResult)
    (empty : circBufferIsEmpty stream.txBuf = true) :
    streamHandleTxEvent stream result =
      some ({ stream with watcher := watcherNoWatchTx stream.watcher }, []) := by
  rw [streamHandleTxEvent, if_pos empty]

theorem legal_count {s next : Session txSize} {result : WriteResult}
    (legal : LegalInput s (.txEvent result) next)
    (queued : circBufferIsEmpty s.stream.txBuf = false) :
    ∃ n, result = .count n ∧ 1 ≤ n ∧ n ≤ s.stream.txBuf.dataSize ∧ n ≤ 128 := by
  cases result with
  | count n =>
      have counted := legal queued
      exact ⟨n, rfl, counted.1, counted.2.1, counted.2.2.1⟩
  | error errno =>
      have empty : circBufferIsEmpty s.stream.txBuf = true := legal
      rw [queued] at empty
      cases empty

/-- A TX event on an empty queue drops the watch; on another it moves some of the queued
bytes to the kernel. -/
theorem txEvent_cases {s next : Session txSize} {result : WriteResult}
    (sound : WellFormed s.stream.txBuf) (legal : LegalInput s (.txEvent result) next)
    (taken : sessionStep s (.txEvent result) = some next) :
    (circBufferIsEmpty s.stream.txBuf = true ∧
      next = { s with
        stream := { s.stream with watcher := watcherNoWatchTx s.stream.watcher }
        sent := s.sent ++ [] }) ∨
    (circBufferIsEmpty s.stream.txBuf = false ∧ ∃ n ≤ s.stream.txBuf.dataSize,
      next = { s with
        stream := { s.stream with
          txBuf := (circBufferAdvance s.stream.txBuf n).2
          watcher :=
            if circBufferIsEmpty (circBufferAdvance s.stream.txBuf n).2
            then watcherNoWatchTx s.stream.watcher else s.stream.watcher }
        sent := s.sent ++ (contents s.stream.txBuf).take n }) := by
  cases empty : circBufferIsEmpty s.stream.txBuf with
  | true =>
      simp only [sessionStep, streamHandleTxEvent_empty result empty, Option.map_some,
        Option.some.injEq] at taken
      exact Or.inl ⟨rfl, taken.symm⟩
  | false =>
      obtain ⟨n, rfl, positive, stored, short⟩ := legal_count legal empty
      simp only [sessionStep, streamHandleTxEvent_queued sound empty positive stored short,
        Option.map_some, Option.some.injEq] at taken
      exact Or.inr ⟨rfl, n, stored, taken.symm⟩

theorem txEvent_step {s next : Session txSize} {result : WriteResult}
    (sound : WellFormed s.stream.txBuf) (legal : LegalInput s (.txEvent result) next)
    (taken : sessionStep s (.txEvent result) = some next) :
    WellFormed next.stream.txBuf ∧ output next = output s ∧ next.calls = s.calls := by
  rcases txEvent_cases sound legal taken with ⟨-, rfl⟩ | ⟨-, n, stored, rfl⟩
  · exact ⟨sound, by simp [output], rfl⟩
  · refine ⟨advance_wellFormed sound, ?_, rfl⟩
    simp only [output, advance_contents stored, List.append_assoc, List.take_append_drop]

theorem write_step {s next : Session txSize} {data : List UInt8} {result : WriteResult}
    (taken : sessionStep s (.write data result) = some next) :
    next.stream = (streamWrite s.stream data result).stream ∧
      next.sent = s.sent ++ (streamWrite s.stream data result).accepted ∧
      next.calls = s.calls ++ [(data, (streamWrite s.stream data result).ok)] := by
  simp only [sessionStep, Option.some.injEq] at taken
  subst taken
  exact ⟨rfl, rfl, rfl⟩

theorem streamWrite_wellFormed {stream : Stream txSize} (data : List UInt8) (result : WriteResult)
    (sound : WellFormed stream.txBuf) :
    WellFormed (streamWrite stream data result).stream.txBuf := by
  cases empty : circBufferIsEmpty stream.txBuf with
  | false =>
      rw [streamWrite_queued data result empty]
      exact put_wellFormed sound
  | true =>
      by_cases settled : result.Settled data.length
      · rw [streamWrite_settled empty settled]
        exact sound
      · rw [streamWrite_short empty settled]
        split <;> exact put_wellFormed sound

theorem sessionStep_wellFormed {s next : Session txSize} {input : Input}
    (sound : WellFormed s.stream.txBuf) (legal : LegalInput s input next)
    (taken : sessionStep s input = some next) : WellFormed next.stream.txBuf := by
  cases input with
  | write data result =>
      rw [(write_step taken).1]
      exact streamWrite_wellFormed data result sound
  | txEvent result => exact (txEvent_step sound legal taken).1

/-- `Conveyed`, when the bytes accepted and the growth of the queue are known. -/
theorem conveyed_iff {s next : Session txSize} {data taken : List UInt8} (queued : List UInt8)
    (sent : next.sent = s.sent ++ taken)
    (grown : contents next.stream.txBuf = contents s.stream.txBuf ++ queued) :
    Conveyed s next data ↔ taken ++ queued = data := by
  constructor
  · rintro ⟨taken', queued', whole, sent', grown'⟩
    obtain rfl : taken = taken' := List.append_cancel_left (sent.symm.trans sent')
    obtain rfl : queued = queued' := List.append_cancel_left (grown.symm.trans grown')
    exact whole
  · intro whole
    exact ⟨taken, queued, whole, sent, grown⟩

theorem returns_queued {s next : Session txSize} {data : List UInt8} {result : WriteResult}
    (sound : WellFormed s.stream.txBuf) (nonempty : data ≠ [])
    (queued : circBufferIsEmpty s.stream.txBuf = false)
    (taken : sessionStep s (.write data result) = some next) :
    (streamWrite s.stream data result).ok = true ↔ Conveyed s next data := by
  obtain ⟨stream, sent, -⟩ := write_step taken
  rw [streamWrite_queued data result queued] at stream sent ⊢
  have room := put_returns_zero_iff s.stream.txBuf data
  by_cases fits : s.stream.txBuf.dataSize + data.length ≤ txSize
  · rw [conveyed_iff data sent (by rw [stream]; exact put_contents sound fits)]
    simp [room.mpr fits]
  · rw [conveyed_iff [] sent (by rw [stream, put_failure (by omega)]; simp)]
    simp [put_failure (show txSize < s.stream.txBuf.dataSize + data.length by omega),
      nonempty.symm]

theorem returns_settled {s next : Session txSize} {data : List UInt8} {result : WriteResult}
    (nonempty : data ≠ []) (direct : circBufferIsEmpty s.stream.txBuf = true)
    (settled : result.Settled data.length)
    (taken : sessionStep s (.write data result) = some next) :
    (streamWrite s.stream data result).ok = true ↔ Conveyed s next data := by
  obtain ⟨stream, sent, -⟩ := write_step taken
  rw [streamWrite_settled direct settled] at stream sent ⊢
  rw [conveyed_iff [] sent (by rw [stream]; simp), List.append_nil,
    decide_eq_true_iff, WriteResult.taken]
  rcases settled with whole | ⟨failed, -⟩
  · simp [whole]
  · have none : result.ret.toNat = 0 := by omega
    have positive := List.length_pos_iff.mpr nonempty
    have short : ¬ result.ret = data.length := by omega
    simp [none, short, nonempty.symm]

/-- A direct write that came up short: the result is wrong, whether the rest fits
the queue or not. -/
theorem returns_short {s next : Session txSize} {data : List UInt8} {result : WriteResult}
    (sound : WellFormed s.stream.txBuf) (nonempty : data ≠ [])
    (legal : result.Legal data.length)
    (direct : circBufferIsEmpty s.stream.txBuf = true) (short : ¬ result.Settled data.length)
    (taken : sessionStep s (.write data result) = some next) :
    ¬ ((streamWrite s.stream data result).ok = true ↔ Conveyed s next data) := by
  obtain ⟨stream, sent, -⟩ := write_step taken
  rw [streamWrite_short direct short] at stream sent ⊢
  have room := put_returns_zero_iff s.stream.txBuf (leftover data result)
  by_cases fits : s.stream.txBuf.dataSize + (leftover data result).length ≤ txSize
  · rw [if_pos (room.mpr fits)] at stream sent ⊢
    rw [conveyed_iff _ sent (by rw [stream]; exact put_contents sound fits), taken_leftover]
    simp
  · rw [if_neg (mt room.mp fits)] at stream sent ⊢
    rw [conveyed_iff [] sent (by rw [stream, put_failure (by omega)]; simp)]
    have positive := leftover_pos nonempty legal short
    have lost : result.taken data ≠ data := by
      intro whole
      have split := congrArg List.length (taken_leftover data result)
      rw [List.length_append, whole] at split
      omega
    simpa using lost

theorem allTrue_of_snoc {s next : Session txSize} {call : List UInt8 × Bool}
    (calls : next.calls = s.calls ++ [call]) (all : AllTrue next) :
    AllTrue s ∧ call.2 = true := by
  rw [AllTrue, calls] at all
  exact ⟨fun earlier member => all earlier (List.mem_append_left _ member),
    all call (by simp)⟩

/-- A call whose result is right keeps the output intact. The queue keeps the order
because direct writes are made on an empty queue only. -/
theorem intact_write {start s next : Session txSize} {data : List UInt8} {result : WriteResult}
    (before : Intact start s)
    (order : circBufferIsEmpty s.stream.txBuf = true ∨
      (streamWrite s.stream data result).accepted = [])
    (right : (streamWrite s.stream data result).ok = true ↔ Conveyed s next data)
    (taken : sessionStep s (.write data result) = some next) : Intact start next := by
  intro all
  obtain ⟨-, sent, calls⟩ := write_step taken
  obtain ⟨earlier, returned⟩ := allTrue_of_snoc calls all
  obtain ⟨accepted, queued, whole, sent', grown⟩ := right.mp returned
  have same : (streamWrite s.stream data result).accepted = accepted :=
    List.append_cancel_left (sent.symm.trans sent')
  have flushed : contents s.stream.txBuf ++ data =
      accepted ++ (contents s.stream.txBuf ++ queued) := by
    rcases order with direct | quiet
    · rw [contents_eq_nil direct, List.nil_append, List.nil_append, whole]
    · rw [← same, quiet] at whole ⊢
      rw [← whole, List.nil_append, List.nil_append]
  calc
    output next = s.sent ++ (accepted ++ (contents s.stream.txBuf ++ queued)) := by
      rw [output, sent', grown, List.append_assoc]
    _ = output s ++ data := by rw [← flushed, output, List.append_assoc]
    _ = output start ++ (next.calls.map Prod.fst).flatten := by
      rw [before earlier, calls]
      simp

theorem integrity_step {start s next : Session txSize} {input : Input}
    (sound : WellFormed s.stream.txBuf) (before : Intact start s)
    (legal : LegalInput s input next) (taken : sessionStep s input = some next) :
    TransmitIntegrity start s input next ↔ DirectWriteSettled s input next := by
  cases input with
  | txEvent result =>
      obtain ⟨-, same, calls⟩ := txEvent_step sound legal taken
      refine iff_of_true ⟨nofun, ?_⟩ trivial
      intro all
      rw [same, calls]
      exact before (by simpa [AllTrue, calls] using all)
  | write data result =>
      constructor
      · rintro ⟨returns, -⟩ direct
        by_contra short
        exact returns_short sound legal.1.1 legal.2 direct short taken (returns data result rfl)
      · intro settled
        cases direct : circBufferIsEmpty s.stream.txBuf with
        | true =>
            have right := returns_settled legal.1.1 direct (settled direct) taken
            refine ⟨?_, intact_write before (Or.inl direct) right taken⟩
            rintro _ _ ⟨rfl, rfl⟩
            exact right
        | false =>
            have right := returns_queued sound legal.1.1 direct taken
            have quiet : (streamWrite s.stream data result).accepted = [] := by
              rw [streamWrite_queued data result direct]
            refine ⟨?_, intact_write before (Or.inr quiet) right taken⟩
            rintro _ _ ⟨rfl, rfl⟩
            exact right

/-- In a run from any stream, the results of `stream_write` are right and the output
is intact exactly as long as no direct write comes up short. -/
theorem transmit_integrity_iff (start : Session txSize) (inputs : List Input)
    (sound : WellFormed start.stream.txBuf) (fresh : start.calls = [])
    (legal : Along sessionStep LegalInput start inputs) :
    Along sessionStep (TransmitIntegrity start) start inputs ↔
      Along sessionStep DirectWriteSettled start inputs := by
  have intact : Intact start start := by
    intro _
    simp [fresh]
  apply along_iff (J := fun s => WellFormed s.stream.txBuf ∧ Intact start s) ?_ ?_
    ⟨sound, intact⟩ legal
  · intro s input next inv allowed taken
    exact integrity_step inv.1 inv.2 allowed taken
  · intro s input next inv allowed taken integrity
    exact ⟨sessionStep_wellFormed inv.1 allowed taken, integrity.intact⟩

def startedSession (fd : Int) (rxBufSize : Nat) (heap : Vector UInt8 txSize) : Session txSize :=
  ⟨streamStart (streamInitWithFd fd rxBufSize heap), [], []⟩

/-- Two calls and a TX event on a stream that starts with a byte queued. -/
theorem transmit_integrity_queued :
    let queued : Stream 4 :=
      { streamStart (streamInitWithFd 3 16 (Vector.replicate 4 0)) with
        txBuf := (circBufferPut (circBufferInit (Vector.replicate 4 0)) [7]).2 }
    Along sessionStep (TransmitIntegrity ⟨queued, [], []⟩) ⟨queued, [], []⟩
      [.write [8, 9] (.count 0), .txEvent (.count 3), .write [10] (.count 1)] :=
  (transmit_integrity_iff _ _ (put_wellFormed (circBufferInit_wellFormed (by decide) _)) rfl
    (by decide +kernel)).mpr (by decide +kernel)

/-- A refused write whose bytes all fit the queue is reported as failed. -/
theorem transmit_integrity_fails :
    ¬ ∀ (size : Nat) (heap : Vector UInt8 size) (inputs : List Input), 1 ≤ size →
      Along sessionStep LegalInput (startedSession 3 16 heap) inputs →
      Along sessionStep (TransmitIntegrity (startedSession 3 16 heap))
        (startedSession 3 16 heap) inputs := by
  intro always
  have run := always 4 (Vector.replicate 4 0) [.write [1, 2] (.error .eagain)] (by decide)
    (by decide +kernel)
  have returns := (run _ rfl).1.returns [1, 2] (.error .eagain) rfl
  have conveyed : (streamWrite (startedSession 3 16 (Vector.replicate 4 0)).stream [1, 2]
      (.error .eagain)).ok = true :=
    returns.mpr ⟨[], [1, 2], rfl, rfl, by decide +kernel⟩
  exact absurd conveyed (by decide +kernel)

end KongjaExpress.Transport
