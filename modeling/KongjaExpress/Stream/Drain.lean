import KongjaExpress.Stream.Transmit

/-! Queued output and the TX watch that drains it. -/

namespace KongjaExpress.Transport

open EventLoop Utils Run

variable {txSize : Nat}

/-- Queued output has the TX watch set and its libev watcher running. -/
def Watched (stream : Stream txSize) : Prop :=
  circBufferIsEmpty stream.txBuf = false →
    isWatching stream.watcher .tx = true ∧ evIo stream.watcher .tx = true

def NotStuck (_ : Session txSize) (_ : Input) (next : Session txSize) : Prop :=
  Watched next.stream

/-- The call does not queue the rest of a short direct write while the TX watch
is off. -/
def QueuesUnderWatch (s : Session txSize) (input : Input) (_ : Session txSize) : Prop :=
  match input with
  | .write data result =>
      circBufferIsEmpty s.stream.txBuf = true → isWatching s.stream.watcher .tx = false →
        result.Settled data.length ∨ txSize < (leftover data result).length
  | .txEvent _ => True

instance (s next : Session txSize) :
    (input : Input) → Decidable (QueuesUnderWatch s input next)
  | .write _ _ => inferInstanceAs (Decidable (_ → _))
  | .txEvent _ => inferInstanceAs (Decidable True)

/-- A started stream whose ring and libev watchers are consistent. -/
structure Running (s : Session txSize) : Prop where
  sound : WellFormed s.stream.txBuf
  started : isStarted s.stream.watcher = true
  loop : LoopMatchesFlags s.stream.watcher

theorem Running.watched_iff {s : Session txSize} (running : Running s) :
    Watched s.stream ↔
      (circBufferIsEmpty s.stream.txBuf = false → isWatching s.stream.watcher .tx = true) := by
  have follows := running.loop .tx
  rw [running.started, Bool.true_and] at follows
  simp [Watched, follows]

theorem streamWrite_watcher (stream : Stream txSize) (data : List UInt8) (result : WriteResult) :
    (streamWrite stream data result).stream.watcher = stream.watcher ∨
      (streamWrite stream data result).stream.watcher = watcherWatchTx stream.watcher := by
  cases empty : circBufferIsEmpty stream.txBuf with
  | false =>
      rw [streamWrite_queued data result empty]
      exact Or.inl rfl
  | true =>
      by_cases settled : result.Settled data.length
      · rw [streamWrite_settled empty settled]
        exact Or.inl rfl
      · rw [streamWrite_short empty settled]
        split
        · exact Or.inl rfl
        · exact Or.inr rfl

theorem txEvent_watcher {s next : Session txSize} {result : WriteResult}
    (sound : WellFormed s.stream.txBuf) (legal : LegalInput s (.txEvent result) next)
    (taken : sessionStep s (.txEvent result) = some next) :
    next.stream.watcher = (if circBufferIsEmpty next.stream.txBuf
      then watcherNoWatchTx s.stream.watcher else s.stream.watcher) ∧
    (circBufferIsEmpty s.stream.txBuf = true → circBufferIsEmpty next.stream.txBuf = true) := by
  rcases txEvent_cases sound legal taken with ⟨empty, rfl⟩ | ⟨queued, n, -, rfl⟩
  · simp [empty]
  · simp [queued]

theorem sessionStep_watcher {s next : Session txSize} {input : Input}
    (sound : WellFormed s.stream.txBuf) (legal : LegalInput s input next)
    (taken : sessionStep s input = some next) :
    next.stream.watcher = s.stream.watcher ∨
      next.stream.watcher = watcherWatchTx s.stream.watcher ∨
      next.stream.watcher = watcherNoWatchTx s.stream.watcher := by
  cases input with
  | write data result =>
      rw [(write_step taken).1]
      rcases streamWrite_watcher s.stream data result with same | watch
      · exact Or.inl same
      · exact Or.inr (Or.inl watch)
  | txEvent result =>
      rw [(txEvent_watcher sound legal taken).1]
      split
      · exact Or.inr (Or.inr rfl)
      · exact Or.inl rfl

theorem sessionStep_running {s next : Session txSize} {input : Input} (running : Running s)
    (legal : LegalInput s input next) (taken : sessionStep s input = some next) :
    Running next := by
  constructor
  · exact sessionStep_wellFormed running.sound legal taken
  · rcases sessionStep_watcher running.sound legal taken with same | watch | drop
    · rw [same]
      exact running.started
    · rw [watch, watcherWatchTx, isStarted_startTarget]
      exact running.started
    · rw [drop, watcherNoWatchTx, isStarted_stopTarget]
      exact running.started
  · rcases sessionStep_watcher running.sound legal taken with same | watch | drop
    · rw [same]
      exact running.loop
    · rw [watch]
      exact loopMatchesFlags_startTarget _ _ running.loop
    · rw [drop]
      exact loopMatchesFlags_stopTarget _ _ running.loop

/-- Whether the rest of a short direct write is queued. -/
theorem short_queue_empty_iff {s next : Session txSize} {data : List UInt8} {result : WriteResult}
    (nonempty : data ≠ []) (legal : result.Legal data.length)
    (direct : circBufferIsEmpty s.stream.txBuf = true) (short : ¬ result.Settled data.length)
    (taken : sessionStep s (.write data result) = some next) :
    circBufferIsEmpty next.stream.txBuf = true ↔ txSize < (leftover data result).length := by
  have none : s.stream.txBuf.dataSize = 0 := by simpa [circBufferIsEmpty] using direct
  have queue : next.stream.txBuf = (circBufferPut s.stream.txBuf (leftover data result)).2 := by
    rw [(write_step taken).1, streamWrite_short direct short]
    split <;> rfl
  rw [queue]
  by_cases fits : (leftover data result).length ≤ txSize
  · have room : s.stream.txBuf.dataSize + (leftover data result).length ≤ txSize := by omega
    have grown := (put_success room).2.2.1
    have positive := leftover_pos nonempty legal short
    rw [circBufferIsEmpty, grown, beq_iff_eq]
    omega
  · rw [put_failure (by omega)]
    exact iff_of_true direct (by omega)

theorem notStuck_step {s next : Session txSize} {input : Input} (running : Running s)
    (watched : Watched s.stream) (legal : LegalInput s input next)
    (taken : sessionStep s input = some next) :
    NotStuck s input next ↔ QueuesUnderWatch s input next := by
  have flagged := running.watched_iff.mp watched
  have after := (sessionStep_running running legal taken).watched_iff
  rw [NotStuck, after]
  cases input with
  | txEvent result =>
      refine iff_of_true (fun queued => ?_) trivial
      obtain ⟨watcher, empties⟩ := txEvent_watcher running.sound legal taken
      rw [watcher, if_neg (by simp [queued])]
      apply flagged
      by_contra empty
      simp [empties (by simpa using empty)] at queued
  | write data result =>
      have stream := (write_step taken).1
      cases direct : circBufferIsEmpty s.stream.txBuf with
      | false =>
          refine iff_of_true (fun _ => ?_) (by simp [QueuesUnderWatch, direct])
          rw [stream, streamWrite_queued data result direct]
          exact flagged direct
      | true =>
          by_cases settled : result.Settled data.length
          · refine iff_of_true (fun queued => ?_) (fun _ _ => Or.inl settled)
            rw [stream, streamWrite_settled direct settled] at queued
            simp [direct] at queued
          · have empties := short_queue_empty_iff legal.1.1 legal.2 direct settled taken
            have keeps : (leftover data result).length ≤ txSize →
                next.stream.watcher = s.stream.watcher := by
              intro fits
              have returned : (circBufferPut s.stream.txBuf (leftover data result)).1 = 0 := by
                have none : s.stream.txBuf.dataSize = 0 := by
                  simpa [circBufferIsEmpty] using direct
                exact (put_returns_zero_iff _ _).mpr (by omega)
              rw [stream, streamWrite_short direct settled, if_pos returned]
            by_cases fits : (leftover data result).length ≤ txSize
            · have queued : circBufferIsEmpty next.stream.txBuf = false := by
                rw [← Bool.not_eq_true, empties]
                omega
              have big : ¬ txSize < (leftover data result).length := by omega
              simp [queued, keeps fits, QueuesUnderWatch, direct, settled, big]
            · have empty := empties.mpr (by omega)
              refine iff_of_true (fun queued => ?_) (fun _ _ => Or.inr (by omega))
              rw [empty] at queued
              cases queued

/-- In a run of a started stream, queued output always has the TX watch set exactly
as long as no call queues the rest of a short direct write with the watch off. -/
theorem notStuck_iff (start : Session txSize) (inputs : List Input) (running : Running start)
    (watched : Watched start.stream) (legal : Along sessionStep LegalInput start inputs) :
    Along sessionStep NotStuck start inputs ↔
      Along sessionStep QueuesUnderWatch start inputs := by
  apply along_iff (J := fun s => Running s ∧ Watched s.stream) ?_ ?_ ⟨running, watched⟩ legal
  · intro s input next inv allowed taken
    exact notStuck_step inv.1 inv.2 allowed taken
  · intro s input next inv allowed taken held
    exact ⟨sessionStep_running inv.1 allowed taken, held⟩

theorem startedSession_running (positive : 0 < txSize) (fd : Int) (rxBufSize : Nat)
    (heap : Vector UInt8 txSize) : Running (startedSession fd rxBufSize heap) := by
  refine ⟨circBufferInit_wellFormed positive heap, isStarted_watcherStart _, ?_⟩
  apply loopMatchesFlags_watcherStart
  apply loopMatchesFlags_startTarget
  exact loopMatchesFlags_startTarget _ _ (loopMatchesFlags_init fd)

theorem startedSession_watched (fd : Int) (rxBufSize : Nat) (heap : Vector UInt8 txSize) :
    Watched (startedSession fd rxBufSize heap).stream :=
  nofun

/-- An overflowing short write sets the watch, so the next one may queue its rest. -/
theorem notStuck_overflow :
    Along sessionStep NotStuck (startedSession 3 16 (Vector.replicate 2 0))
      [.write [1, 2, 3] (.count 0), .write [4] (.error .eagain), .txEvent (.count 1)] :=
  (notStuck_iff _ _ (startedSession_running (by decide) 3 16 _)
    (startedSession_watched 3 16 _) (by decide +kernel)).mpr (by decide +kernel)

/-- The rest of a refused write is queued and the TX watch stays off. -/
theorem notStuck_fails :
    ¬ ∀ (size : Nat) (heap : Vector UInt8 size) (inputs : List Input), 1 ≤ size →
      Along sessionStep LegalInput (startedSession 3 16 heap) inputs →
      Along sessionStep NotStuck (startedSession 3 16 heap) inputs := by
  intro always
  have run := always 4 (Vector.replicate 4 0) [.write [1, 2] (.error .eagain)] (by decide)
    (by decide +kernel)
  have watched := (run _ rfl).1 (by decide +kernel)
  exact absurd watched.1 (by decide +kernel)

end KongjaExpress.Transport
