import KongjaExpress.Stream.Drain

/-! What becomes of the process when the `write` of a TX event fails. -/

namespace KongjaExpress.Transport

open EventLoop Utils Run

variable {txSize : Nat}

/-- A call of `stream_write`, or an event that libev found, with what `read` and `write` return
in its callback. -/
inductive LoopInput
  | write (data : List UInt8) (result : WriteResult)
  | event (event : WatcherEvent) (readResult : ReadResult) (writeResult : WriteResult)
  deriving DecidableEq, Repr

def WatcherEvent.target : WatcherEvent → WatchTarget
  | .rx => .rx
  | .tx => .tx
  | .error => .er

/-- The process, with the event its stream's callback was last called with, if the step called
it. -/
inductive Process (txSize : Nat)
  | up (stream : Stream txSize) (reported : Option StreamEvent)
  | down
  deriving DecidableEq, Repr

/-- An event is raised only while its libev watcher runs; `CRASH()` takes the process down. -/
def loopStep : Process txSize → LoopInput → Option (Process txSize)
  | .down, _ => some .down
  | .up stream _, .write data result => some (.up (streamWrite stream data result).stream none)
  | .up stream _, .event event readResult writeResult =>
      if evIo stream.watcher event.target then
        match streamWatcherCallback stream event readResult writeResult with
        | some (stream, _, reported) => some (.up stream reported)
        | none => some .down
      else some (.up stream none)

/-- What `write` returns in a TX event that is raised and finds bytes in the queue. -/
def eventWrite (stream : Stream txSize) : LoopInput → Option WriteResult
  | .event .tx _ result =>
      if evIo stream.watcher .tx && !circBufferIsEmpty stream.txBuf then some result else none
  | _ => none

/-- The results the kernel may give: a count of at most the bytes it is offered, or a failure. -/
def LegalResult (p : Process txSize) (input : LoopInput) (_ : Process txSize) : Prop :=
  match p, input with
  | .up _ _, .write data result => IntSums txSize data.length ∧ result.Legal data.length
  | .up stream _, .event .tx _ result =>
      circBufferIsEmpty stream.txBuf = false → IntSums txSize 128 ∧
        result.Legal (if stream.txBuf.dataSize < 128 then stream.txBuf.dataSize else 128)
  | _, _ => True

/-- The queued data waits for another TX event, or the stream's callback is told. -/
def Handled (stream : Stream txSize) : Process txSize → Prop
  | .up after reported =>
      (contents after.txBuf = contents stream.txBuf ∧ evIo after.watcher .tx = true) ∨
        reported = some .err
  | .down => False

/-- The step leaves the process up, and a `write` that fails in a TX event is handled. -/
structure TxContained (p : Process txSize) (input : LoopInput) (next : Process txSize) : Prop where
  survives : next ≠ .down
  handled : ∀ stream reported result, p = .up stream reported →
    eventWrite stream input = some result → result.ret < 0 → Handled stream next

/-- The bytes in the queue and the TX watch, told by the lengths and results of the calls alone. -/
structure TxLoad where
  queued : Nat
  watched : Bool
  deriving DecidableEq, Repr

/-- Only a direct write whose rest does not fit sets the watch. -/
def loadStep (txSize : Nat) (load : TxLoad) : LoopInput → Option TxLoad
  | .write data result =>
      if load.queued ≠ 0 then
        some { load with queued :=
          if load.queued + data.length ≤ txSize then load.queued + data.length else load.queued }
      else if result.Settled data.length then some load
      else if (leftover data result).length ≤ txSize then
        some { load with queued := (leftover data result).length }
      else some { load with watched := true }
  | .event .tx _ result =>
      if load.watched then
        some ⟨load.queued - result.ret.toNat, decide (load.queued - result.ret.toNat ≠ 0)⟩
      else some load
  | .event _ _ _ => some load

/-- A TX event that finds bytes queued under the watch gets some of them written. -/
def DrainSucceeds (load : TxLoad) (input : LoopInput) (_ : TxLoad) : Prop :=
  match input with
  | .event .tx _ result => load.watched = true → load.queued ≠ 0 → 0 < result.ret
  | _ => True

instance (p next : Process txSize) : (input : LoopInput) → Decidable (LegalResult p input next) :=
  fun input =>
    match p, input with
    | .up _ _, .write _ _ => inferInstanceAs (Decidable (_ ∧ _))
    | .up _ _, .event .tx _ _ => inferInstanceAs (Decidable (_ → _))
    | .up _ _, .event .rx _ _ => isTrue trivial
    | .up _ _, .event .error _ _ => isTrue trivial
    | .down, _ => isTrue trivial

instance (load next : TxLoad) : (input : LoopInput) → Decidable (DrainSucceeds load input next)
  | .write _ _ => isTrue trivial
  | .event .tx _ _ => inferInstanceAs (Decidable (_ → _))
  | .event .rx _ _ => isTrue trivial
  | .event .error _ _ => isTrue trivial

structure Carries (stream : Stream txSize) (load : TxLoad) : Prop where
  queued : stream.txBuf.dataSize = load.queued
  started : isStarted stream.watcher = true
  loop : LoopMatchesFlags stream.watcher
  watched : isWatching stream.watcher .tx = load.watched

theorem Carries.evIo_tx {stream : Stream txSize} {load : TxLoad} (carries : Carries stream load) :
    evIo stream.watcher .tx = load.watched := by
  rw [carries.loop .tx, carries.started, carries.watched, Bool.true_and]

theorem Carries.empty {stream : Stream txSize} {load : TxLoad} (carries : Carries stream load) :
    circBufferIsEmpty stream.txBuf = decide (load.queued = 0) := by
  rw [circBufferIsEmpty, carries.queued]
  rfl

theorem Carries.watchTx {stream : Stream txSize} {load : TxLoad} (carries : Carries stream load) :
    Carries { stream with watcher := watcherWatchTx stream.watcher }
      { load with watched := true } := by
  refine ⟨carries.queued, ?_, loopMatchesFlags_startTarget _ _ carries.loop, ?_⟩
  · rw [watcherWatchTx, isStarted_startTarget]
    exact carries.started
  · simp [watcherWatchTx]

theorem Carries.noWatchTx {stream : Stream txSize} {load : TxLoad} (carries : Carries stream load) :
    Carries { stream with watcher := watcherNoWatchTx stream.watcher }
      { load with watched := false } := by
  refine ⟨carries.queued, ?_, loopMatchesFlags_stopTarget _ _ carries.loop, ?_⟩
  · rw [watcherNoWatchTx, isStarted_stopTarget]
    exact carries.started
  · simp [watcherNoWatchTx]

theorem Carries.resize {stream : Stream txSize} {load : TxLoad} (carries : Carries stream load)
    {txBuf : CircBuffer txSize} {n : Nat} (size : txBuf.dataSize = n) :
    Carries { stream with txBuf := txBuf } { load with queued := n } :=
  ⟨size, carries.started, carries.loop, carries.watched⟩

theorem put_dataSize (cb : CircBuffer txSize) (buf : List UInt8) :
    (circBufferPut cb buf).2.dataSize =
      if cb.dataSize + buf.length ≤ txSize then cb.dataSize + buf.length else cb.dataSize := by
  split_ifs with fits
  · exact (put_success fits).2.2.1
  · rw [put_failure (Nat.not_le.mp fits)]

/-- A call of `stream_write` changes the load as its lengths and its result tell. -/
theorem streamWrite_carries {stream : Stream txSize} {load : TxLoad} (carries : Carries stream load)
    (data : List UInt8) (result : WriteResult) :
    ∃ after, loadStep txSize load (.write data result) = some after ∧
      Carries (streamWrite stream data result).stream after := by
  have empty := carries.empty
  rw [loadStep]
  by_cases none : load.queued = 0
  · have direct : circBufferIsEmpty stream.txBuf = true := empty.trans (decide_eq_true none)
    rw [if_neg (not_not_intro none)]
    by_cases settled : result.Settled data.length
    · rw [if_pos settled, streamWrite_settled direct settled]
      exact ⟨load, rfl, carries⟩
    · have size := put_dataSize stream.txBuf (leftover data result)
      have returned := put_returns_zero_iff stream.txBuf (leftover data result)
      rw [carries.queued, none, Nat.zero_add] at size returned
      rw [if_neg settled, streamWrite_short direct settled]
      by_cases fits : (leftover data result).length ≤ txSize
      · rw [if_pos fits] at size
        rw [if_pos fits, if_pos (returned.mpr fits)]
        exact ⟨_, rfl, carries.resize size⟩
      · rw [if_neg fits, if_neg (mt returned.mp fits), put_failure (by omega)]
        exact ⟨_, rfl, carries.watchTx⟩
  · have queued : circBufferIsEmpty stream.txBuf = false := empty.trans (decide_eq_false none)
    have size := put_dataSize stream.txBuf data
    rw [carries.queued] at size
    rw [if_pos none, streamWrite_queued data result queued]
    exact ⟨_, rfl, carries.resize size⟩

/-- A failed `write` in a TX event that finds bytes in the queue is a crash. -/
theorem streamHandleTxEvent_failed {stream : Stream txSize} {result : WriteResult}
    (queued : circBufferIsEmpty stream.txBuf = false) (failed : result.ret ≤ 0) :
    streamHandleTxEvent stream result = none := by
  rw [streamHandleTxEvent, if_neg (by simp [queued])]
  exact if_pos failed

/-- Any other TX event drops what was written, and the watch with the last byte. -/
theorem streamHandleTxEvent_carries {stream : Stream txSize} {load : TxLoad}
    (carries : Carries stream load) (watched : load.watched = true) {result : WriteResult}
    (legal : circBufferIsEmpty stream.txBuf = false →
      result.Legal (if stream.txBuf.dataSize < 128 then stream.txBuf.dataSize else 128))
    (succeeds : load.queued ≠ 0 → 0 < result.ret) :
    ∃ after accepted, streamHandleTxEvent stream result = some (after, accepted) ∧
      Carries after ⟨load.queued - result.ret.toNat,
        decide (load.queued - result.ret.toNat ≠ 0)⟩ := by
  have empty := carries.empty
  by_cases none : load.queued = 0
  · rw [decide_eq_true none] at empty
    refine ⟨_, [], streamHandleTxEvent_empty result empty, ?_⟩
    have dropped := carries.noWatchTx
    simpa [none] using dropped
  · rw [decide_eq_false none] at empty
    have offered := legal empty
    have moved := succeeds none
    have stored : result.ret.toNat ≤ stream.txBuf.dataSize := by
      rw [WriteResult.Legal] at offered
      split at offered <;> omega
    have size : (circBufferAdvance stream.txBuf result.ret.toNat).2.dataSize =
        load.queued - result.ret.toNat := by
      rw [advance_success stored, carries.queued]
    have shrunk := carries.resize size
    have emptied := shrunk.empty
    rw [streamHandleTxEvent, if_neg (by simp [empty])]
    refine ⟨_, _, if_neg (Int.not_le.mpr moved), ?_⟩
    by_cases last : load.queued - result.ret.toNat = 0
    · rw [if_pos (emptied.trans (decide_eq_true last)), decide_eq_false (not_not_intro last)]
      exact shrunk.noWatchTx
    · rw [if_neg (by simp [emptied, last]), decide_eq_true last, ← watched]
      exact shrunk

def Loaded (p : Process txSize) (load : TxLoad) : Prop :=
  ∃ stream reported, p = .up stream reported ∧ Carries stream load

theorem txContained_quiet {stream after : Stream txSize} {reported event : Option StreamEvent}
    {input : LoopInput} (quiet : eventWrite stream input = none) :
    TxContained (.up stream reported) input (.up after event) := by
  refine ⟨nofun, ?_⟩
  intro other _ result same raised
  obtain ⟨rfl, -⟩ := Process.up.inj same
  rw [quiet] at raised
  contradiction

theorem loopStep_live (p : Process txSize) (input : LoopInput) :
    ∃ next, loopStep p input = some next := by
  cases p with
  | down => exact ⟨.down, rfl⟩
  | up stream reported =>
      cases input with
      | write data result => exact ⟨_, rfl⟩
      | event event readResult result =>
          rw [loopStep]
          split_ifs
          · cases streamWatcherCallback stream event readResult result with
            | none => exact ⟨_, rfl⟩
            | some outcome => exact ⟨_, rfl⟩
          · exact ⟨_, rfl⟩

def Follows (load : TxLoad) (p : Process txSize) (input : LoopInput) (next : Process txSize) :
    Prop :=
  ∃ next', loadStep txSize load input = some next' ∧
    (TxContained p input next ↔ DrainSucceeds load input next') ∧
    (TxContained p input next → Loaded next next')

theorem loopStep_write {stream : Stream txSize} {load : TxLoad} (carries : Carries stream load)
    (reported : Option StreamEvent) (data : List UInt8) (result : WriteResult) :
    Follows load (.up stream reported) (.write data result)
      (.up (streamWrite stream data result).stream none) := by
  rcases streamWrite_carries carries data result with ⟨after, counted, kept⟩
  exact ⟨after, counted, iff_of_true (txContained_quiet rfl) trivial, fun _ => ⟨_, none, rfl, kept⟩⟩

theorem loopStep_other {stream : Stream txSize} {load : TxLoad} {next : Process txSize}
    (carries : Carries stream load) {reported : Option StreamEvent} {event : WatcherEvent}
    (other : event ≠ .tx) {readResult : ReadResult} {result : WriteResult}
    (taken : loopStep (.up stream reported) (.event event readResult result) = some next) :
    Follows load (.up stream reported) (.event event readResult result) next := by
  have follows : ∀ after event', Carries after load →
      Follows load (.up stream reported) (.event event readResult result) (.up after event') := by
    intro after event' kept
    cases event with
    | tx => contradiction
    | rx =>
        exact ⟨load, rfl, iff_of_true (txContained_quiet rfl) trivial, fun _ => ⟨_, _, rfl, kept⟩⟩
    | error =>
        exact ⟨load, rfl, iff_of_true (txContained_quiet rfl) trivial, fun _ => ⟨_, _, rfl, kept⟩⟩
  have received : ∀ bytes, Carries { stream with rxData := bytes } load :=
    fun _ => ⟨carries.queued, carries.started, carries.loop, carries.watched⟩
  rw [loopStep] at taken
  split_ifs at taken
  · cases event with
    | tx => contradiction
    | error =>
        obtain rfl := Option.some.inj taken
        exact follows _ _ carries
    | rx =>
        cases readResult with
        | data bytes =>
            obtain rfl := Option.some.inj taken
            exact follows _ _ (received bytes)
        | eof =>
            obtain rfl := Option.some.inj taken
            exact follows _ _ carries
        | error =>
            obtain rfl := Option.some.inj taken
            exact follows _ _ carries
  · obtain rfl := Option.some.inj taken
    exact follows _ _ carries

/-- A TX event is contained exactly if it has nothing to write or gets something written. -/
theorem loopStep_tx {stream : Stream txSize} {load : TxLoad} {next : Process txSize}
    (carries : Carries stream load) {reported : Option StreamEvent} {readResult : ReadResult}
    {result : WriteResult}
    (legal : LegalResult (.up stream reported) (.event .tx readResult result) next)
    (taken : loopStep (.up stream reported) (.event .tx readResult result) = some next) :
    Follows load (.up stream reported) (.event .tx readResult result) next := by
  have raised : evIo stream.watcher WatcherEvent.tx.target = load.watched := carries.evIo_tx
  rw [loopStep, raised, streamWatcherCallback] at taken
  rw [Follows, loadStep]
  by_cases watched : load.watched = true
  · rw [if_pos watched] at taken ⊢
    by_cases succeeds : load.queued ≠ 0 → 0 < result.ret
    · rcases streamHandleTxEvent_carries carries watched (fun queued => (legal queued).2) succeeds with
        ⟨after, accepted, handled, kept⟩
      rw [handled] at taken
      obtain rfl := Option.some.inj taken
      refine ⟨_, rfl, iff_of_true ⟨nofun, ?_⟩ fun _ => succeeds, fun _ => ⟨after, none, rfl, kept⟩⟩
      intro other _ failing same write failed
      obtain ⟨rfl, -⟩ := Process.up.inj same
      rw [eventWrite, carries.evIo_tx, watched, carries.empty] at write
      split_ifs at write with finds
      obtain rfl := Option.some.inj write
      have moved := succeeds (by simpa using finds)
      omega
    · push Not at succeeds
      rcases succeeds with ⟨some', failed⟩
      have queued := carries.empty.trans (decide_eq_false some')
      rw [streamHandleTxEvent_failed queued failed] at taken
      obtain rfl := Option.some.inj taken
      refine ⟨_, rfl, iff_of_false (fun contained => contained.survives rfl) ?_,
        fun contained => absurd rfl contained.survives⟩
      exact fun drains => absurd (drains watched some') (Int.not_lt.mpr failed)
  · rw [if_neg watched] at taken ⊢
    obtain rfl := Option.some.inj taken
    have quiet : eventWrite stream (.event .tx readResult result) = none := by
      simp [eventWrite, carries.evIo_tx, watched]
    exact ⟨load, rfl, iff_of_true (txContained_quiet quiet) fun under => absurd under watched,
      fun _ => ⟨stream, none, rfl, carries⟩⟩

theorem startedStream_carries (fd : Int) (rxBufSize : Nat) (heap : Vector UInt8 txSize) :
    Carries (streamStart (streamInitWithFd fd rxBufSize heap)) ⟨0, false⟩ := by
  refine ⟨rfl, isStarted_watcherStart _, ?_, ?_⟩
  · apply loopMatchesFlags_watcherStart
    apply loopMatchesFlags_startTarget
    exact loopMatchesFlags_startTarget _ _ (loopMatchesFlags_init fd)
  · rw [streamStart, isWatching_watcherStart, streamInitWithFd, watcherWatchErr, watcherWatchRx,
      isWatching_startTarget, isWatching_startTarget]
    simp

/-- In a run of a started stream every transmit error is contained exactly as long as no TX event
fails to write bytes that were queued while an overflow had the watch set. -/
theorem txContained_iff (fd : Int) (rxBufSize : Nat) (heap : Vector UInt8 txSize)
    (inputs : List LoopInput)
    (legal : Along loopStep LegalResult
      (.up (streamStart (streamInitWithFd fd rxBufSize heap)) none) inputs) :
    Along loopStep TxContained (.up (streamStart (streamInitWithFd fd rxBufSize heap)) none)
      inputs ↔ Along (loadStep txSize) DrainSucceeds ⟨0, false⟩ inputs := by
  apply along_rel_iff (R := Loaded) ?_ ?_
    ⟨_, none, rfl, startedStream_carries fd rxBufSize heap⟩ legal
  · intro p _ input _ stuck
    rcases loopStep_live p input with ⟨next, taken⟩
    rw [stuck] at taken
    contradiction
  · intro p load input next loaded allowed taken
    rcases loaded with ⟨stream, reported, rfl, carries⟩
    cases input with
    | write data result =>
        obtain rfl := Option.some.inj taken
        exact loopStep_write carries reported data result
    | event event readResult result =>
        by_cases tx : event = .tx
        · subst tx
          exact loopStep_tx carries allowed taken
        · exact loopStep_other carries tx taken

/-- The watch an overflow sets lets the rest of the next short write drain. -/
theorem txContained_drained :
    Along loopStep TxContained
      (.up (streamStart (streamInitWithFd 3 16 (Vector.replicate 2 0))) none)
      [.write [1, 2, 3] (.count 0), .write [4] (.error .eagain),
        .event .tx .eof (.count 1)] :=
  (txContained_iff 3 16 (Vector.replicate 2 0) _ (by decide +kernel)).mpr (by decide +kernel)

/-- After an overflow has set the watch, a reset of the connection takes the process down. -/
theorem txContained_fails :
    ¬ ∀ (size : Nat) (heap : Vector UInt8 size) (inputs : List LoopInput),
      Along loopStep LegalResult (.up (streamStart (streamInitWithFd 3 16 heap)) none) inputs →
      Along loopStep TxContained (.up (streamStart (streamInitWithFd 3 16 heap)) none) inputs := by
  intro always
  have run := always 2 (Vector.replicate 2 0)
    [.write [1, 2, 3] (.count 0), .write [4] (.error .eagain),
      .event .tx .eof (.error (.other 104))] (by decide +kernel)
  have overflowed := (run _ rfl).2
  have queued := (overflowed _ rfl).2
  have crashed := (queued _ rfl).1.survives
  exact crashed (by decide +kernel)

end KongjaExpress.Transport
