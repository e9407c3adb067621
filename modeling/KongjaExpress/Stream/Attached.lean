import KongjaExpress.Stream.Stream

/-! Streams on the event loop. -/

namespace KongjaExpress.Transport

open EventLoop Utils

variable {txSize : Nat}

/-- A stream on a descriptor that is told of what comes in and of errors, and does not wait to
send. -/
structure Attached (fd : Int) (stream : Stream txSize) : Prop where
  fd : stream.watcher.fd = fd
  follows : LoopMatchesFlags stream.watcher
  started : isStarted stream.watcher = true
  rx : isWatching stream.watcher .rx = true
  er : isWatching stream.watcher .er = true
  tx : isWatching stream.watcher .tx = false

theorem attached_start (fd : Int) (rxBufSize : Nat) (heap : Vector UInt8 txSize) :
    Attached fd (streamStart (streamInitWithFd fd rxBufSize heap)) where
  fd := by simp [streamStart, streamInitWithFd, watcherWatchErr, watcherWatchRx, watcherInitWithFd]
  follows := by
    apply loopMatchesFlags_watcherStart
    apply loopMatchesFlags_startTarget
    apply loopMatchesFlags_startTarget
    exact loopMatchesFlags_init fd
  started := isStarted_watcherStart _
  rx := by simp [streamStart, streamInitWithFd, watcherWatchErr, watcherWatchRx]
  er := by simp [streamStart, streamInitWithFd, watcherWatchErr, watcherWatchRx]
  tx := by simp [streamStart, streamInitWithFd, watcherWatchErr, watcherWatchRx]

variable {fd : Int} {stream next : Stream txSize}

theorem Attached.of_same (attached : Attached fd stream) (same : next.watcher = stream.watcher) :
    Attached fd next where
  fd := same ▸ attached.fd
  follows := same ▸ attached.follows
  started := same ▸ attached.started
  rx := same ▸ attached.rx
  er := same ▸ attached.er
  tx := same ▸ attached.tx

/-- What fits in the queue is never waited for: a write that comes up short leaves the rest there,
and the queue's 0 for success is read as a failure. -/
theorem Attached.write (attached : Attached fd stream) {data : List UInt8}
    (short : data.length ≤ txSize) (result : WriteResult) :
    Attached fd (streamWrite stream data result).stream := by
  cases direct : circBufferIsEmpty stream.txBuf with
  | false =>
      rw [streamWrite_queued data result direct]
      exact attached.of_same rfl
  | true =>
      by_cases settled : result.Settled data.length
      · rw [streamWrite_settled direct settled]
        exact attached
      · have empty : stream.txBuf.dataSize = 0 := by simpa [circBufferIsEmpty] using direct
        have rest : (leftover data result).length ≤ data.length := by
          rw [leftover, List.length_drop]
          exact Nat.sub_le _ _
        have queued := (@put_success txSize stream.txBuf (leftover data result) (by omega)).1
        rw [streamWrite_short direct settled, if_pos queued]
        exact attached.of_same rfl

theorem Attached.silent (attached : Attached fd stream) : evIo stream.watcher .tx = false := by
  rw [attached.follows, attached.tx, Bool.and_false]

theorem Attached.callback (attached : Attached fd stream) {event : WatcherEvent}
    (waited : event ≠ .tx) (readResult : ReadResult) (result : WriteResult) :
    ∃ seen, streamWatcherCallback stream event readResult result = some seen ∧
      Attached fd seen.1 := by
  cases event with
  | rx =>
      cases readResult with
      | data bytes => exact ⟨_, rfl, attached.of_same rfl⟩
      | eof => exact ⟨_, rfl, attached⟩
      | error => exact ⟨_, rfl, attached⟩
  | tx => exact absurd rfl waited
  | error => exact ⟨_, rfl, attached⟩

theorem Attached.stop (attached : Attached fd stream) (target : WatchTarget) :
    evIo (streamStop stream).watcher target = false := by
  have follows := loopMatchesFlags_watcherStop _ attached.follows target
  rwa [isStarted_watcherStop, Bool.false_and] at follows

end KongjaExpress.Transport
