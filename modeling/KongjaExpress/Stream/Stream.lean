import KongjaExpress.Core.Watcher
import KongjaExpress.Utils.CircBuffer

/-! The buffered non-blocking stream of `stream.c`. The results of `read` and
`write` come from the kernel and are arguments here. -/

namespace KongjaExpress.Transport

open EventLoop Utils

/-- The `errno` values a failed `write` is told apart by. -/
inductive Errno
  | eagain | ewouldblock | other (code : Nat)
  deriving DecidableEq, Repr

inductive WriteResult
  | count (n : Nat)
  | error (errno : Errno)
  deriving DecidableEq, Repr

/-- What `write` returns. -/
def WriteResult.ret : WriteResult → Int
  | .count n => n
  | .error _ => -1

/-- The bytes the kernel took from a buffer that was offered to `write`. -/
def WriteResult.taken (result : WriteResult) (data : List UInt8) : List UInt8 :=
  data.take result.ret.toNat

/-- `errno == EWOULDBLOCK || errno == EAGAIN` after the call. -/
def WriteResult.wouldBlock : WriteResult → Bool
  | .error .eagain => true
  | .error .ewouldblock => true
  | _ => false

inductive ReadResult
  | data (bytes : List UInt8)
  | eof
  | error
  deriving DecidableEq, Repr

/-- `stream_event_t`. -/
inductive StreamEvent
  | rx | eof | err | tx
  deriving DecidableEq, Repr

/-- `watcher_event_t`. -/
inductive WatcherEvent
  | rx | tx | error
  deriving DecidableEq, Repr

/-- `stream_t`: `rxData` is `rx_buf[0 .. rx_data_len)`. -/
structure Stream (txSize : Nat) where
  watcher : Watcher
  rxBufSize : Nat
  rxData : List UInt8
  txBuf : CircBuffer txSize
  deriving DecidableEq, Repr

variable {txSize : Nat}

/-- What `stream_write` returns, the stream it leaves and the bytes the kernel
accepted meanwhile. -/
structure TxResult (txSize : Nat) where
  ok : Bool
  stream : Stream txSize
  accepted : List UInt8
  deriving DecidableEq, Repr

/-- `false` of `common.h`, which the queue's return value is compared with. -/
def cFalse : Int := 0

/-- The stream that is left and the bytes the kernel accepted; `none` is the null
store of `CRASH()`. -/
def streamHandleTxEvent (stream : Stream txSize) (result : WriteResult) :
    Option (Stream txSize × List UInt8) :=
  if circBufferIsEmpty stream.txBuf then
    some ({ stream with watcher := watcherNoWatchTx stream.watcher }, [])
  else
    let dataSize := circBufferGetDataSize stream.txBuf
    let len := if dataSize < 128 then dataSize else 128
    let buffer := (circBufferPeek stream.txBuf len).2
    let ret := result.ret
    if ret ≤ 0 then
      none
    else
      let txBuf := (circBufferAdvance stream.txBuf ret.toNat).2
      let watcher :=
        if circBufferIsEmpty txBuf then watcherNoWatchTx stream.watcher else stream.watcher
      some ({ stream with txBuf := txBuf, watcher := watcher }, result.taken buffer)

/-- The stream, the bytes the kernel accepted and the event `stream->cb` is called
with, if it is called. -/
def streamWatcherCallback (stream : Stream txSize) (event : WatcherEvent)
    (readResult : ReadResult) (writeResult : WriteResult) :
    Option (Stream txSize × List UInt8 × Option StreamEvent) :=
  match event with
  | .rx =>
      match readResult with
      | .data bytes => some ({ stream with rxData := bytes }, [], some .rx)
      | .eof => some (stream, [], some .eof)
      | .error => some (stream, [], some .err)
  | .tx =>
      (streamHandleTxEvent stream writeResult).map fun (stream, accepted) =>
        (stream, accepted, none)
  | .error => some (stream, [], some .err)

/-- `stream_init_with_fd`, with the memory the queue's `malloc` returned. -/
def streamInitWithFd (fd : Int) (rxBufSize : Nat) (heap : Vector UInt8 txSize) :
    Stream txSize where
  txBuf := circBufferInit heap
  rxBufSize := rxBufSize
  rxData := []
  watcher := watcherWatchErr (watcherWatchRx (watcherInitWithFd fd))

def streamStart (stream : Stream txSize) : Stream txSize :=
  { stream with watcher := watcherStart stream.watcher }

def streamStop (stream : Stream txSize) : Stream txSize :=
  { stream with watcher := watcherStop stream.watcher }

def streamWrite (stream : Stream txSize) (data : List UInt8) (result : WriteResult) :
    TxResult txSize :=
  if circBufferIsEmpty stream.txBuf == false then
    -- something is queued: `write` is not called
    let (status, txBuf) := circBufferPut stream.txBuf data
    ⟨status == 0, { stream with txBuf := txBuf }, []⟩
  else
    let ret := result.ret
    let accepted := result.taken data
    if ret = data.length then
      ⟨true, stream, accepted⟩
    else if ret < 0 ∧ !result.wouldBlock then
      ⟨false, stream, accepted⟩
    else
      let ret := if ret < 0 then 0 else ret
      let (status, txBuf) := circBufferPut stream.txBuf (data.drop ret.toNat)
      let stream := { stream with txBuf := txBuf }
      if status == cFalse then
        ⟨false, stream, accepted⟩
      else
        ⟨true, { stream with watcher := watcherWatchTx stream.watcher }, accepted⟩

def WriteResult.Legal (result : WriteResult) (offered : Nat) : Prop :=
  result.ret ≤ offered

/-- `write` took everything, or failed for a reason other than a full socket
buffer. -/
def WriteResult.Settled (result : WriteResult) (offered : Nat) : Prop :=
  result.ret = offered ∨ (result.ret < 0 ∧ result.wouldBlock = false)

instance (result : WriteResult) (offered : Nat) : Decidable (result.Legal offered) :=
  inferInstanceAs (Decidable (_ ≤ _))

instance (result : WriteResult) (offered : Nat) : Decidable (result.Settled offered) :=
  inferInstanceAs (Decidable (_ ∨ _))

theorem streamWrite_queued {stream : Stream txSize} (data : List UInt8) (result : WriteResult)
    (queued : circBufferIsEmpty stream.txBuf = false) :
    streamWrite stream data result =
      ⟨(circBufferPut stream.txBuf data).1 == 0,
        { stream with txBuf := (circBufferPut stream.txBuf data).2 }, []⟩ := by
  simp [streamWrite, queued]

theorem streamWrite_settled {stream : Stream txSize} {data : List UInt8} {result : WriteResult}
    (direct : circBufferIsEmpty stream.txBuf = true) (settled : result.Settled data.length) :
    streamWrite stream data result =
      ⟨decide (result.ret = data.length), stream, result.taken data⟩ := by
  rcases settled with whole | ⟨failed, final⟩
  · simp [streamWrite, direct, whole]
  · have short : result.ret ≠ data.length := by omega
    simp [streamWrite, direct, short, failed, final]

def leftover (data : List UInt8) (result : WriteResult) : List UInt8 :=
  data.drop result.ret.toNat

/-- A direct write that came up short queues the rest; the queue's 0 for success
is then read as a failure, and its -1 as success. -/
theorem streamWrite_short {stream : Stream txSize} {data : List UInt8} {result : WriteResult}
    (direct : circBufferIsEmpty stream.txBuf = true) (short : ¬ result.Settled data.length) :
    streamWrite stream data result =
      if (circBufferPut stream.txBuf (leftover data result)).1 = 0 then
        ⟨false, { stream with txBuf := (circBufferPut stream.txBuf (leftover data result)).2 },
          result.taken data⟩
      else
        ⟨true, { stream with
            txBuf := (circBufferPut stream.txBuf (leftover data result)).2
            watcher := watcherWatchTx stream.watcher }, result.taken data⟩ := by
  obtain ⟨partial', blocked⟩ := not_or.mp short
  have queues : ¬ (result.ret < 0 ∧ (!result.wouldBlock) = true) := by
    rintro ⟨failed, final⟩
    exact blocked ⟨failed, by simpa using final⟩
  have start : (if result.ret < 0 then 0 else result.ret).toNat = result.ret.toNat := by
    split <;> omega
  simp only [streamWrite, direct, Bool.true_eq_false, beq_iff_eq, if_false, if_neg partial',
    if_neg queues, start, cFalse, leftover]
  rfl

theorem taken_leftover (data : List UInt8) (result : WriteResult) :
    result.taken data ++ leftover data result = data :=
  List.take_append_drop _ _

theorem leftover_pos {data : List UInt8} {result : WriteResult} (nonempty : data ≠ [])
    (legal : result.Legal data.length) (short : ¬ result.Settled data.length) :
    0 < (leftover data result).length := by
  obtain ⟨partial', -⟩ := not_or.mp short
  have positive := List.length_pos_iff.mpr nonempty
  unfold WriteResult.Legal at legal
  simp only [leftover, List.length_drop]
  omega

end KongjaExpress.Transport
