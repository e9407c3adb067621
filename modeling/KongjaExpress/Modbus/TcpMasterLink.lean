import KongjaExpress.Modbus.TcpMaster
import KongjaExpress.Net.TcpAutoConnector

/-! The master of `modbus_tcp_master.c` with the connector inside it. Callbacks run inside
the functions that call them: a write that fails while a reply is handled starts the next
attempt to connect in the middle of a chunk. -/

namespace KongjaExpress.Modbus

open Memory Net Transport

/-- What is done with sockets; `unopened` is the use of a stream that is not there. -/
inductive SocketDeed
  | net (deed : Deed)
  | wrote (sd : Int)
  | unopened
  deriving DecidableEq, Repr

/-- What an attempt to connect gets from outside: the kernel's answers, and the memory
`malloc` returns for the queue of the stream. -/
structure Answer where
  kernel : Kernel
  heap : Vector UInt8 512
  deriving DecidableEq, Repr

/-- Where the bytes that were fed to the reader came from. Connections are numbered from
one. -/
structure ByteTrace where
  /-- The connection of each byte of the frame that is being read. -/
  origins : List Nat
  /-- The connection of the last byte. -/
  lastFed : Nat
  /-- The reader each time the first byte of a connection was fed. -/
  starts : List MbapReader
  /-- The origins of the frames that were given to `modbus_tcp_master_got_frame`. -/
  frames : List (List Nat)
  deriving DecidableEq, Repr

def ByteTrace.note (trace : ByteTrace) (connection : Nat) (mbap : MbapReader) : ByteTrace :=
  { trace with
    origins := if mbap.ndx = 0 then [connection] else trace.origins ++ [connection]
    lastFed := connection
    starts := if connection = trace.lastFed then trace.starts else trace.starts ++ [mbap] }

structure MasterLink where
  master : ModbusTCPMaster
  connector : TcpAutoConnector
  log : List SocketDeed
  connections : Nat
  trace : ByteTrace

/-- A request the application issues, and what it meets: how `write` answers, and what an
attempt to connect would get. -/
structure IssuedRequest where
  call : MasterCall
  write : List UInt8 → WriteResult
  answer : Answer

namespace MasterLink

/-- `modbus_tcp_master_tcp_connector_callback`. -/
def connectorCallback (link : MasterLink) (heap : Vector UInt8 512) (sd : Int) : MasterLink :=
  { link with
    master := modbusTcpMasterTcpConnectorCallback link.master sd heap
    connections := if sd ≥ 0 then link.connections + 1 else link.connections }

def take (link : MasterLink) (heap : Vector UInt8 512) (outcome : Outcome) : MasterLink :=
  let (conn, deeds, call) := outcome
  let link := { link with connector := conn, log := link.log ++ deeds.map SocketDeed.net }
  match call with
  | none => link
  | some callback => link.connectorCallback heap callback.sd

/-- `stream_deinit`. -/
def closeStream (link : MasterLink) : MasterLink :=
  match link.master.stream with
  | none => { link with log := link.log ++ [SocketDeed.unopened] }
  | some stream => { link with
      master := { link.master with stream := none }
      log := link.log ++ [SocketDeed.net (.closed stream.watcher.fd)] }

/-- `modbus_tcp_master_start_reconnect`. -/
def startReconnect (link : MasterLink) (answer : Answer) : MasterLink :=
  let link := link.closeStream
  let link := { link with master := { link.master with
    mbapReader := mbapReaderReset link.master.mbapReader
    tcpState := .connecting } }
  let link := { link with connector := tcpAutoConnectorInit link.connector }
  link.take answer.heap (tcpAutoConnectorStart answer.kernel link.connector)

/-- `modbus_tcp_master_request`. -/
def request (link : MasterLink) (write : List UInt8 → WriteResult) (answer : Answer)
    (ctx : ModbusMasterCTX) (slave : UInt8) : MasterLink :=
  let frameLen := ctx.txNdx + 1 - 7
  if link.master.tcpState ≠ .connected then
    { link with master := { link.master with ctx := ctx } }
  else
    let txBuf := fillHeader ctx.txBuf link.master.tid link.master.pid frameLen slave
    let tx := front txBuf ctx.txNdx.toNat
    let link := { link with master := { link.master with ctx := { ctx with txBuf := txBuf } } }
    match link.master.stream with
    | none => { link with log := link.log ++ [SocketDeed.unopened] }
    | some stream =>
        let written := streamWrite stream tx (write tx)
        let link := { link with
          master := { link.master with stream := some written.stream }
          log := link.log ++ [SocketDeed.wrote stream.watcher.fd] }
        let link := if written.ok then link else link.startReconnect answer
        { link with master := { link.master with tid := link.master.tid + 1 } }

/-- A call of an `mb_master_*` function; `none` is a store outside `tx_buf`. -/
def issue (link : MasterLink) (request : IssuedRequest) : Option MasterLink :=
  request.call.run
    (fun ctx slave => some (link.request request.write request.answer ctx slave)) link.master.ctx

/-- `modbus_tcp_master_got_frame`, with the requests that the response callbacks issue, one
list for each callback. -/
def gotFrame (mbap : MbapReader) (env : Option (MasterLink × List (List IssuedRequest))) :
    MbapReader × Option (MasterLink × List (List IssuedRequest)) :=
  match env with
  | none => (mbap, none)
  | some (link, script) =>
      let link := { link with
        master := { link.master with mbapReader := mbap }
        trace := { link.trace with frames := link.trace.frames ++ [link.trace.origins] } }
      match modbusTcpMasterGotFrame link.master mbap with
      | .handled (some _) =>
          match (script.headD []).foldlM issue link with
          | none => (mbap, none)
          | some link => (link.master.mbapReader, some (link, script.tail))
      | _ => (mbap, some (link, script))

/-- A byte of a connection goes to the reader inside the master. -/
def feedByte (connection : Nat) (fed : MasterLink × List (List IssuedRequest)) (data : UInt8) :
    Option (MasterLink × List (List IssuedRequest)) := do
  let (link, script) := fed
  let link := { link with trace := link.trace.note connection link.master.mbapReader }
  let (mbap, env) ← mbapStateMachine gotFrame (link.master.mbapReader, some (link, script)) data
  let (link, script) ← env
  some ({ link with master := { link.master with mbapReader := mbap } }, script)

def feed (connection : Nat) (fed : MasterLink × List (List IssuedRequest)) (bytes : List UInt8) :
    Option (MasterLink × List (List IssuedRequest)) :=
  bytes.foldlM (feedByte connection) fed

/-- `modbus_tcp_master_start`. -/
def start (link : MasterLink) (answer : Answer) : MasterLink :=
  let link := { link with master := modbusTcpMasterStart link.master }
  link.take answer.heap (tcpAutoConnectorStart answer.kernel link.connector)

/-- `modbus_tcp_master_stop`. -/
def stop (link : MasterLink) : MasterLink :=
  let link :=
    match link.master.tcpState with
    | .notConnected => link
    | .connecting =>
        let (conn, deeds) := tcpAutoConnectorStop link.connector
        { link with connector := conn, log := link.log ++ deeds.map SocketDeed.net }
    | .connected => link.closeStream
  { link with master := { link.master with tcpState := .notConnected } }

end MasterLink

inductive LinkEvent
  | start (answer : Answer)
  | stop
  | request (request : IssuedRequest)
  | rx (bytes : List UInt8) (script : List (List IssuedRequest))
  /-- The end of the stream, or an error on it. -/
  | lost (answer : Answer)
  | tx (result : WriteResult)
  | completed (err : Int) (heap : Vector UInt8 512)
  | timedOut (answer : Answer)
  | expired (answer : Answer)

open MasterLink in
/-- `none` is an event that cannot happen, a store outside a buffer, or the crash of
`stream_handle_tx_event`. -/
def linkStep (link : MasterLink) : LinkEvent → Option MasterLink
  | .start answer =>
      if link.master.tcpState = .notConnected then some (link.start answer) else none
  | .stop => some link.stop
  | .request request => link.issue request
  | .rx bytes script =>
      match link.master.stream with
      | none => none
      | some stream =>
          let stream := { stream with rxData := bytes }
          let link := { link with master := { link.master with stream := some stream } }
          (feed link.connections (link, script) bytes).map Prod.fst
  | .lost answer => if link.master.stream.isSome then some (link.startReconnect answer) else none
  | .tx result =>
      match link.master.stream with
      | none => none
      | some stream =>
          (streamHandleTxEvent stream result).map fun (after, _) =>
            { link with
              master := { link.master with stream := some after }
              log := link.log ++ [SocketDeed.wrote stream.watcher.fd] }
  | .completed err heap =>
      if watched link.connector.tcpConnector then
        some (link.take heap (attemptCompleted err link.connector))
      else none
  | .timedOut answer =>
      if link.connector.tcpConnector.tmr = some .running then
        -- the callback returns before the next attempt
        let link := link.take answer.heap (attemptTimedOut link.connector)
        some (link.take answer.heap (tcpAutoConnectorConnect answer.kernel link.connector))
      else none
  | .expired answer =>
      if link.connector.reconnWaitTmr = .running then
        some (link.take answer.heap (reconnWaitTimeout answer.kernel link.connector))
      else none

/-- A master after `modbus_tcp_master_init`, in memory with arbitrary contents. -/
def masterLink (memory : ModbusTCPMaster) (sd : Int) (isInProg : Bool)
    (state : TcpAutoConnectorState) : MasterLink where
  master := modbusTcpMasterInit memory
  connector := tcpAutoConnectorInit (rawMemory sd isInProg state)
  log := []
  connections := 0
  trace := ⟨[], 0, [], []⟩

section Streams

variable {link next : MasterLink}

theorem linkStep_rx {bytes : List UInt8} {script : List (List IssuedRequest)}
    (step : linkStep link (.rx bytes script) = some next) :
    ∃ stream rest, link.master.stream = some stream ∧
      MasterLink.feed link.connections ({ link with
        master := { link.master with stream := some { stream with rxData := bytes } } }, script)
        bytes = some (next, rest) := by
  cases opened : link.master.stream with
  | none =>
      rw [linkStep, opened] at step
      cases step
  | some stream =>
      simp only [linkStep, opened] at step
      rcases Option.map_eq_some_iff.mp step with ⟨⟨after, rest⟩, ran, rfl⟩
      exact ⟨stream, rest, rfl, ran⟩

theorem linkStep_tx {result : WriteResult} (step : linkStep link (.tx result) = some next) :
    ∃ stream after accepted, link.master.stream = some stream ∧
      streamHandleTxEvent stream result = some (after, accepted) ∧
      next = { link with
        master := { link.master with stream := some after }
        log := link.log ++ [SocketDeed.wrote stream.watcher.fd] } := by
  cases opened : link.master.stream with
  | none =>
      rw [linkStep, opened] at step
      cases step
  | some stream =>
      simp only [linkStep, opened] at step
      rcases Option.map_eq_some_iff.mp step with ⟨⟨after, accepted⟩, ran, rfl⟩
      exact ⟨stream, after, accepted, rfl, ran, rfl⟩

end Streams

def MasterLink.sent (link : MasterLink) (ctx : ModbusMasterCTX) (before after : Stream 512) :
    MasterLink :=
  { link with
    master := { link.master with ctx := ctx, stream := some after }
    log := link.log ++ [SocketDeed.wrote before.watcher.fd] }

/-- `master->tid++`. -/
def MasterLink.advanced (link : MasterLink) : MasterLink :=
  { link with master := { link.master with tid := link.master.tid + 1 } }

theorem request_written {link : MasterLink} {stream : Stream 512}
    (connected : link.master.tcpState = .connected) (opened : link.master.stream = some stream)
    (write : List UInt8 → WriteResult) (answer : Answer) (ctx : ModbusMasterCTX) (slave : UInt8) :
    ∃ (ctx' : ModbusMasterCTX) (data : List UInt8) (result : WriteResult),
      link.request write answer ctx slave =
          (link.sent ctx' stream (streamWrite stream data result).stream).advanced ∨
        link.request write answer ctx slave =
          ((link.sent ctx' stream (streamWrite stream data result).stream).startReconnect
            answer).advanced := by
  let txBuf := fillHeader ctx.txBuf link.master.tid link.master.pid (ctx.txNdx + 1 - 7) slave
  let tx := front txBuf ctx.txNdx.toNat
  let written := streamWrite stream tx (write tx)
  have result : link.request write answer ctx slave =
      MasterLink.advanced (if written.ok
        then link.sent { ctx with txBuf := txBuf } stream written.stream
        else (link.sent { ctx with txBuf := txBuf } stream written.stream).startReconnect answer) := by
    rw [MasterLink.request, if_neg (not_not.mpr connected)]
    dsimp only
    rw [opened]
    rfl
  refine ⟨{ ctx with txBuf := txBuf }, tx, write tx, ?_⟩
  rw [result]
  split_ifs
  · exact Or.inl rfl
  · exact Or.inr rfl

end KongjaExpress.Modbus
