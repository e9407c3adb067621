import KongjaExpress.Modbus.ResponseHandler
import KongjaExpress.Modbus.TcpSlave

/-! The Modbus TCP master of `modbus_tcp_master.c`. The connector reports through its
callback, which is an event here. -/

namespace KongjaExpress.Modbus

open BigEndian Memory Transport

/-- `ModbusTCPMasterState_t`. -/
inductive ModbusTCPMasterState
  | notConnected | connecting | connected
  deriving DecidableEq, Repr

/-- `stream` is none before `stream_init_with_fd` and after `stream_deinit`. -/
structure ModbusTCPMaster where
  ctx : ModbusMasterCTX
  tcpState : ModbusTCPMasterState
  stream : Option (Stream 512)
  tid : UInt16
  pid : UInt16
  mbapReader : MbapReader

/-- `none` is `stream_deinit` of a stream that is not there. -/
def modbusTcpMasterStartReconnect (master : ModbusTCPMaster) : Option ModbusTCPMaster :=
  master.stream.map fun _ => { master with
    stream := none
    mbapReader := mbapReaderReset master.mbapReader
    tcpState := .connecting }

def fillHeader (txBuf : Vector UInt8 512) (tid pid frameLen : UInt16) (slave : UInt8) :
    Vector UInt8 512 :=
  ((((((txBuf.set 0 (highByte tid)).set 1 (lowByte tid)).set 2 (highByte pid)).set 3
    (lowByte pid)).set 4 (highByte frameLen)).set 5 (lowByte frameLen)).set 6 slave

/-- The master and what it handed to `stream_write`, if it did. `kernel` says how `write`
answers when it is offered some bytes. -/
def modbusTcpMasterRequest (kernel : List UInt8 → WriteResult) (master : ModbusTCPMaster)
    (slave : UInt8) : Option (ModbusTCPMaster × Option (List UInt8)) :=
  let frameLen := master.ctx.txNdx + 1 - 7
  if master.tcpState ≠ .connected then some (master, none)
  else
    let txBuf := fillHeader master.ctx.txBuf master.tid master.pid frameLen slave
    let tx := front txBuf master.ctx.txNdx.toNat
    master.stream.bind fun stream =>
      let written := streamWrite stream tx (kernel tx)
      let master := { master with
        ctx := { master.ctx with txBuf := txBuf }
        stream := some written.stream }
      (if written.ok then some master else modbusTcpMasterStartReconnect master).map
        fun master => ({ master with tid := master.tid + 1 }, some tx)

/-- A `mb_master_*` call on this master. -/
def modbusTcpMasterCall (kernel : List UInt8 → WriteResult) (master : ModbusTCPMaster)
    (call : MasterCall) : Option (ModbusTCPMaster × Option (List UInt8)) :=
  call.run (fun ctx slave => modbusTcpMasterRequest kernel { master with ctx := ctx } slave)
    master.ctx

/-- How `modbus_tcp_master_got_frame` deals with a frame. -/
inductive FrameVerdict
  | tidMismatch
  | pidMismatch
  | handled (call : Option AppCall)
  deriving DecidableEq, Repr

def modbusTcpMasterGotFrame (master : ModbusTCPMaster) (mbap : MbapReader) : FrameVerdict :=
  -- `master->tid - 1` is an `int`
  if (master.tid.toNat : Int) - 1 ≠ mbap.tid.toNat then .tidMismatch
  else if master.pid ≠ mbap.pid then .pidMismatch
  else .handled (modbusRtuHandlerResponseRx master.ctx mbap.uid (pduArea mbap.frame)
    ((mbap.length.toNat : Int) - 1))

/-- `modbus_tcp_master_tcp_connector_callback`, with the memory the queue gets. -/
def modbusTcpMasterTcpConnectorCallback (master : ModbusTCPMaster) (sd : Int)
    (heap : Vector UInt8 512) : ModbusTCPMaster :=
  if sd ≥ 0 then
    { master with
      tcpState := .connected
      stream := some (streamStart (streamInitWithFd sd 128 heap))
      mbapReader := mbapReaderInit master.mbapReader }
  else master

/-- `modbus_tcp_master_init` on memory with arbitrary contents. -/
def modbusTcpMasterInit (memory : ModbusTCPMaster) : ModbusTCPMaster :=
  { memory with
    ctx := { memory.ctx with pduOffset := 7 }
    tid := 0
    pid := 0
    tcpState := .notConnected
    stream := none }

def modbusTcpMasterStart (master : ModbusTCPMaster) : ModbusTCPMaster :=
  { master with tcpState := .connecting }

def modbusTcpMasterStop (master : ModbusTCPMaster) : Option ModbusTCPMaster :=
  match master.tcpState with
  | .connected => master.stream.map fun _ =>
      { master with stream := none, tcpState := .notConnected }
  | _ => some { master with tcpState := .notConnected }

structure Reply where
  tid : UInt16
  pid : UInt16
  uid : UInt8
  func : UInt8
  deriving DecidableEq, Repr

/-- What happened so far: calls that were handed to the stream and calls that were made
without a connection, new connections, and replies with the callbacks they caused. -/
inductive LogEntry
  | sent (call : MasterCall) (tx : List UInt8)
  | unsent (call : MasterCall)
  | connection
  | fired (reply : Reply) (call : AppCall)

structure MasterSession where
  master : ModbusTCPMaster
  log : List LogEntry

inductive MasterEvent
  | start
  | stop
  | connector (sd : Int) (heap : Vector UInt8 512)
  | request (call : MasterCall) (kernel : List UInt8 → WriteResult)
  /-- One byte of a chunk that is fed to the reader. -/
  | rx (data : UInt8)
  | tx (result : WriteResult)
  | lost

def replyOf (mbap : MbapReader) : Reply :=
  ⟨mbap.tid, mbap.pid, mbap.uid, byte0 (pduArea mbap.frame)⟩

/-- The reader's callback; an application's callback that makes another call stands as
the next event. -/
def masterReceive (master : ModbusTCPMaster) (mbap : MbapReader) (log : List LogEntry) :
    MbapReader × List LogEntry :=
  match modbusTcpMasterGotFrame master mbap with
  | .handled (some call) => (mbap, log ++ [.fired (replyOf mbap) call])
  | _ => (mbap, log)

def MasterSession.withReader (s : MasterSession) (fed : MbapReader × List LogEntry) :
    MasterSession where
  master := { s.master with mbapReader := fed.1 }
  log := fed.2

def masterStep (s : MasterSession) : MasterEvent → Option MasterSession
  | .start => some { s with master := modbusTcpMasterStart s.master }
  | .stop => (modbusTcpMasterStop s.master).map fun master => { s with master := master }
  | .connector sd heap =>
      some {
        master := modbusTcpMasterTcpConnectorCallback s.master sd heap
        log := if sd ≥ 0 then s.log ++ [.connection] else s.log }
  | .request call kernel =>
      (modbusTcpMasterCall kernel s.master call).map fun (master, tx) =>
        { master := master
          log := s.log ++ [match tx with | some tx => .sent call tx | none => .unsent call] }
  | .rx data =>
      (mbapStateMachine (masterReceive s.master) (s.master.mbapReader, s.log) data).map
        s.withReader
  | .tx result =>
      s.master.stream.bind fun stream =>
        (streamHandleTxEvent stream result).map fun (stream, _) =>
          { s with master := { s.master with stream := some stream } }
  | .lost =>
      (modbusTcpMasterStartReconnect s.master).map fun master => { s with master := master }

def masterSession (memory : ModbusTCPMaster) : MasterSession :=
  ⟨modbusTcpMasterInit memory, []⟩

def encodedTid (tx : List UInt8) : UInt16 := word (tx.getD 0 0) (tx.getD 1 0)

theorem encodedTid_bytes (adu : RawAdu) : encodedTid adu.bytes = adu.tid := by
  simp [encodedTid, RawAdu.bytes, RawAdu.header]

theorem masterStep_feed (s : MasterSession) (bytes : List UInt8) :
    (bytes.map MasterEvent.rx).foldlM masterStep s =
      (mbapReaderFeed (masterReceive s.master) (s.master.mbapReader, s.log) bytes).map
        s.withReader := by
  induction bytes generalizing s with
  | nil => rfl
  | cons data bytes ih =>
      rw [List.map_cons, List.foldlM_cons, mbapReaderFeed, List.foldlM_cons, masterStep]
      rcases mbapStateMachine (masterReceive s.master) (s.master.mbapReader, s.log) data with
        none | fed
      · rfl
      · exact ih (s.withReader fed)

section Request

variable (txBuf : Vector UInt8 512) (tid pid frameLen : UInt16) (slave : UInt8)

theorem fillHeader_front :
    front (fillHeader txBuf tid pid frameLen slave) 7 =
      [highByte tid, lowByte tid, highByte pid, lowByte pid, highByte frameLen,
        lowByte frameLen, slave] := by
  rw [front_seven _ (by omega)]
  simp [fillHeader]

theorem fillHeader_drop :
    (fillHeader txBuf tid pid frameLen slave).drop 7 = txBuf.drop 7 := by
  simp only [fillHeader]
  rw [drop_set _ _ _ _ _ (by omega), drop_set _ _ _ _ _ (by omega),
    drop_set _ _ _ _ _ (by omega), drop_set _ _ _ _ _ (by omega),
    drop_set _ _ _ _ _ (by omega), drop_set _ _ _ _ _ (by omega),
    drop_set _ _ _ _ _ (by omega)]

end Request

/-- The ADU of a request: the PDU is what stands at `tx_buf[7]`, up to `tx_ndx`. -/
def requestAdu (master : ModbusTCPMaster) (slave : UInt8) (size : Nat) (bound : size ≤ 505) :
    RawAdu where
  tid := master.tid
  pid := master.pid
  uid := slave
  pdu := front (master.ctx.txBuf.drop 7) size
  counted := by
    rw [front_length _ (by omega)]
    omega

theorem requestAdu_length (master : ModbusTCPMaster) (slave : UInt8) (size : Nat)
    (bound : size ≤ 505) : (requestAdu master slave size bound).length.toNat = size + 1 := by
  rw [RawAdu.length_toNat]
  exact congrArg (· + 1) (front_length _ (by omega))

theorem request_bytes (master : ModbusTCPMaster) (slave : UInt8) {size : Nat}
    (bound : size ≤ 505) (ndx : master.ctx.txNdx.toNat = 7 + size) :
    front (fillHeader master.ctx.txBuf master.tid master.pid (master.ctx.txNdx + 1 - 7) slave)
      master.ctx.txNdx.toNat = (requestAdu master slave size bound).bytes := by
  have len : master.ctx.txNdx + 1 - 7 = (requestAdu master slave size bound).length := by
    apply UInt16.toNat_inj.mp
    rw [requestAdu_length, UInt16.toNat_sub, UInt16.toNat_add, ndx]
    simp
    omega
  rw [ndx, front_add, fillHeader_front, fillHeader_drop, len]
  rfl

/-- What a request does: nothing without a connection, else its ADU is handed to the
stream and the transaction identifier advances. -/
theorem request_cases {kernel : List UInt8 → WriteResult} {master master' : ModbusTCPMaster}
    {slave : UInt8} {tx : Option (List UInt8)}
    (ran : modbusTcpMasterRequest kernel master slave = some (master', tx)) :
    (master.tcpState ≠ .connected ∧ master' = master ∧ tx = none) ∨
      (master.tcpState = .connected ∧
        tx = some (front (fillHeader master.ctx.txBuf master.tid master.pid
          (master.ctx.txNdx + 1 - 7) slave) master.ctx.txNdx.toNat) ∧
        master'.ctx = { master.ctx with
          txBuf := fillHeader master.ctx.txBuf master.tid master.pid
            (master.ctx.txNdx + 1 - 7) slave } ∧
        master'.tid = master.tid + 1 ∧ master'.pid = master.pid) := by
  unfold modbusTcpMasterRequest at ran
  dsimp only at ran
  by_cases connected : master.tcpState = .connected
  · right
    rw [if_neg (not_not.mpr connected)] at ran
    rcases Option.bind_eq_some_iff.mp ran with ⟨stream, -, ran⟩
    rcases Option.map_eq_some_iff.mp ran with ⟨after, next, done⟩
    obtain ⟨rfl, rfl⟩ := Prod.mk.inj done
    have kept : after.ctx = { master.ctx with
        txBuf := fillHeader master.ctx.txBuf master.tid master.pid
          (master.ctx.txNdx + 1 - 7) slave } ∧
        after.tid = master.tid ∧ after.pid = master.pid := by
      split at next
      · obtain rfl := Option.some.inj next
        exact ⟨rfl, rfl, rfl⟩
      · rcases Option.map_eq_some_iff.mp next with ⟨-, -, rfl⟩
        exact ⟨rfl, rfl, rfl⟩
    exact ⟨connected, rfl, kept.1, congrArg (· + 1) kept.2.1, kept.2.2⟩
  · left
    rw [if_pos connected] at ran
    obtain ⟨rfl, rfl⟩ := Prod.mk.inj (Option.some.inj ran)
    exact ⟨connected, rfl, rfl⟩

end KongjaExpress.Modbus
