import KongjaExpress.Modbus.Adu
import KongjaExpress.Modbus.ResponseLength
import KongjaExpress.Stream.Stream

/-! The frame handler of `modbus_tcp_slave.c`. -/

namespace KongjaExpress.Modbus

open BigEndian Memory Transport Utils

variable {σ : Type}

/-- The counters of `ModbusSlaveCTX`. -/
structure SlaveCounters where
  rxBufferOverflow : UInt32
  rxCrcError : UInt32
  rxFrames : UInt32
  reqFails : UInt32
  myFrames : UInt32
  txFrames : UInt32
  deriving DecidableEq, Repr

def mbSlaveCtxInit : SlaveCounters where
  rxBufferOverflow := 0
  rxCrcError := 0
  rxFrames := 0
  reqFails := 0
  myFrames := 0
  txFrames := 0

/-- `ModbusTCPSlave` with the application's registers and the callbacks made so far. -/
structure ModbusTCPSlave (σ : Type) where
  counters : SlaveCounters
  myAddress : UInt8
  store : σ
  calls : List RegCall

def modbusTcpSlaveInit (deviceAddr : UInt8) (store : σ) : ModbusTCPSlave σ where
  counters := mbSlaveCtxInit
  myAddress := deviceAddr
  store := store
  calls := []

/-- What the frame handler of a connection acts on beside the reader; `sent` is what the
kernel accepted on the connection. -/
structure SlaveEnv (σ : Type) where
  slave : ModbusTCPSlave σ
  stream : Stream 512
  sent : List UInt8

/-- The length field and the length of the response frame: `rsp_len += 1`, and
`rsp_len += 6`. -/
def mbapLength (rspLen : UInt16) : UInt16 := rspLen + 1

def frameLength (rspLen : UInt16) : UInt16 := mbapLength rspLen + 6

/-- The request's frame with the response in place of its PDU. -/
def responseFrame (frame : Vector UInt8 260) (r : RequestResult σ 0) : Vector UInt8 260 :=
  setLengthField (overlay frame 7 r.pdu) (mbapLength r.rspLen)

/-- `&mbap->frame[MB_TCP_PDU_OFF]`. -/
def pduArea (frame : Vector UInt8 260) : Vector UInt8 (253 + 0) := frame.drop 7

def SlaveEnv.execute (env : SlaveEnv σ) (r : RequestResult σ 0) : SlaveEnv σ :=
  { env with slave := { env.slave with store := r.store, calls := env.slave.calls ++ r.calls } }

/-- The counters and the stream, after a response to a request that went `ok`. `kernel`
says how `write` answers when it is offered some bytes. -/
def SlaveEnv.reply (env : SlaveEnv σ) (kernel : List UInt8 → WriteResult) (ok : Bool)
    (tx : List UInt8) : SlaveEnv σ :=
  let counters := { env.slave.counters with myFrames := env.slave.counters.myFrames + 1 }
  let counters :=
    if ok ≠ true then { counters with reqFails := counters.reqFails + 1 } else counters
  let written := streamWrite env.stream tx (kernel tx)
  { slave := { env.slave with counters := counters }
    stream := written.stream
    sent := env.sent ++ written.accepted }

def modbusTcpSlaveHandleRxFrame (ctx : ModbusSlaveCTX σ) (kernel : List UInt8 → WriteResult)
    (mbap : MbapReader) (env : SlaveEnv σ) : MbapReader × SlaveEnv σ :=
  let pdu := pduArea mbap.frame
  let len := mbap.length - 1
  if mbap.uid = env.slave.myAddress ∨ mbap.uid = 0 then
    let r := modbusRtuHandlerRequestRx ctx mbap.uid len pdu env.slave.store
    if mbap.uid ≠ 0 then
      let frame := responseFrame mbap.frame r
      let tx := front frame (frameLength r.rspLen).toNat
      ({ mbap with frame := frame }, (env.execute r).reply kernel r.ok tx)
    else ({ mbap with frame := overlay mbap.frame 7 r.pdu }, env.execute r)
  else (mbap, env)

/-- The kernel takes every byte it is offered. -/
def acceptAll (data : List UInt8) : WriteResult := .count data.length

theorem streamWrite_acceptAll {txSize : Nat} {stream : Stream txSize} (data : List UInt8)
    (direct : circBufferIsEmpty stream.txBuf = true) :
    streamWrite stream data (acceptAll data) = ⟨true, stream, data⟩ := by
  rw [streamWrite_settled direct (.inl rfl)]
  simp [acceptAll, WriteResult.ret, WriteResult.taken]

def responseAdu (request : Adu) (r : RequestResult σ 0) (length : PduLength r.rspLen) : Adu where
  tid := request.tid
  pid := request.pid
  uid := request.uid
  pdu := front r.pdu r.rspLen.toNat
  counted := by
    rw [front_length _ (by have := length.2; omega)]
    have := length.2
    omega
  nonempty := by
    rw [front_length _ (by have := length.2; omega)]
    exact length.1
  short := by
    rw [front_length _ (by have := length.2; omega)]
    exact length.2

theorem mbapLength_toNat {rspLen : UInt16} (length : PduLength rspLen) :
    (mbapLength rspLen).toNat = rspLen.toNat + 1 := by
  have := length.2
  rw [mbapLength, UInt16.toNat_add]
  exact Nat.mod_eq_of_lt (by simp; omega)

theorem frameLength_toNat {rspLen : UInt16} (length : PduLength rspLen) :
    (frameLength rspLen).toNat = rspLen.toNat + 7 := by
  have := length.2
  rw [frameLength, UInt16.toNat_add, mbapLength_toNat length]
  exact Nat.mod_eq_of_lt (by simp; omega)

theorem responseAdu_length (request : Adu) (r : RequestResult σ 0)
    (length : PduLength r.rspLen) : (responseAdu request r length).length = mbapLength r.rspLen := by
  apply UInt16.toNat_inj.mp
  rw [RawAdu.length_toNat, mbapLength_toNat length]
  change (front r.pdu r.rspLen.toNat).length + 1 = _
  rw [front_length _ (by have := length.2; omega)]

theorem front_responseFrame {request : Adu} {mbap : MbapReader}
    (carries : Carries request.toRawAdu mbap) (r : RequestResult σ 0)
    (length : PduLength r.rspLen) :
    front (responseFrame mbap.frame r) (frameLength r.rspLen).toNat =
      (responseAdu request r length).bytes := by
  have header := carries.parts.1
  simp only [front_header, RawAdu.header, List.cons.injEq, and_true] at header
  rcases header with ⟨tidHigh, tidLow, pidHigh, pidLow, -, -, uid⟩
  have behind : (responseFrame mbap.frame r).drop 7 = r.pdu := by
    rw [responseFrame, drop_set _ _ _ _ _ (by omega), drop_set _ _ _ _ _ (by omega)]
    exact drop_overlay mbap.frame 7 r.pdu
  have before : front (responseFrame mbap.frame r) 7 =
      (responseAdu request r length).header := by
    rw [front_header, RawAdu.header, responseAdu_length]
    simp [responseFrame, getElem_overlay, responseAdu, tidHigh, tidLow, pidHigh, pidLow, uid]
  calc
    front (responseFrame mbap.frame r) (frameLength r.rspLen).toNat =
        front (responseFrame mbap.frame r) (7 + r.rspLen.toNat) := by
      rw [frameLength_toNat length, Nat.add_comm]
    _ = front (responseFrame mbap.frame r) 7 ++
        front ((responseFrame mbap.frame r).drop 7) r.rspLen.toNat := front_add ..
    _ = (responseAdu request r length).header ++ front r.pdu r.rspLen.toNat := by
      rw [before, behind]
    _ = (responseAdu request r length).bytes := rfl

end KongjaExpress.Modbus
