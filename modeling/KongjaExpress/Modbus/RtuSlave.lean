import KongjaExpress.Modbus.Crc
import KongjaExpress.Modbus.TcpSlave

/-! The serial slave of `modbus_rtu_slave.c`: reception, the end of a frame by timeout,
and the frame handler. -/

namespace KongjaExpress.Modbus

open BigEndian Memory Transport

variable {σ : Type}

/-- `ModbusRTUSlave` with the application's registers, the callbacks made so far and the
bytes the kernel accepted. -/
structure ModbusRTUSlave (σ : Type) where
  counters : SlaveCounters
  dataBuffer : Vector UInt8 256
  dataNdx : UInt16
  txNdx : UInt16
  myAddress : UInt8
  rxShortFrame : UInt32
  stream : Stream 768
  store : σ
  calls : List RegCall
  sent : List UInt8

def mbRtuResetDataBuffer (slave : ModbusRTUSlave σ) : ModbusRTUSlave σ :=
  { slave with dataNdx := 0, txNdx := 0 }

def mbRtuEnableRx (slave : ModbusRTUSlave σ) : ModbusRTUSlave σ := mbRtuResetDataBuffer slave

/-- `modbus_rtu_slave_init`, on the memory the slave and its queue get. -/
def modbusRtuSlaveInit (memory : Vector UInt8 256) (deviceAddr : UInt8) (fd : Int)
    (heap : Vector UInt8 768) (store : σ) : ModbusRTUSlave σ :=
  mbRtuEnableRx {
    counters := mbSlaveCtxInit
    dataBuffer := memory
    dataNdx := 0
    txNdx := 0
    myAddress := deviceAddr
    rxShortFrame := 0
    stream := streamInitWithFd fd 128 heap
    store := store
    calls := []
    sent := [] }

def incErrCnt (count : UInt32) : UInt32 := if count < 0xffff then count + 1 else count

/-- What one read of the serial line gives: `rx_bounce_buf` has 128 bytes. -/
def RxChunk : Type := { bytes : List UInt8 // bytes.length ≤ 128 }

def modbusRtuRx (slave : ModbusRTUSlave σ) (rx : RxChunk) : ModbusRTUSlave σ :=
  let slave :=
    if slave.dataNdx.toNat + rx.val.length ≥ 256 then
      let slave := mbRtuResetDataBuffer slave
      { slave with
        counters := { slave.counters with
          rxBufferOverflow := incErrCnt slave.counters.rxBufferOverflow } }
    else slave
  { slave with
    dataBuffer := blit slave.dataBuffer slave.dataNdx.toNat rx.val
    dataNdx := slave.dataNdx + .ofNat rx.val.length }

/-- `slave->data_buffer[slave->data_ndx++] = data`. -/
def putData (slave : ModbusRTUSlave σ) (data : UInt8) : Option (ModbusRTUSlave σ) :=
  (store slave.dataBuffer slave.dataNdx.toNat data).map fun dataBuffer =>
    { slave with dataBuffer := dataBuffer, dataNdx := slave.dataNdx + 1 }

/-- `stream_write` of a response and what follows it. -/
def mbRtuSend (kernel : List UInt8 → WriteResult) (tx : List UInt8)
    (slave : ModbusRTUSlave σ) : ModbusRTUSlave σ :=
  let written := streamWrite slave.stream tx (kernel tx)
  let slave := { slave with stream := written.stream, sent := slave.sent ++ written.accepted }
  let counters :=
    if written.ok then { slave.counters with txFrames := slave.counters.txFrames + 1 }
    else slave.counters
  mbRtuEnableRx { slave with counters := counters }

/-- The end of the frame handler: address, response PDU and checksum are sent. -/
def mbRtuReply (kernel : List UInt8 → WriteResult) (addr : UInt8) (rspLen : UInt16)
    (slave : ModbusRTUSlave σ) : Option (ModbusRTUSlave σ) := do
  let slave := { slave with dataBuffer := slave.dataBuffer.set 0 addr, dataNdx := 1 + rspLen }
  let crc := modbusCalcCrc (front slave.dataBuffer slave.dataNdx.toNat)
  let slave ← putData slave (lowByte crc)
  let slave ← putData slave (highByte crc)
  some (mbRtuSend kernel (front slave.dataBuffer slave.dataNdx.toNat) slave)

/-- `mb_rtu_buffer(slave)[MB_SER_PDU_ADDR_OFF]`. -/
abbrev rtuAddr (dataBuffer : Vector UInt8 256) : UInt8 := dataBuffer[0]

/-- `&mb_rtu_buffer(slave)[MB_SER_PDU_PDU_OFF]`. -/
def rtuPduArea (dataBuffer : Vector UInt8 256) : Vector UInt8 (253 + 2) := dataBuffer.drop 1

def mbRtuHandleRxFrame (ctx : ModbusSlaveCTX σ) (kernel : List UInt8 → WriteResult)
    (slave : ModbusRTUSlave σ) : Option (ModbusRTUSlave σ) :=
  let addr := rtuAddr slave.dataBuffer
  let len := slave.dataNdx - 1 - 2
  if addr = slave.myAddress ∨ addr = 0 then
    let r := modbusRtuHandlerRequestRx ctx addr len (rtuPduArea slave.dataBuffer) slave.store
    let slave := { slave with
      dataBuffer := overlay slave.dataBuffer 1 r.pdu
      store := r.store
      calls := slave.calls ++ r.calls }
    if addr ≠ 0 then
      let counters := { slave.counters with myFrames := slave.counters.myFrames + 1 }
      let counters :=
        if r.ok ≠ true then { counters with reqFails := counters.reqFails + 1 } else counters
      mbRtuReply kernel addr r.rspLen { slave with counters := counters }
    else some (mbRtuEnableRx slave)
  else
    -- `modbus_rtu_frame_snoop` does nothing by default
    some (mbRtuEnableRx slave)

def mbRtuStartHandlingRxFrame (ctx : ModbusSlaveCTX σ) (kernel : List UInt8 → WriteResult)
    (slave : ModbusRTUSlave σ) : Option (ModbusRTUSlave σ) :=
  let slave := { slave with
    counters := { slave.counters with rxFrames := slave.counters.rxFrames + 1 } }
  if slave.dataNdx = 0 then
    some (mbRtuEnableRx slave)
  else if slave.dataNdx < 4 then
    some (mbRtuEnableRx { slave with rxShortFrame := incErrCnt slave.rxShortFrame })
  else if modbusCalcCrc (front slave.dataBuffer slave.dataNdx.toNat) ≠ 0 then
    some (mbRtuEnableRx { slave with
      counters := { slave.counters with rxCrcError := incErrCnt slave.counters.rxCrcError } })
  else mbRtuHandleRxFrame ctx kernel slave

def t35TimeoutHandler (ctx : ModbusSlaveCTX σ) (kernel : List UInt8 → WriteResult)
    (slave : ModbusRTUSlave σ) : Option (ModbusRTUSlave σ) :=
  mbRtuStartHandlingRxFrame ctx kernel slave

def rtuReceive (ctx : ModbusSlaveCTX σ) (kernel : List UInt8 → WriteResult)
    (slave : ModbusRTUSlave σ) (chunks : List RxChunk) : Option (ModbusRTUSlave σ) :=
  t35TimeoutHandler ctx kernel (chunks.foldl modbusRtuRx slave)

/-- What the receiver holds, and how many leading bytes of its buffer this frame has
overwritten. -/
structure Reception where
  held : List UInt8
  extent : Nat

/-- A chunk that would fill the buffer starts the frame over. -/
def Reception.take (r : Reception) (rx : RxChunk) : Reception :=
  let start := if r.held.length + rx.val.length ≥ 256 then [] else r.held
  ⟨start ++ rx.val, max r.extent (start ++ rx.val).length⟩

def reception (chunks : List RxChunk) : Reception := chunks.foldl Reception.take ⟨[], 0⟩

/-- The slave's buffer and index are those of a reception over `memory`. -/
structure Receives (memory : Vector UInt8 256) (r : Reception) (slave : ModbusRTUSlave σ) :
    Prop where
  ndx : slave.dataNdx.toNat = r.held.length
  within : r.held.length ≤ r.extent
  bound : r.extent ≤ 256
  small : r.held.length < 256
  held : front slave.dataBuffer r.held.length = r.held
  untouched : ∀ i (inside : i < 256), r.extent ≤ i → slave.dataBuffer[i] = memory[i]

theorem modbusRtuRx_receives {memory : Vector UInt8 256} {r : Reception}
    {slave : ModbusRTUSlave σ} (receives : Receives memory r slave) (rx : RxChunk) :
    Receives memory (r.take rx) (modbusRtuRx slave rx) := by
  have ndx := receives.ndx
  have short := rx.property
  have start (from' : ModbusRTUSlave σ) (prior : List UInt8)
      (buffer : from'.dataBuffer = slave.dataBuffer) (at' : from'.dataNdx.toNat = prior.length)
      (room : prior.length + rx.val.length < 256) (behind : prior.length ≤ r.extent)
      (known : front from'.dataBuffer prior.length = prior) :
      Receives memory ⟨prior ++ rx.val, max r.extent (prior ++ rx.val).length⟩
        { from' with
          dataBuffer := blit from'.dataBuffer from'.dataNdx.toNat rx.val
          dataNdx := from'.dataNdx + .ofNat rx.val.length } := by
    constructor
    · rw [List.length_append, UInt16.toNat_add, at', UInt16.toNat_ofNat']
      simp
      omega
    · exact le_max_right _ _
    · have := receives.bound
      simp only [List.length_append]
      omega
    · simpa using room
    · rw [List.length_append, at', front_blit _ _ _ room.le, known]
    · intro i inside outside
      dsimp only at outside ⊢
      rw [List.length_append] at outside
      rw [at', getElem_blit_outside _ _ _ _ _ (by omega), buffer]
      exact receives.untouched i inside (by omega)
  unfold modbusRtuRx Reception.take
  rw [ndx]
  by_cases full : r.held.length + rx.val.length ≥ 256
  · rw [if_pos full, if_pos full]
    exact start _ [] rfl rfl (by simp; omega) (Nat.zero_le _) (front_zero _)
  · rw [if_neg full, if_neg full]
    exact start slave r.held rfl ndx (by omega) receives.within receives.held

theorem reception_receives (chunks : List RxChunk) {memory : Vector UInt8 256} {r : Reception}
    {slave : ModbusRTUSlave σ} (receives : Receives memory r slave) :
    Receives memory (chunks.foldl Reception.take r) (chunks.foldl modbusRtuRx slave) := by
  induction chunks generalizing r slave with
  | nil => exact receives
  | cons rx chunks ih => exact ih (modbusRtuRx_receives receives rx)

def rtuFrame (addr : UInt8) (pdu : List UInt8) : List UInt8 :=
  let body := addr :: pdu
  body ++ [lowByte (modbusCalcCrc body), highByte (modbusCalcCrc body)]

theorem rtuFrame_crc (addr : UInt8) (pdu : List UInt8) : modbusCalcCrc (rtuFrame addr pdu) = 0 :=
  modbusCalcCrc_appended _

theorem putData_some {slave : ModbusRTUSlave σ} (room : slave.dataNdx.toNat < 256)
    (data : UInt8) :
    putData slave data = some { slave with
      dataBuffer := slave.dataBuffer.set slave.dataNdx.toNat data
      dataNdx := slave.dataNdx + 1 } := by
  rw [putData, store_some room]
  rfl

theorem ndx_succ {ndx : UInt16} (room : ndx.toNat < 256) : (ndx + 1).toNat = ndx.toNat + 1 := by
  rw [UInt16.toNat_add]
  exact Nat.mod_eq_of_lt (by simp; omega)

theorem putData_two (slave : ModbusRTUSlave σ) (room : slave.dataNdx.toNat + 1 < 256)
    (first second : UInt8) :
    ∃ buffer, ((putData slave first).bind fun slave => putData slave second) =
        some { slave with dataBuffer := buffer, dataNdx := slave.dataNdx + 1 + 1 } ∧
      front buffer (slave.dataNdx + 1 + 1).toNat =
        front slave.dataBuffer slave.dataNdx.toNat ++ [first, second] := by
  have next := @ndx_succ slave.dataNdx (by omega)
  have inside : (slave.dataNdx + 1).toNat < 256 := by omega
  refine ⟨(slave.dataBuffer.set slave.dataNdx.toNat first).set (slave.dataNdx + 1).toNat second,
    ?_, ?_⟩
  · rw [putData_some (by omega), Option.bind_some, putData_some inside]
  · rw [ndx_succ inside, front_set_succ _ inside, next, front_set_succ _ (by omega)]
    simp

/-- What is sent depends on the response PDU in the buffer and on nothing behind it. -/
theorem mbRtuReply_sends (kernel : List UInt8 → WriteResult) (addr : UInt8) {rspLen : UInt16}
    (length : PduLength rspLen) (slave : ModbusRTUSlave σ) :
    ∃ buffer, mbRtuReply kernel addr rspLen slave = some
      { mbRtuSend kernel (rtuFrame addr (front (slave.dataBuffer.drop 1) rspLen.toNat)) slave with
        dataBuffer := buffer } := by
  have bound := length.2
  have ndx : (1 + rspLen).toNat = 1 + rspLen.toNat := by
    rw [UInt16.toNat_add]
    exact Nat.mod_eq_of_lt (by simp; omega)
  let started := { slave with dataBuffer := slave.dataBuffer.set 0 addr, dataNdx := 1 + rspLen }
  have body : front started.dataBuffer started.dataNdx.toNat =
      addr :: front (slave.dataBuffer.drop 1) rspLen.toNat := by
    change front (slave.dataBuffer.set 0 addr) (1 + rspLen).toNat = _
    rw [ndx, front_add, drop_set _ _ _ _ _ (by omega), front_set_succ _ (by omega), front_zero]
    rfl
  have room : started.dataNdx.toNat + 1 < 256 := by
    change (1 + rspLen).toNat + 1 < 256
    omega
  rcases putData_two started room
    (lowByte (modbusCalcCrc (front started.dataBuffer started.dataNdx.toNat)))
    (highByte (modbusCalcCrc (front started.dataBuffer started.dataNdx.toNat))) with
    ⟨buffer, put, whole⟩
  refine ⟨buffer, ?_⟩
  unfold mbRtuReply
  simp only [Option.bind_eq_bind]
  rw [← Option.bind_assoc]
  refine (congrArg (fun put => Option.bind put _) put).trans ?_
  have frame : front buffer (started.dataNdx + 1 + 1).toNat =
      rtuFrame addr (front (slave.dataBuffer.drop 1) rspLen.toNat) := by
    rw [whole, body]
    rfl
  rw [Option.bind_some]
  dsimp only
  rw [frame]
  rfl

end KongjaExpress.Modbus
