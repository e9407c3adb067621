import KongjaExpress.Modbus.RtuOverlong
import KongjaExpress.Modbus.WriteReadAgreement

/-! The serial master of `modbus_rtu_master.c`, and its requests at a serial slave. -/

namespace KongjaExpress.Modbus

open BigEndian Memory Transport

variable {σ : Type}

structure ModbusRTUMaster where
  ctx : ModbusMasterCTX
  stream : Stream 512

/-- `modbus_rtu_master_init` on a context with arbitrary contents. -/
def modbusRtuMasterInit (ctx : ModbusMasterCTX) (fd : Int) (heap : Vector UInt8 512) :
    ModbusRTUMaster where
  ctx := { ctx with pduOffset := 1 }
  stream := streamInitWithFd fd 128 heap

theorem txBuf_nonempty : 0 < 512 := by decide

/-- `ctx->tx_buf[0] = slave`. -/
def addressTx (ctx : ModbusMasterCTX) (slave : UInt8) : ModbusMasterCTX :=
  { ctx with txBuf := ctx.txBuf.set 0 slave txBuf_nonempty }

/-- The master and what it handed to `stream_write`; `none` is a store outside `tx_buf`. -/
def modbusRtuMasterRequest (kernel : List UInt8 → WriteResult) (master : ModbusRTUMaster)
    (slave : UInt8) : Option (ModbusRTUMaster × List UInt8) :=
  let ctx := addressTx master.ctx slave
  let crc := modbusCalcCrc (front ctx.txBuf ctx.txNdx.toNat)
  ([lowByte crc, highByte crc].foldlM putTx ctx).map fun ctx =>
    let tx := front ctx.txBuf ctx.txNdx.toNat
    let written := streamWrite master.stream tx (kernel tx)
    ({ ctx := ctx, stream := written.stream }, tx)

/-- A `mb_master_*` call on this master. -/
def modbusRtuMasterCall (kernel : List UInt8 → WriteResult) (master : ModbusRTUMaster)
    (call : MasterCall) : Option (ModbusRTUMaster × List UInt8) :=
  call.run (fun ctx slave => modbusRtuMasterRequest kernel { master with ctx := ctx } slave)
    master.ctx

def MasterCall.InRange : MasterCall → Prop
  | readCoils _ _ nb | readDiscreteInputs _ _ nb => nb.toNat ≤ 0x07D0
  | readHoldingRegisters _ _ nb | readInputRegisters _ _ nb => nb.toNat ≤ 0x7D
  | writeSingleCoil .. | writeSingleRegister .. => True
  | writeMultipleCoils _ _ nb _ => nb.toNat ≤ 0x07B0
  | writeMultipleRegisters _ _ nb _ => nb.toNat ≤ 0x78
  | writeAndReadRegisters _ _ nbWrite _ _ nbRead => nbWrite.toNat ≤ 0x79 ∧ nbRead.toNat ≤ 0x7D

theorem MasterCall.InRange.short {call : MasterCall} (range : call.InRange) :
    call.pdu.length ≤ 252 := by
  rw [call.pdu_length]
  cases call with
  | writeMultipleCoils slave regAddr nb values =>
      have bound : nb.toNat ≤ 0x07B0 := range
      dsimp only
      omega
  | writeMultipleRegisters slave regAddr nb values =>
      have bound : nb.toNat ≤ 0x78 := range
      dsimp only
      omega
  | writeAndReadRegisters slave writeAddr nbWrite values readAddr nbRead =>
      have bound : nbWrite.toNat ≤ 0x79 := range.1
      dsimp only
      omega
  | _ => exact Nat.le_add_right 5 247

theorem request_frame {call : MasterCall} {ctx ctx' : ModbusMasterCTX}
    (encoded : Encoded call ctx ctx') (offset : ctx.pduOffset = 1)
    (room : call.pdu.length ≤ 509) (kernel : List UInt8 → WriteResult) (stream : Stream 512) :
    ∃ master, modbusRtuMasterRequest kernel ⟨ctx', stream⟩ call.slave =
      some (master, rtuFrame call.slave call.pdu) := by
  have ndx : (addressTx ctx' call.slave).txNdx.toNat = 1 + call.pdu.length := by
    rw [← show ctx.pduOffset.toNat = 1 by rw [offset]; rfl]
    exact encoded.ndx
  have body : front (addressTx ctx' call.slave).txBuf (addressTx ctx' call.slave).txNdx.toNat =
      call.slave :: call.pdu := by
    have pdu := encoded.pdu
    rw [offset] at pdu
    unfold addressTx at ndx ⊢
    rw [ndx, front_add, drop_set _ _ _ _ _ (by omega), front_set_succ _ (by omega), front_zero]
    exact congrArg (call.slave :: ·) pdu
  rcases @foldlM_putTx [lowByte (modbusCalcCrc (call.slave :: call.pdu)),
    highByte (modbusCalcCrc (call.slave :: call.pdu))] (addressTx ctx' call.slave) (by
      rw [ndx, List.length_cons, List.length_singleton]
      omega) with ⟨sent, put, appends⟩
  have frame : front sent.txBuf sent.txNdx.toNat = rtuFrame call.slave call.pdu := by
    rw [appends.held, body]
    rfl
  unfold modbusRtuMasterRequest
  dsimp only
  rw [body, put, Option.map_some, frame]
  exact ⟨_, rfl⟩

theorem modbusRtuMasterCall_frame {call : MasterCall} (kernel : List UInt8 → WriteResult)
    {master : ModbusRTUMaster} (offset : master.ctx.pduOffset = 1)
    (room : call.pdu.length ≤ 509) :
    ∃ master', modbusRtuMasterCall kernel master call =
      some (master', rtuFrame call.slave call.pdu) := by
  have inside : master.ctx.pduOffset.toNat + call.pdu.length ≤ 512 := by
    rw [offset]
    calc (1 : UInt8).toNat + call.pdu.length ≤ 1 + 509 := Nat.add_le_add_left room 1
      _ ≤ 512 := by decide
  rcases call.run_encoded (fun ctx slave =>
    modbusRtuMasterRequest kernel { master with ctx := ctx } slave) inside with
    ⟨ctx', encoded, run⟩
  rcases request_frame encoded offset room kernel master.stream with ⟨master', sent⟩
  exact ⟨master', run.trans sent⟩

/-- What is seen of a slave that has handled a request: a broadcast is executed, any other is
answered as well. -/
def Observed.handled (seen : Observed σ 768) (kernel : List UInt8 → WriteResult) (uid : UInt8)
    (r : RequestResult σ 2) : Observed σ 768 :=
  if uid = 0 then seen.execute r
  else (seen.execute r).send kernel (rtuFrame uid (front r.pdu r.rspLen.toNat))

/-- The slave runs its handler on the PDU of the call, at the length it was encoded with, and all
that is seen of it is what comes of that. -/
def HandsOver (ctx : ModbusSlaveCTX σ) (kernel : List UInt8 → WriteResult) (call : MasterCall)
    (slave next : ModbusRTUSlave σ) : Prop :=
  ∃ area : Vector UInt8 (253 + 2), front area call.pdu.length = call.pdu ∧
    next.observed = slave.observed.handled kernel call.slave
      (modbusRtuHandlerRequestRx ctx call.slave (.ofNat call.pdu.length) area slave.store)

theorem frame_held {address : UInt8} {pdu : List UInt8} (short : pdu.length ≤ 252)
    {slave : ModbusRTUSlave σ} (empty : slave.dataNdx = 0) {chunks : List RxChunk}
    (sent : joined chunks = rtuFrame address pdu) :
    (chunks.foldl modbusRtuRx slave).held = rtuFrame address pdu := by
  have receives := reception_receives chunks (receives_empty empty)
  have fits : (joined chunks).length < 256 := by
    rw [sent, rtuFrame_length]
    omega
  unfold ModbusRTUSlave.held
  rw [receives.ndx, receives.held, reception_joined chunks (by simpa using fits), sent]
  rfl

theorem t35_handled {ctx : ModbusSlaveCTX σ} {kernel : List UInt8 → WriteResult}
    {address : UInt8} {slave : ModbusRTUSlave σ} (sound : RtuSound address slave)
    (valid : ValidFrame slave.held) (addressed : Addressed address (slave.held.headD 0)) :
    ∃ next, t35TimeoutHandler ctx kernel slave = some next ∧
      next.observed = slave.observed.handled kernel (slave.held.headD 0) (slave.response ctx) := by
  rcases t35_spec ctx kernel sound with ⟨next, expired, -, -, observed⟩
  have first : rtuAddr slave.dataBuffer = slave.held.headD 0 :=
    received_address (receives_held sound) valid
  have here : Addressed slave.myAddress (rtuAddr slave.dataBuffer) := by
    rw [first, sound.address]
    exact addressed
  refine ⟨next, expired, ?_⟩
  rw [observed, expiredObserved, if_pos valid, rtuHandled, Observed.handled]
  rw [if_pos here, first]
  by_cases zero : slave.held.headD 0 = 0
  · rw [if_pos zero, if_neg (not_not.mpr zero)]
    rfl
  · rw [if_neg zero, if_pos zero]
    rfl

theorem response_of_frame {address uid : UInt8} {pdu : List UInt8} {slave : ModbusRTUSlave σ}
    (sound : RtuSound address slave) (valid : ValidFrame slave.held)
    (held : slave.held = rtuFrame uid pdu) (ctx : ModbusSlaveCTX σ) :
    slave.response ctx = modbusRtuHandlerRequestRx ctx uid (.ofNat pdu.length)
        (rtuPduArea slave.dataBuffer) slave.store ∧
      front (rtuPduArea slave.dataBuffer) pdu.length = pdu := by
  have receives := receives_held sound
  have first : rtuAddr slave.dataBuffer = slave.held.headD 0 := received_address receives valid
  have area : front (rtuPduArea slave.dataBuffer) (rtuPdu slave.held).length =
    rtuPdu slave.held := received_pdu receives
  rw [held, rtuPdu_rtuFrame] at area
  unfold ModbusRTUSlave.response rtuResponse
  rw [first, held, rtuFrame_length, Nat.add_sub_cancel]
  exact ⟨rfl, area⟩

theorem rtuFrame_valid {pdu : List UInt8} (uid : UInt8) (long : 1 ≤ pdu.length) :
    ValidFrame (rtuFrame uid pdu) := by
  refine ⟨?_, rtuFrame_crc uid pdu⟩
  rw [rtuFrame_length]
  omega

theorem frame_handedOver (ctx : ModbusSlaveCTX σ) (kernel : List UInt8 → WriteResult)
    {call : MasterCall} (short : call.pdu.length ≤ 252) {slave : ModbusRTUSlave σ}
    (empty : slave.dataNdx = 0) {chunks : List RxChunk}
    (sent : joined chunks = rtuFrame call.slave call.pdu)
    (addressed : Addressed slave.myAddress call.slave) :
    ∃ next, rtuReceive ctx kernel slave chunks = some next ∧
      HandsOver ctx kernel call slave next := by
  have held := frame_held short empty sent
  have sound : RtuSound slave.myAddress (chunks.foldl modbusRtuRx slave) :=
    chunks_sound chunks ⟨by rw [empty]; decide, rfl⟩
  have valid : ValidFrame (chunks.foldl modbusRtuRx slave).held := by
    have long := call.pdu_long
    rw [held]
    exact rtuFrame_valid call.slave (by omega)
  have head : Addressed slave.myAddress ((chunks.foldl modbusRtuRx slave).held.headD 0) := by
    rw [held]
    exact addressed
  rcases t35_handled sound valid head with ⟨next, expired, seen⟩
  rcases response_of_frame sound valid held ctx with ⟨response, area⟩
  have before := (reception_observed chunks slave).1
  have store : (chunks.foldl modbusRtuRx slave).store = slave.store := congrArg Observed.store before
  rw [response, store, before, held] at seen
  exact ⟨next, expired, _, area, seen⟩

/-- A request in its range comes through to every serial slave it is for, in chunks of
any size. -/
theorem rtuLink_agreement (ctx : ModbusSlaveCTX σ) {call : MasterCall} (range : call.InRange)
    (kernel : List UInt8 → WriteResult) {master : ModbusRTUMaster}
    (offset : master.ctx.pduOffset = 1) {slave : ModbusRTUSlave σ} (empty : slave.dataNdx = 0) :
    ∃ master' tx, modbusRtuMasterCall kernel master call = some (master', tx) ∧
      ∀ chunks, joined chunks = tx →
        ValidFrame (chunks.foldl modbusRtuRx slave).held ∧
          (Addressed slave.myAddress call.slave → ∀ kernel', ∃ next,
            rtuReceive ctx kernel' slave chunks = some next ∧
              HandsOver ctx kernel' call slave next) := by
  have room : call.pdu.length ≤ 509 := range.short.trans (by decide)
  rcases modbusRtuMasterCall_frame kernel offset room with ⟨master', ran⟩
  refine ⟨master', _, ran, fun chunks sent => ⟨?_, fun addressed kernel' => ?_⟩⟩
  · have long := call.pdu_long
    rw [frame_held range.short empty sent]
    exact rtuFrame_valid call.slave (by omega)
  · exact frame_handedOver ctx kernel' range.short empty sent addressed

/-- A request to write two registers. -/
theorem rtuLink_agreement_two :
    ∃ master' tx, modbusRtuMasterCall acceptAll
        (modbusRtuMasterInit ⟨.replicate 512 0, 0, 0, 0, 0, 0, 0, 0⟩ 5 (.replicate 512 0))
        (.writeMultipleRegisters 1 0 2 fun _ => 7) = some (master', tx) ∧
      ∀ chunks, joined chunks = tx → ValidFrame (burstSlave chunks).held := by
  have range : (MasterCall.writeMultipleRegisters 1 0 2 fun _ => 7).InRange :=
    show (2 : UInt16).toNat ≤ 0x78 by decide
  rcases @rtuLink_agreement Unit testSlave _ range acceptAll
    (modbusRtuMasterInit ⟨.replicate 512 0, 0, 0, 0, 0, 0, 0, 0⟩ 5 (.replicate 512 0)) rfl
    (modbusRtuSlaveInit (.replicate 256 0) 1 5 (.replicate 768 0) ()) rfl with
    ⟨master', tx, ran, received⟩
  exact ⟨master', tx, ran, fun chunks sent => (received chunks sent).1⟩

end KongjaExpress.Modbus
