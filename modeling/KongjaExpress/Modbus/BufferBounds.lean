import KongjaExpress.Modbus.Containment
import KongjaExpress.Modbus.RtuDiscipline

/-! No slave reads or writes outside its buffers. -/

namespace KongjaExpress.Modbus

open BigEndian Memory Transport

variable {σ : Type} {k : Nat}

/-- `modbus_rtu_rx` with a `memcpy` that fails outside `data_buffer`. -/
def modbusRtuRxChecked (slave : ModbusRTUSlave σ) (rx : RxChunk) : Option (ModbusRTUSlave σ) :=
  let slave :=
    if slave.dataNdx.toNat + rx.val.length ≥ 256 then
      let slave := mbRtuResetDataBuffer slave
      { slave with
        counters := { slave.counters with
          rxBufferOverflow := incErrCnt slave.counters.rxBufferOverflow } }
    else slave
  (copy slave.dataBuffer slave.dataNdx.toNat rx.val).map fun dataBuffer =>
    { slave with
      dataBuffer := dataBuffer
      dataNdx := slave.dataNdx + .ofNat rx.val.length }

theorem modbusRtuRx_checked (slave : ModbusRTUSlave σ) (rx : RxChunk) :
    modbusRtuRxChecked slave rx = some (modbusRtuRx slave rx) := by
  have short := rx.property
  unfold modbusRtuRxChecked modbusRtuRx copy
  dsimp only
  split
  · have room : (0 : UInt16).toNat + rx.val.length ≤ 256 := by simpa using by omega
    rw [mbRtuResetDataBuffer, if_pos room]
    rfl
  · rename_i fits
    rw [if_pos (by omega)]
    rfl

def ModbusRTUSlave.reply (slave : ModbusRTUSlave σ) (ctx : ModbusSlaveCTX σ) : List UInt8 :=
  rtuFrame (rtuAddr slave.dataBuffer)
    (front (slave.response ctx).pdu (slave.response ctx).rspLen.toNat)

/-- A timeout handles a valid frame inside the PDU behind the address, and what it sends
fits in `data_buffer`. -/
structure ExpiryConfined (ctx : ModbusSlaveCTX (Option σ)) (kernel : List UInt8 → WriteResult)
    (slave next : ModbusRTUSlave (Option σ)) : Prop where
  request : ValidFrame slave.held →
    Contained (rtuPduArea slave.dataBuffer)
      (modbusRtuHandlerRequestRx ctx (rtuAddr slave.dataBuffer) (.ofNat (slave.held.length - 3))
        (firstPdu (rtuPduArea slave.dataBuffer)) slave.store)
      (slave.response ctx)
  reply : ValidFrame slave.held →
    (slave.reply ctx).length = 1 + (slave.response ctx).rspLen.toNat + 2 ∧
      (slave.reply ctx).length ≤ 256
  outcome : next.observed = slave.observed ∨
    ValidFrame slave.held ∧
      (next.observed = slave.observed.execute (slave.response ctx) ∨
        next.observed = (slave.observed.execute (slave.response ctx)).send kernel
          (slave.reply ctx))

def RtuConfined (ctx : ModbusSlaveCTX (Option σ)) (slave : ModbusRTUSlave (Option σ))
    (event : RtuEvent) (next : ModbusRTUSlave (Option σ)) : Prop :=
  match event with
  | .rx chunk => modbusRtuRxChecked slave chunk = some next
  | .t35 kernel => ExpiryConfined ctx kernel slave next
  | .writable _ => next.dataBuffer = slave.dataBuffer ∧ next.dataNdx = slave.dataNdx

structure RtuUnharmed (address : UInt8) (slave : ModbusRTUSlave (Option σ)) : Prop where
  sound : RtuSound address slave
  registers : slave.store.isSome

theorem store_of_observed {slave slave' : ModbusRTUSlave σ}
    (same : slave'.observed = slave.observed) : slave'.store = slave.store :=
  congrArg Observed.store same

section Expiry

variable (callbacks : WindowCallbacks σ) {address : UInt8} {slave next : ModbusRTUSlave (Option σ)}

theorem response_contained (unharmed : RtuUnharmed address slave)
    (valid : ValidFrame slave.held) :
    Contained (rtuPduArea slave.dataBuffer)
      (modbusRtuHandlerRequestRx callbacks.ctx (rtuAddr slave.dataBuffer)
        (.ofNat (slave.held.length - 3)) (firstPdu (rtuPduArea slave.dataBuffer)) slave.store)
      (slave.response callbacks.ctx) := by
  rcases Option.isSome_iff_exists.mp unharmed.registers with ⟨store, registers⟩
  have length : PduLength (.ofNat (slave.held.length - 3)) :=
    pduSize_length valid.1 (receives_held unharmed.sound).small
  unfold ModbusRTUSlave.response rtuResponse
  rw [registers]
  exact requestRx_contained callbacks _ length _ store

theorem t35_confined (unharmed : RtuUnharmed address slave) (kernel : List UInt8 → WriteResult)
    (expired : t35TimeoutHandler callbacks.ctx kernel slave = some next) :
    ExpiryConfined callbacks.ctx kernel slave next := by
  rcases t35_spec callbacks.ctx kernel unharmed.sound with ⟨next', expired', -, -, observed⟩
  obtain rfl := Option.some.inj (expired'.symm.trans expired)
  have request := response_contained callbacks unharmed
  constructor
  · exact request
  · intro valid
    have bound := (request valid).length.2
    have size : (front (slave.response callbacks.ctx).pdu
        (slave.response callbacks.ctx).rspLen.toNat).length =
          (slave.response callbacks.ctx).rspLen.toNat := front_length _ (by omega)
    rw [ModbusRTUSlave.reply, rtuFrame_length, size]
    omega
  · rw [observed]
    unfold expiredObserved rtuHandled
    dsimp only
    split
    · rename_i valid
      split
      · split
        · exact Or.inr ⟨valid, Or.inr rfl⟩
        · exact Or.inr ⟨valid, Or.inl rfl⟩
      · exact Or.inl rfl
    · exact Or.inl rfl

theorem ExpiryConfined.registers {ctx : ModbusSlaveCTX (Option σ)}
    {kernel : List UInt8 → WriteResult} (confined : ExpiryConfined ctx kernel slave next)
    (before : slave.store.isSome) : next.store.isSome := by
  have executed (valid : ValidFrame slave.held) : (slave.response ctx).store.isSome := by
    rw [(confined.request valid).store]
    exact (confined.request valid).registers
  rcases confined.outcome with same | ⟨valid, broadcast | answered⟩
  · rw [store_of_observed same]
    exact before
  · rw [show next.store = (slave.response ctx).store from congrArg Observed.store broadcast]
    exact executed valid
  · rw [show next.store = (slave.response ctx).store from congrArg Observed.store answered]
    exact executed valid

end Expiry

theorem rtuStep_confined (callbacks : WindowCallbacks σ) {address : UInt8}
    (slave : ModbusRTUSlave (Option σ)) (event : RtuEvent) (next : ModbusRTUSlave (Option σ))
    (unharmed : RtuUnharmed address slave)
    (taken : rtuStep callbacks.ctx slave event = some next) :
    RtuConfined callbacks.ctx slave event next := by
  cases event with
  | rx chunk =>
      obtain rfl := Option.some.inj taken
      exact modbusRtuRx_checked slave chunk
  | t35 kernel => exact t35_confined callbacks unharmed kernel taken
  | writable result =>
      rcases Option.map_eq_some_iff.mp taken with ⟨⟨stream, accepted⟩, -, rfl⟩
      exact ⟨rfl, rfl⟩

theorem rtuStep_unharmed (callbacks : WindowCallbacks σ) {address : UInt8}
    (slave : ModbusRTUSlave (Option σ)) (event : RtuEvent) (next : ModbusRTUSlave (Option σ))
    (unharmed : RtuUnharmed address slave)
    (taken : rtuStep callbacks.ctx slave event = some next) : RtuUnharmed address next := by
  have confined := rtuStep_confined callbacks slave event next unharmed taken
  refine ⟨rtuStep_sound slave event next unharmed.sound taken, ?_⟩
  cases event with
  | rx chunk =>
      obtain rfl := Option.some.inj taken
      rcases modbusRtuRx_observed slave chunk with ⟨seen, -⟩
      rw [store_of_observed seen]
      exact unharmed.registers
  | t35 kernel => exact ExpiryConfined.registers confined unharmed.registers
  | writable result =>
      rcases Option.map_eq_some_iff.mp taken with ⟨⟨stream, accepted⟩, -, rfl⟩
      exact unharmed.registers

/-- The response's frame is as long as it is said to be, and fits in `frame`. -/
structure MbapReplyFits (frame : Vector UInt8 260) (r : RequestResult σ 0) : Prop where
  size : (frameLength r.rspLen).toNat = 7 + r.rspLen.toNat
  fits : (frameLength r.rspLen).toNat ≤ 260
  whole : (front (responseFrame frame r) (frameLength r.rspLen).toNat).length =
    7 + r.rspLen.toNat

theorem mbapReply_fits (frame : Vector UInt8 260) {r : RequestResult σ 0}
    (length : PduLength r.rspLen) : MbapReplyFits frame r := by
  have bound := length.2
  have size := frameLength_toNat length
  constructor
  · omega
  · omega
  · rw [front_length _ (by omega)]
    omega

/-- Requests, serial runs and replies stay inside the buffers, and no timeout fails. -/
theorem buffers_contained (callbacks : WindowCallbacks σ) (addr : UInt8) {len : UInt16}
    (length : PduLength len) (pdu : Vector UInt8 (253 + k)) (frame : Vector UInt8 260)
    (memory : Vector UInt8 256) (deviceAddr : UInt8) (fd : Int) (heap : Vector UInt8 768)
    (store : σ) (events : List RtuEvent) :
    Contained pdu (modbusRtuHandlerRequestRx callbacks.ctx addr len (firstPdu pdu) (some store))
        (modbusRtuHandlerRequestRx callbacks.ctx addr len pdu (some store)) ∧
      MbapReplyFits frame
        (modbusRtuHandlerRequestRx callbacks.ctx addr len (pduArea frame) (some store)) ∧
      Run.Along (rtuStep callbacks.ctx) (RtuConfined callbacks.ctx)
        (modbusRtuSlaveInit memory deviceAddr fd heap (some store)) events ∧
      ∀ slave, events.foldlM (rtuStep callbacks.ctx)
          (modbusRtuSlaveInit memory deviceAddr fd heap (some store)) = some slave →
        slave.store.isSome ∧
          ∀ kernel, ∃ next, rtuStep callbacks.ctx slave (.t35 kernel) = some next := by
  have start : RtuUnharmed deviceAddr
      (modbusRtuSlaveInit memory deviceAddr fd heap (some store)) :=
    ⟨rtuInit_sound memory deviceAddr fd heap (some store), rfl⟩
  refine ⟨requestRx_contained callbacks addr length pdu store,
    mbapReply_fits frame (requestRx_rspLen callbacks.ctx addr length _ _), ?_, ?_⟩
  · exact Run.along_of_invariant (rtuStep_unharmed callbacks) (rtuStep_confined callbacks)
      events start
  · intro slave run
    have unharmed := Run.invariant (rtuStep_unharmed callbacks) start run
    refine ⟨unharmed.registers, fun kernel => ?_⟩
    rcases t35_spec callbacks.ctx kernel unharmed.sound with ⟨next, expired, -⟩
    exact ⟨next, expired⟩

def lastWritten : WindowCallbacks (List UInt8) where
  access _ mode _ _ _ window store :=
    match mode with
    | .read => (.enoerr, window.map fun _ => 0, store)
    | .write => (.enoerr, window, window)
  keeps _ mode _ _ _ window _ := by cases mode <;> simp

def widestWrite : Vector UInt8 (253 + 2) :=
  blit (.replicate 255 0) 0 [16, 0, 0, 0, 120, 240]

def writeAndExpire : List RtuEvent := [.rx writeRequest, .t35 acceptAll]

theorem buffers_contained_widest :
    Contained widestWrite
        (modbusRtuHandlerRequestRx lastWritten.ctx 1 246 (firstPdu widestWrite) (some []))
        (modbusRtuHandlerRequestRx lastWritten.ctx 1 246 widestWrite (some [])) ∧
      Run.Along (rtuStep lastWritten.ctx) (RtuConfined lastWritten.ctx)
        (modbusRtuSlaveInit (.replicate 256 0) 1 5 (.replicate 768 0) (some []))
        writeAndExpire := by
  have length : PduLength 246 := ⟨by decide, by decide⟩
  rcases buffers_contained lastWritten 1 length widestWrite (.replicate 260 0) (.replicate 256 0)
    1 5 (.replicate 768 0) [] writeAndExpire with ⟨request, -, run, -⟩
  exact ⟨request, run⟩

end KongjaExpress.Modbus
