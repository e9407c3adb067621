import KongjaExpress.Modbus.ResponseLength

/-! Where the request handler reads and writes: on the first 253 bytes of its memory it
does what it does on all of it. -/

namespace KongjaExpress.Modbus

open BigEndian Memory

variable {σ : Type} {k : Nat}

/-- Callbacks that touch exactly the bytes of the count they are given: they see these
bytes and may replace each of them. -/
structure WindowCallbacks (σ : Type) where
  access : RegKind → MBRegisterMode → UInt8 → UInt16 → UInt16 → List UInt8 → σ →
    MBErrorCode × List UInt8 × σ
  keeps : ∀ kind mode addr usAddress usNRegs window store,
    (access kind mode addr usAddress usNRegs window store).2.1.length = window.length

/-- The registers are lost once a callback was handed less memory than its count takes. -/
def WindowCallbacks.ctx (callbacks : WindowCallbacks σ) : ModbusSlaveCTX (Option σ) where
  callback kind mode addr m buffer usAddress usNRegs registers :=
    match registers with
    | none => ⟨.enoerr, buffer, none⟩
    | some store =>
        if dataSize kind usNRegs ≤ m then
          let (status, window, store) := callbacks.access kind mode addr usAddress usNRegs
            (front buffer (dataSize kind usNRegs)) store
          ⟨status, blit buffer 0 window, some store⟩
        else ⟨.enoerr, buffer, none⟩

def firstPdu (pdu : Vector UInt8 (253 + k)) : Vector UInt8 (253 + 0) :=
  Vector.ofFn fun i => pdu[i.val]

/-- A handler on all of its memory, beside one that has the bytes of a PDU only: they
agree on these, no registers were lost, and the memory behind them is as it was. -/
structure Confined (whole : Vector UInt8 (253 + k)) (alone : Handling (Option σ) 0)
    (h : Handling (Option σ) k) : Prop where
  usLen : alone.usLen = h.usLen
  store : alone.store = h.store
  calls : alone.calls = h.calls
  registers : h.store.isSome
  inside : ∀ i (bound : i < 253), alone.pucFrame[i] = h.pucFrame[i]
  behind : ∀ i (bound : i < 253 + k), 253 ≤ i → h.pucFrame[i] = whole[i]

theorem requested_confined (len : UInt16) (pdu : Vector UInt8 (253 + k)) (store : σ) :
    Confined pdu (requested len (firstPdu pdu) (some store)) (requested len pdu (some store)) where
  usLen := rfl
  store := rfl
  calls := rfl
  registers := rfl
  inside i bound := by simp [requested, firstPdu]
  behind _ _ _ := rfl

section Invoke

variable (callbacks : WindowCallbacks σ) (kind : RegKind) (mode : MBRegisterMode)
  (addr : UInt8) (usAddress usNRegs : UInt16)

/-- What a callback gives back for the bytes from `offset` on. -/
def WindowCallbacks.answer (offset : Nat) (h : Handling (Option σ) k) (store : σ) :
    MBErrorCode × List UInt8 × σ :=
  callbacks.access kind mode addr usAddress usNRegs
    (front (h.pucFrame.drop offset) (dataSize kind usNRegs)) store

theorem invoke_window (offset : Nat) {h : Handling (Option σ) k} {store : σ}
    (registers : h.store = some store) (fits : offset + dataSize kind usNRegs ≤ 253 + k) :
    invoke callbacks.ctx kind mode addr offset usAddress usNRegs h =
      let answer := callbacks.answer kind mode addr usAddress usNRegs offset h store
      (answer.1,
        { h with
          pucFrame := blit h.pucFrame offset answer.2.1
          store := some answer.2.2
          calls := h.calls ++ [⟨kind, mode, addr, usAddress, usNRegs,
            writtenData kind mode usNRegs (h.pucFrame.drop offset), answer.1⟩] }) := by
  have room : dataSize kind usNRegs ≤ 253 + k - offset := by omega
  simp only [invoke, invokeOn, WindowCallbacks.ctx, registers, if_pos room, overlay_blit]
  rfl

variable {whole : Vector UInt8 (253 + k)} {alone : Handling (Option σ) 0}
  {h : Handling (Option σ) k}

theorem window_confined {offset size : Nat} (confined : Confined whole alone h)
    (fits : offset + size ≤ 253) :
    front (alone.pucFrame.drop offset) size = front (h.pucFrame.drop offset) size := by
  apply front_ext (by omega) (by omega)
  intro i inside
  rw [Vector.getElem_drop, Vector.getElem_drop]
  exact confined.inside (offset + i) (by omega)

theorem invoke_confined {offset : Nat} (confined : Confined whole alone h)
    (fits : offset + dataSize kind usNRegs ≤ 253) :
    (invoke callbacks.ctx kind mode addr offset usAddress usNRegs alone).1 =
        (invoke callbacks.ctx kind mode addr offset usAddress usNRegs h).1 ∧
      Confined whole (invoke callbacks.ctx kind mode addr offset usAddress usNRegs alone).2
        (invoke callbacks.ctx kind mode addr offset usAddress usNRegs h).2 := by
  rcases Option.isSome_iff_exists.mp confined.registers with ⟨store, registers⟩
  have window := window_confined confined fits
  have answer : callbacks.answer kind mode addr usAddress usNRegs offset alone store =
      callbacks.answer kind mode addr usAddress usNRegs offset h store := by
    rw [WindowCallbacks.answer, WindowCallbacks.answer, window]
  have written : writtenData kind mode usNRegs (alone.pucFrame.drop offset) =
      writtenData kind mode usNRegs (h.pucFrame.drop offset) := by
    cases mode with
    | read => rfl
    | write => exact window
  have length : (callbacks.answer kind mode addr usAddress usNRegs offset h store).2.1.length =
      dataSize kind usNRegs :=
    (callbacks.keeps _ _ _ _ _ _ _).trans (front_length _ (by omega))
  rw [invoke_window callbacks kind mode addr usAddress usNRegs offset
      (confined.store.trans registers) (by omega),
    invoke_window callbacks kind mode addr usAddress usNRegs offset registers (by omega),
    answer, written]
  refine ⟨rfl, confined.usLen, rfl, congrArg (· ++ _) confined.calls, rfl, ?_, ?_⟩
  · intro i bound
    simp only [getElem_blit, confined.inside i bound]
  · intro i bound outside
    simp only
    rw [getElem_blit_outside _ _ _ _ _ (Or.inr (by omega))]
    exact confined.behind i bound outside

theorem invokeOn_confined {m : Nat} (buffer : Vector UInt8 m) (confined : Confined whole alone h)
    (fits : dataSize kind usNRegs ≤ m) :
    (invokeOn callbacks.ctx kind mode addr buffer usAddress usNRegs alone).1 =
        (invokeOn callbacks.ctx kind mode addr buffer usAddress usNRegs h).1 ∧
      Confined whole (invokeOn callbacks.ctx kind mode addr buffer usAddress usNRegs alone).2
        (invokeOn callbacks.ctx kind mode addr buffer usAddress usNRegs h).2 := by
  rcases Option.isSome_iff_exists.mp confined.registers with ⟨store, registers⟩
  have called {l : Nat} {h : Handling (Option σ) l} (registers : h.store = some store) :
      invokeOn callbacks.ctx kind mode addr buffer usAddress usNRegs h =
        let answer := callbacks.access kind mode addr usAddress usNRegs
          (front buffer (dataSize kind usNRegs)) store
        (answer.1,
          { h with
            store := some answer.2.2
            calls := h.calls ++ [⟨kind, mode, addr, usAddress, usNRegs,
              writtenData kind mode usNRegs buffer, answer.1⟩] }) := by
    simp only [invokeOn, WindowCallbacks.ctx, registers, if_pos fits]
  rw [called registers, called (confined.store.trans registers)]
  exact ⟨rfl, confined.usLen, rfl, congrArg (· ++ _) confined.calls, rfl, confined.inside,
    confined.behind⟩

end Invoke

def ConfinedOutcome (whole : Vector UInt8 (253 + k)) (alone : MBException × Handling (Option σ) 0)
    (r : MBException × Handling (Option σ) k) : Prop :=
  alone.1 = r.1 ∧ Confined whole alone.2 r.2

section Handlers

variable (callbacks : WindowCallbacks σ) (addr : UInt8) {whole : Vector UInt8 (253 + k)}
  {alone : Handling (Option σ) 0} {h : Handling (Option σ) k}

theorem conclude_confined (status : MBErrorCode) {failed answered : Handling (Option σ) 0}
    {failed' answered' : Handling (Option σ) k} (failures : Confined whole failed failed')
    (answers : Confined whole answered answered') :
    ConfinedOutcome whole (conclude status failed answered)
      (conclude status failed' answered') := by
  unfold conclude
  split
  · exact ⟨rfl, failures⟩
  · exact ⟨rfl, answers⟩

theorem set_confined (confined : Confined whole alone h) {index : Nat} (bound : index < 253)
    (value : UInt8) :
    Confined whole { alone with pucFrame := alone.pucFrame.set index value }
      { h with pucFrame := h.pucFrame.set index value } := by
  refine ⟨confined.usLen, confined.store, confined.calls, confined.registers, ?_, ?_⟩
  · intro i inside
    simp only [Vector.getElem_set, confined.inside i inside]
  · intro i inside outside
    simp only
    rw [Vector.getElem_set_ne _ _ (by omega)]
    exact confined.behind i inside outside

theorem startReply_confined (code byteCount : UInt8) (confined : Confined whole alone h) :
    Confined whole (startReply code byteCount alone) (startReply code byteCount h) := by
  have first := set_confined confined (show 0 < 253 by omega) code
  have second := set_confined first (show 1 < 253 by omega) byteCount
  exact ⟨rfl, second.store, second.calls, second.registers, second.inside, second.behind⟩

theorem answerRead_confined (kind : RegKind) (code byteCount : UInt8)
    (growth usRegAddress usCount : UInt16) (fits : dataSize kind usCount ≤ 250)
    (confined : Confined whole alone h) :
    ConfinedOutcome whole
      (answerRead callbacks.ctx kind code byteCount growth addr usRegAddress usCount alone)
      (answerRead callbacks.ctx kind code byteCount growth addr usRegAddress usCount h) := by
  have started := startReply_confined code byteCount confined
  rcases invoke_confined callbacks kind .read addr usRegAddress usCount started
    (show 2 + dataSize kind usCount ≤ 253 by omega) with ⟨status, after⟩
  unfold answerRead
  dsimp only
  rw [status]
  exact conclude_confined _ after
    ⟨congrArg (· + growth) after.usLen, after.store, after.calls, after.registers, after.inside,
      after.behind⟩

theorem Confined.common (confined : Confined whole alone h) :
    CommonRequest h.usLen h.pucFrame alone.pucFrame :=
  fun i inside _ _ => confined.inside i inside

theorem readHandler_confined (f : ReadFunction) (confined : Confined whole alone h) :
    ConfinedOutcome whole (readHandler f callbacks.ctx addr alone)
      (readHandler f callbacks.ctx addr h) := by
  have request := confined.common
  have same : f.Called alone.usLen alone.pucFrame ↔ f.Called h.usLen h.pucFrame := by
    rw [confined.usLen]
    exact request.readCalled f
  by_cases called : f.Called h.usLen h.pucFrame
  · have five : 5 ≤ h.usLen.toNat := called.1 ▸ by decide
    have address : word1 alone.pucFrame = word1 h.pucFrame :=
      request.wordAt (by omega) five (by omega)
    have high : byte3 alone.pucFrame = byte3 h.pucFrame := request.byteAt (by omega) five (by omega)
    have low : byte4 alone.pucFrame = byte4 h.pucFrame := request.byteAt (by omega) five (by omega)
    rw [readHandler_called callbacks.ctx addr (same.mpr called),
      readHandler_called callbacks.ctx addr called, address, high, low]
    exact answerRead_confined callbacks addr _ _ _ _ _ _ (f.fits _ called.2).2.2 confined
  · rw [readHandler_refused callbacks.ctx addr (mt same.mp called),
      readHandler_refused callbacks.ctx addr called]
    exact ⟨rfl, confined⟩

theorem writeHandler_confined (f : WriteFunction) (confined : Confined whole alone h) :
    ConfinedOutcome whole (writeHandler f callbacks.ctx addr alone)
      (writeHandler f callbacks.ctx addr h) := by
  have request := confined.common
  have same : f.Called alone.usLen alone.pucFrame ↔ f.Called h.usLen h.pucFrame := by
    rw [confined.usLen]
    exact request.writeCalled f
  by_cases called : f.Called h.usLen h.pucFrame
  · have six := (f.long_iff _).mp called.1
    have address : word1 alone.pucFrame = word1 h.pucFrame :=
      request.wordAt (by omega) six (by omega)
    have count : word3 alone.pucFrame = word3 h.pucFrame :=
      request.wordAt (by omega) six (by omega)
    -- the data of an accepted request ends in front of byte 252
    have window : 6 + dataSize f.kind (word3 h.pucFrame) ≤ 253 := by
      have small := (f.fits (word3 h.pucFrame) called.2.2.1).2
      omega
    rcases invoke_confined callbacks f.kind .write addr (word1 h.pucFrame) (word3 h.pucFrame)
      confined window with ⟨status, after⟩
    rw [writeHandler_called callbacks.ctx addr (same.mpr called),
      writeHandler_called callbacks.ctx addr called, address, count, status]
    exact conclude_confined _ after
      ⟨rfl, after.store, after.calls, after.registers, after.inside, after.behind⟩
  · rw [writeHandler_refused callbacks.ctx addr (mt same.mp called),
      writeHandler_refused callbacks.ctx addr called]
    exact ⟨rfl, confined⟩

theorem writeHoldingRegister_confined (confined : Confined whole alone h) :
    ConfinedOutcome whole (modbusFuncHandlerWriteHoldingRegister callbacks.ctx addr alone)
      (modbusFuncHandlerWriteHoldingRegister callbacks.ctx addr h) := by
  unfold modbusFuncHandlerWriteHoldingRegister
  rw [confined.usLen, confined.inside 1 (by omega), confined.inside 2 (by omega)]
  dsimp only
  split
  · rcases invoke_confined callbacks .holding .write addr (word h.pucFrame[1] h.pucFrame[2]) 1
      confined (show 3 + dataSize .holding 1 ≤ 253 by decide) with ⟨status, after⟩
    rw [status]
    exact conclude_confined _ after after
  · exact ⟨rfl, confined⟩

theorem writeCoil_confined (confined : Confined whole alone h) :
    ConfinedOutcome whole (modbusFuncHandlerWriteCoil callbacks.ctx addr alone)
      (modbusFuncHandlerWriteCoil callbacks.ctx addr h) := by
  have request := confined.common
  have same : CoilCalled alone.usLen alone.pucFrame ↔ CoilCalled h.usLen h.pucFrame := by
    rw [confined.usLen]
    exact request.coilCalled
  by_cases called : CoilCalled h.usLen h.pucFrame
  · have five : 5 ≤ h.usLen.toNat := called.1 ▸ by decide
    have address : word1 alone.pucFrame = word1 h.pucFrame :=
      request.wordAt (by omega) five (by omega)
    have value : byte3 alone.pucFrame = byte3 h.pucFrame :=
      request.byteAt (by omega) five (by omega)
    -- one coil takes the first of the two bytes of `ucBuf`
    rcases invokeOn_confined callbacks .coil .write addr (word1 h.pucFrame) 1
      #v[if byte3 h.pucFrame = 0xFF then 1 else 0, 0] confined
      (show dataSize .coil 1 ≤ 2 by decide) with ⟨status, after⟩
    rw [writeCoil_called callbacks.ctx addr (same.mpr called),
      writeCoil_called callbacks.ctx addr called, address, value, status]
    exact conclude_confined _ after after
  · rw [writeCoil_refused callbacks.ctx addr (mt same.mp called),
      writeCoil_refused callbacks.ctx addr called]
    exact ⟨rfl, confined⟩

theorem readWrite_confined (confined : Confined whole alone h) :
    ConfinedOutcome whole
      (modbusFuncHandlerReadWriteMultipleHoldingRegisters callbacks.ctx addr alone)
      (modbusFuncHandlerReadWriteMultipleHoldingRegisters callbacks.ctx addr h) := by
  have request := confined.common
  by_cases long : h.usLen ≥ 10
  · have long' : alone.usLen ≥ 10 := by rwa [confined.usLen]
    have same := request.readWriteAccepts long
    by_cases accepts : ReadWriteAccepts h.pucFrame
    · have ten : 10 ≤ h.usLen.toNat := UInt16.le_iff_toNat_le.mp long
      have readAddress : word1 alone.pucFrame = word1 h.pucFrame :=
        request.wordAt (by omega) ten (by omega)
      have readCount : word3 alone.pucFrame = word3 h.pucFrame :=
        request.wordAt (by omega) ten (by omega)
      have writeAddress : word5 alone.pucFrame = word5 h.pucFrame :=
        request.wordAt (by omega) ten (by omega)
      have writeCount : word7 alone.pucFrame = word7 h.pucFrame :=
        request.wordAt (by omega) ten (by omega)
      have toRead : (word3 h.pucFrame).toNat ≤ 125 := UInt16.le_iff_toNat_le.mp accepts.2.1
      have toWrite : (word7 h.pucFrame).toNat ≤ 121 :=
        UInt16.le_iff_toNat_le.mp accepts.2.2.2.1
      rcases invoke_confined callbacks .holding .write addr (word5 h.pucFrame) (word7 h.pucFrame)
        confined (show 10 + 2 * (word7 h.pucFrame).toNat ≤ 253 by omega) with ⟨status, after⟩
      rw [readWrite_called callbacks.ctx addr long' (same.mpr accepts),
        readWrite_called callbacks.ctx addr long accepts, readAddress, readCount, writeAddress,
        writeCount, status]
      split
      · exact answerRead_confined callbacks addr .holding _ _ _ _ _
          (show 2 * (word3 h.pucFrame).toNat ≤ 250 by omega) after
      · exact ⟨rfl, after⟩
    · rw [readWrite_refused callbacks.ctx addr long' (mt same.mp accepts),
        readWrite_refused callbacks.ctx addr long accepts]
      exact ⟨rfl, confined⟩
  · have short : ¬ alone.usLen ≥ 10 := by rwa [confined.usLen]
    rw [readWrite_short callbacks.ctx addr short, readWrite_short callbacks.ctx addr long]
    exact ⟨rfl, confined⟩

theorem dispatch_confined (func : UInt8) (confined : Confined whole alone h) :
    ConfinedOutcome whole (requestDispatch func callbacks.ctx addr alone)
      (requestDispatch func callbacks.ctx addr h) := by
  unfold requestDispatch
  split
  · exact readHandler_confined callbacks addr _ confined
  · exact readHandler_confined callbacks addr _ confined
  · exact writeHandler_confined callbacks addr _ confined
  · exact writeHoldingRegister_confined callbacks addr confined
  · exact readWrite_confined callbacks addr confined
  · exact readHandler_confined callbacks addr _ confined
  · exact writeCoil_confined callbacks addr confined
  · exact writeHandler_confined callbacks addr _ confined
  · exact readHandler_confined callbacks addr _ confined
  · exact ⟨rfl, confined⟩

end Handlers

/-- A request handled on all of the memory, beside the same request on the bytes of a PDU
alone. There every callback is handed memory for its count, and all of the memory neither
adds to the response nor changes behind these bytes. -/
structure Contained (pdu : Vector UInt8 (253 + k)) (alone : RequestResult (Option σ) 0)
    (r : RequestResult (Option σ) k) : Prop where
  registers : alone.store.isSome
  ok : r.ok = alone.ok
  rspLen : r.rspLen = alone.rspLen
  store : r.store = alone.store
  calls : r.calls = alone.calls
  inside : ∀ i (bound : i < 253), r.pdu[i] = alone.pdu[i]
  behind : ∀ i (bound : i < 253 + k), 253 ≤ i → r.pdu[i] = pdu[i]
  length : PduLength r.rspLen

theorem requestFinish_confined (func : UInt8) {whole : Vector UInt8 (253 + k)}
    {alone : MBException × Handling (Option σ) 0} {r : MBException × Handling (Option σ) k}
    (outcome : ConfinedOutcome whole alone r) (length : PduLength (requestFinish func r).rspLen) :
    Contained whole (requestFinish func alone) (requestFinish func r) := by
  rcases outcome with ⟨exception, confined⟩
  by_cases good : r.1 = .none
  · have none : ¬ r.1 ≠ .none := not_not.mpr good
    simp only [requestFinish, exception, if_neg none] at length ⊢
    exact ⟨confined.store ▸ confined.registers, rfl, confined.usLen.symm, confined.store.symm,
      confined.calls.symm, fun i bound => (confined.inside i bound).symm, confined.behind, length⟩
  · have first := set_confined confined (show 0 < 253 by omega) (func ||| 0x80)
    have second := set_confined first (show 1 < 253 by omega) r.1.code
    have failed : alone.1 ≠ .none := exception ▸ good
    rw [requestFinish_exception good] at length
    rw [requestFinish_exception good, requestFinish_exception failed, exception]
    exact ⟨confined.store ▸ confined.registers, rfl, rfl, confined.store.symm,
      confined.calls.symm, fun i bound => (second.inside i bound).symm, second.behind, length⟩

theorem requestRx_contained (callbacks : WindowCallbacks σ) (addr : UInt8) {len : UInt16}
    (length : PduLength len) (pdu : Vector UInt8 (253 + k)) (store : σ) :
    Contained pdu (modbusRtuHandlerRequestRx callbacks.ctx addr len (firstPdu pdu) (some store))
      (modbusRtuHandlerRequestRx callbacks.ctx addr len pdu (some store)) := by
  have start := requested_confined len pdu store
  have func : byte0 (firstPdu pdu) = byte0 pdu := start.inside 0 (by omega)
  have answered := requestRx_rspLen callbacks.ctx addr length pdu (some store)
  unfold modbusRtuHandlerRequestRx at answered ⊢
  dsimp only at answered ⊢
  rw [func]
  exact requestFinish_confined _ (dispatch_confined callbacks addr _ start) answered

end KongjaExpress.Modbus
