import KongjaExpress.Modbus.RequestGrammar
import KongjaExpress.Modbus.ResponseLength

/-! Two runs of the request handler on memory that agrees in front: how far its
results depend on what lies behind the request. -/

namespace KongjaExpress.Modbus

open BigEndian Memory

variable {σ : Type} {k : Nat}

/-- Callbacks that are functions of the registers, their arguments and exactly the data
they are asked to write, and that fill exactly the bytes they are asked to read. -/
structure PureCallbacks (σ : Type) where
  write : RegKind → UInt8 → UInt16 → UInt16 → List UInt8 → σ → MBErrorCode × σ
  read : RegKind → UInt8 → UInt16 → UInt16 → σ → MBErrorCode × List UInt8 × σ
  fills : ∀ kind addr usAddress usNRegs store,
    (read kind addr usAddress usNRegs store).1 = .enoerr →
      (read kind addr usAddress usNRegs store).2.1.length = dataSize kind usNRegs

def PureCallbacks.ctx (callbacks : PureCallbacks σ) : ModbusSlaveCTX σ where
  callback kind mode addr _ buffer usAddress usNRegs store :=
    match mode with
    | .read =>
        let (status, data, store) := callbacks.read kind addr usAddress usNRegs store
        ⟨status, blit buffer 0 data, store⟩
    | .write =>
        let (status, store) :=
          callbacks.write kind addr usAddress usNRegs (front buffer (dataSize kind usNRegs)) store
        ⟨status, buffer, store⟩

structure Alike (h h' : Handling σ k) : Prop where
  usLen : h.usLen = h'.usLen
  store : h.store = h'.store
  calls : h.calls = h'.calls

structure SameOutcome (r r' : MBException × Handling σ k) : Prop where
  exception : r.1 = r'.1
  alike : Alike r.2 r'.2
  response : r.1 = .none → AgreeBelow r.2.usLen.toNat r.2.pucFrame r'.2.pucFrame

theorem sameOutcome_refusal {exception : MBException} (refused : exception ≠ .none)
    {h h' : Handling σ k} (alike : Alike h h') :
    SameOutcome (exception, h) (exception, h') where
  exception := rfl
  alike := alike
  response none := absurd none refused

theorem invokeOn_alike {n : Nat} (ctx : ModbusSlaveCTX σ) (kind : RegKind)
    (mode : MBRegisterMode) (addr : UInt8) (buffer : Vector UInt8 n)
    (usAddress usNRegs : UInt16) {h h' : Handling σ k} (alike : Alike h h') :
    (invokeOn ctx kind mode addr buffer usAddress usNRegs h).1 =
        (invokeOn ctx kind mode addr buffer usAddress usNRegs h').1 ∧
      Alike (invokeOn ctx kind mode addr buffer usAddress usNRegs h).2
        (invokeOn ctx kind mode addr buffer usAddress usNRegs h').2 := by
  refine ⟨?_, alike.usLen, ?_, ?_⟩ <;> simp only [invokeOn, alike.store, alike.calls]

section Invoke

variable (callbacks : PureCallbacks σ) (kind : RegKind) (addr : UInt8) (usAddress usNRegs : UInt16)
  {h h' : Handling σ k} {m : Nat}

theorem invoke_write_alike {offset : Nat} (alike : Alike h h')
    (agree : AgreeBelow m h.pucFrame h'.pucFrame)
    (within : offset + dataSize kind usNRegs ≤ m) :
    (invoke callbacks.ctx kind .write addr offset usAddress usNRegs h).1 =
        (invoke callbacks.ctx kind .write addr offset usAddress usNRegs h').1 ∧
      Alike (invoke callbacks.ctx kind .write addr offset usAddress usNRegs h).2
        (invoke callbacks.ctx kind .write addr offset usAddress usNRegs h').2 ∧
      AgreeBelow m (invoke callbacks.ctx kind .write addr offset usAddress usNRegs h).2.pucFrame
        (invoke callbacks.ctx kind .write addr offset usAddress usNRegs h').2.pucFrame := by
  have data : front (h.pucFrame.drop offset) (dataSize kind usNRegs) =
      front (h'.pucFrame.drop offset) (dataSize kind usNRegs) :=
    ((agree.drop offset).mono (by omega)).front_eq
  refine ⟨?_, ⟨alike.usLen, ?_, ?_⟩, ?_⟩
  · simp only [invoke, invokeOn, PureCallbacks.ctx, data, alike.store]
  · simp only [invoke, invokeOn, PureCallbacks.ctx, data, alike.store]
  · simp only [invoke, invokeOn, PureCallbacks.ctx, writtenData, data, alike.store, alike.calls]
  · have tails := (agree.mono (show offset ≤ m by omega)).overlay (agree.drop offset)
    exact tails.mono (by omega)

theorem invoke_read_alike {offset : Nat} (alike : Alike h h')
    (agree : AgreeBelow offset h.pucFrame h'.pucFrame) :
    (invoke callbacks.ctx kind .read addr offset usAddress usNRegs h).1 =
        (invoke callbacks.ctx kind .read addr offset usAddress usNRegs h').1 ∧
      Alike (invoke callbacks.ctx kind .read addr offset usAddress usNRegs h).2
        (invoke callbacks.ctx kind .read addr offset usAddress usNRegs h').2 ∧
      ((invoke callbacks.ctx kind .read addr offset usAddress usNRegs h).1 = .enoerr →
        AgreeBelow (offset + dataSize kind usNRegs)
          (invoke callbacks.ctx kind .read addr offset usAddress usNRegs h).2.pucFrame
          (invoke callbacks.ctx kind .read addr offset usAddress usNRegs h').2.pucFrame) := by
  refine ⟨?_, ⟨alike.usLen, ?_, ?_⟩, fun good => ?_⟩
  · simp only [invoke, invokeOn, PureCallbacks.ctx, alike.store]
  · simp only [invoke, invokeOn, PureCallbacks.ctx, alike.store]
  · simp only [invoke, invokeOn, PureCallbacks.ctx, writtenData, alike.store, alike.calls]
  · have filled := callbacks.fills kind addr usAddress usNRegs h.store good
    simp only [invoke, PureCallbacks.ctx, ← alike.store]
    refine agree.overlay ?_
    have copied := (AgreeBelow.drop (m := 0) (fun _ _ none => by omega) offset :
      AgreeBelow (0 - offset) (h.pucFrame.drop offset) (h'.pucFrame.drop offset)).blit
        (Nat.zero_le _) (callbacks.read kind addr usAddress usNRegs h.store).2.1
    rw [filled] at copied
    exact copied.mono (by omega)

end Invoke

theorem conclude_same {status : MBErrorCode} {failed failed' answered answered' : Handling σ k}
    (failures : Alike failed failed') (answers : Alike answered answered')
    (response : status = .enoerr →
      AgreeBelow answered.usLen.toNat answered.pucFrame answered'.pucFrame) :
    SameOutcome (conclude status failed answered) (conclude status failed' answered') := by
  unfold conclude
  split
  · rename_i error
    exact sameOutcome_refusal (fun none => error (prveMBError2Exception_none_iff.mp none)) failures
  · rename_i good
    exact ⟨rfl, answers, fun _ => response (not_not.mp good)⟩

theorem startReply_agree (code byteCount : UInt8) (h h' : Handling σ k) :
    AgreeBelow 2 (startReply code byteCount h).pucFrame
      (startReply code byteCount h').pucFrame := by
  have none : AgreeBelow 0 h.pucFrame h'.pucFrame := fun _ _ below => by omega
  exact (none.set_succ (by omega) code).set_succ (by omega) byteCount

section Handlers

variable (callbacks : PureCallbacks σ) (addr : UInt8) {h h' : Handling σ k} {m : Nat}

theorem answerRead_same (kind : RegKind) (code byteCount : UInt8)
    (growth usRegAddress usCount : UInt16) (size : growth.toNat = dataSize kind usCount)
    (bound : growth.toNat ≤ 250) (alike : Alike h h') :
    SameOutcome
      (answerRead callbacks.ctx kind code byteCount growth addr usRegAddress usCount h)
      (answerRead callbacks.ctx kind code byteCount growth addr usRegAddress usCount h') := by
  have started : Alike (startReply code byteCount h) (startReply code byteCount h') :=
    ⟨rfl, alike.store, alike.calls⟩
  rcases invoke_read_alike callbacks kind addr usRegAddress usCount started
    (startReply_agree code byteCount h h') with ⟨status, after, filled⟩
  have sum : (2 + growth).toNat = 2 + dataSize kind usCount := by
    rw [UInt16.toNat_add, ← size]
    exact Nat.mod_eq_of_lt (by simp; omega)
  unfold answerRead
  dsimp only
  rw [← status]
  refine conclude_same after ⟨congrArg (· + growth) after.usLen, after.store, after.calls⟩ ?_
  intro good
  exact sum ▸ filled good

theorem common_of_agree (agree : AgreeBelow m h.pucFrame h'.pucFrame) (covers : h.usLen.toNat ≤ m) :
    CommonRequest h.usLen h.pucFrame h'.pucFrame :=
  fun i inside _ below => (agree i inside (by omega)).symm

theorem readHandler_same (f : ReadFunction) (alike : Alike h h')
    (agree : AgreeBelow m h.pucFrame h'.pucFrame) (covers : h.usLen.toNat ≤ m) :
    SameOutcome (readHandler f callbacks.ctx addr h) (readHandler f callbacks.ctx addr h') := by
  have request := common_of_agree agree covers
  have same : f.Called h'.usLen h'.pucFrame ↔ f.Called h.usLen h.pucFrame := by
    rw [← alike.usLen]
    exact request.readCalled f
  by_cases called : f.Called h.usLen h.pucFrame
  · have five : 5 ≤ h.usLen.toNat := called.1 ▸ by decide
    have address : word1 h'.pucFrame = word1 h.pucFrame := request.wordAt (by omega) five (by omega)
    have high : byte3 h'.pucFrame = byte3 h.pucFrame := request.byteAt (by omega) five (by omega)
    have low : byte4 h'.pucFrame = byte4 h.pucFrame := request.byteAt (by omega) five (by omega)
    have fits := f.fits _ called.2
    rw [readHandler_called callbacks.ctx addr called,
      readHandler_called callbacks.ctx addr (same.mpr called), address, high, low]
    exact answerRead_same callbacks addr _ _ _ _ _ _ fits.2.1 (by omega) alike
  · rw [readHandler_refused callbacks.ctx addr called,
      readHandler_refused callbacks.ctx addr (mt same.mp called)]
    exact sameOutcome_refusal (by simp) alike

theorem writeHandler_same (f : WriteFunction) (alike : Alike h h')
    (agree : AgreeBelow m h.pucFrame h'.pucFrame) (covers : h.usLen.toNat ≤ m)
    (data : f.long h.usLen = true → f.Accepts h.pucFrame →
      6 + dataSize f.kind (word3 h.pucFrame) ≤ m) :
    SameOutcome (writeHandler f callbacks.ctx addr h) (writeHandler f callbacks.ctx addr h') := by
  have request := common_of_agree agree covers
  have same : f.Called h'.usLen h'.pucFrame ↔ f.Called h.usLen h.pucFrame := by
    rw [← alike.usLen]
    exact request.writeCalled f
  by_cases called : f.Called h.usLen h.pucFrame
  · have six := (f.long_iff _).mp called.1
    have address : word1 h'.pucFrame = word1 h.pucFrame := request.wordAt (by omega) six (by omega)
    have count : word3 h'.pucFrame = word3 h.pucFrame := request.wordAt (by omega) six (by omega)
    rcases invoke_write_alike callbacks f.kind addr (word1 h.pucFrame) (word3 h.pucFrame) alike
      agree (data called.1 called.2) with ⟨status, after, kept⟩
    rw [writeHandler_called callbacks.ctx addr called,
      writeHandler_called callbacks.ctx addr (same.mpr called), address, count, ← status]
    exact conclude_same after ⟨rfl, after.store, after.calls⟩
      fun _ => kept.mono (show 5 ≤ m by omega)
  · rw [writeHandler_refused callbacks.ctx addr called,
      writeHandler_refused callbacks.ctx addr (mt same.mp called)]
    exact sameOutcome_refusal (by simp) alike

theorem writeHoldingRegister_same (alike : Alike h h')
    (agree : AgreeBelow m h.pucFrame h'.pucFrame) (covers : h.usLen.toNat ≤ m) :
    SameOutcome (modbusFuncHandlerWriteHoldingRegister callbacks.ctx addr h)
      (modbusFuncHandlerWriteHoldingRegister callbacks.ctx addr h') := by
  unfold modbusFuncHandlerWriteHoldingRegister
  rw [← alike.usLen]
  by_cases size : h.usLen = 5
  · have five : 5 ≤ m := by rwa [size] at covers
    rw [if_pos size, if_pos size]
    dsimp only
    rw [← agree 1 (by omega) (by omega), ← agree 2 (by omega) (by omega)]
    have within : 3 + dataSize .holding 1 ≤ m := five
    rcases invoke_write_alike callbacks .holding addr (word1 h.pucFrame) 1 alike
      agree within with ⟨status, after, kept⟩
    rw [← status]
    exact conclude_same after after fun _ => kept.mono covers
  · rw [if_neg size, if_neg size]
    exact sameOutcome_refusal (by simp) alike

theorem writeCoil_same (alike : Alike h h') (agree : AgreeBelow m h.pucFrame h'.pucFrame)
    (covers : h.usLen.toNat ≤ m) :
    SameOutcome (modbusFuncHandlerWriteCoil callbacks.ctx addr h)
      (modbusFuncHandlerWriteCoil callbacks.ctx addr h') := by
  have request := common_of_agree agree covers
  have same : CoilCalled h'.usLen h'.pucFrame ↔ CoilCalled h.usLen h.pucFrame := by
    rw [← alike.usLen]
    exact request.coilCalled
  by_cases called : CoilCalled h.usLen h.pucFrame
  · have five : 5 ≤ h.usLen.toNat := called.1 ▸ by decide
    have address : word1 h'.pucFrame = word1 h.pucFrame := request.wordAt (by omega) five (by omega)
    have value : byte3 h'.pucFrame = byte3 h.pucFrame := request.byteAt (by omega) five (by omega)
    rcases invokeOn_alike callbacks.ctx .coil .write addr
      #v[if byte3 h.pucFrame = 0xFF then 1 else 0, 0] (word1 h.pucFrame) 1 alike
      with ⟨status, after⟩
    rw [writeCoil_called callbacks.ctx addr called,
      writeCoil_called callbacks.ctx addr (same.mpr called), address, value, ← status]
    -- the callback works on `ucBuf`, and the response is the request
    exact conclude_same after after fun _ => agree.mono covers
  · rw [writeCoil_refused callbacks.ctx addr called,
      writeCoil_refused callbacks.ctx addr (mt same.mp called)]
    exact sameOutcome_refusal (by simp) alike

theorem readWrite_same (alike : Alike h h') (agree : AgreeBelow m h.pucFrame h'.pucFrame)
    (covers : h.usLen.toNat ≤ m)
    (data : h.usLen ≥ 10 → ReadWriteAccepts h.pucFrame →
      10 + dataSize .holding (word7 h.pucFrame) ≤ m) :
    SameOutcome (modbusFuncHandlerReadWriteMultipleHoldingRegisters callbacks.ctx addr h)
      (modbusFuncHandlerReadWriteMultipleHoldingRegisters callbacks.ctx addr h') := by
  have request := common_of_agree agree covers
  by_cases long : h.usLen ≥ 10
  · have long' : h'.usLen ≥ 10 := by rwa [← alike.usLen]
    have same := request.readWriteAccepts long
    by_cases accepts : ReadWriteAccepts h.pucFrame
    · have ten : 10 ≤ h.usLen.toNat := UInt16.le_iff_toNat_le.mp long
      have readAddress : word1 h'.pucFrame = word1 h.pucFrame :=
        request.wordAt (by omega) ten (by omega)
      have readCount : word3 h'.pucFrame = word3 h.pucFrame :=
        request.wordAt (by omega) ten (by omega)
      have writeAddress : word5 h'.pucFrame = word5 h.pucFrame :=
        request.wordAt (by omega) ten (by omega)
      have writeCount : word7 h'.pucFrame = word7 h.pucFrame :=
        request.wordAt (by omega) ten (by omega)
      rcases invoke_write_alike callbacks .holding addr (word5 h.pucFrame) (word7 h.pucFrame)
        alike agree (data long accepts) with ⟨status, after, -⟩
      rw [readWrite_called callbacks.ctx addr long accepts,
        readWrite_called callbacks.ctx addr long' (same.mpr accepts), readAddress, readCount,
        writeAddress, writeCount, ← status]
      split
      · have small : (word3 h.pucFrame).toNat ≤ 125 := UInt16.le_iff_toNat_le.mp accepts.2.1
        have size : ((2 : UInt16) * word3 h.pucFrame).toNat = 2 * (word3 h.pucFrame).toNat := by
          rw [UInt16.toNat_mul]
          simp
          omega
        exact answerRead_same callbacks addr .holding _ _ _ _ _ size (by omega) after
      · rename_i error
        exact sameOutcome_refusal
          (fun none => error (prveMBError2Exception_none_iff.mp none)) after
    · rw [readWrite_refused callbacks.ctx addr long accepts,
        readWrite_refused callbacks.ctx addr long' (mt same.mp accepts)]
      exact sameOutcome_refusal (by simp) alike
  · have short : ¬ h'.usLen ≥ 10 := by rwa [← alike.usLen]
    rw [readWrite_short callbacks.ctx addr long, readWrite_short callbacks.ctx addr short]
    exact ⟨rfl, alike, fun _ => agree.mono covers⟩

end Handlers

section Request

variable (callbacks : PureCallbacks σ) (addr : UInt8) (len : UInt16)
  {pdu pdu' : Vector UInt8 (253 + k)} (store : σ) {m : Nat}

theorem dispatch_same (agree : AgreeBelow m pdu pdu') (covers : len.toNat ≤ m)
    (data : HeaderAccepted len pdu → dataEnd pdu ≤ m) :
    SameOutcome (requestDispatch (byte0 pdu) callbacks.ctx addr (requested len pdu store))
      (requestDispatch (byte0 pdu) callbacks.ctx addr (requested len pdu' store)) := by
  have alike : Alike (requested len pdu store) (requested len pdu' store) := ⟨rfl, rfl, rfl⟩
  have write (f : WriteFunction)
      (ends : f.long len = true ∧ f.Accepts pdu →
        6 + dataSize f.kind (word3 pdu) ≤ m) :=
    writeHandler_same callbacks addr f alike agree covers fun long accepts => ends ⟨long, accepts⟩
  unfold requestDispatch
  split <;> rename_i code
  · exact readHandler_same callbacks addr _ alike agree covers
  · exact readHandler_same callbacks addr _ alike agree covers
  · refine write writeMultipleRegisters fun accepts => ?_
    rw [writeAccepts_iff] at accepts
    simp only [HeaderAccepted, dataEnd, code] at data
    rw [← accepts.2.2.2]
    exact data accepts
  · exact writeHoldingRegister_same callbacks addr alike agree covers
  · refine readWrite_same callbacks addr alike agree covers fun long accepts => ?_
    have counts := (readWriteAccepts_iff pdu).mp accepts
    simp only [HeaderAccepted, dataEnd, code] at data
    have ends := data ⟨UInt16.le_iff_toNat_le.mp long, counts⟩
    rw [counts.2.2.2.2] at ends
    exact ends
  · exact readHandler_same callbacks addr _ alike agree covers
  · exact writeCoil_same callbacks addr alike agree covers
  · refine write writeMultipleCoils fun accepts => ?_
    rw [writeAccepts_iff] at accepts
    simp only [HeaderAccepted, dataEnd, code] at data
    rw [← accepts.2.2.2]
    exact data accepts
  · exact readHandler_same callbacks addr _ alike agree covers
  · exact sameOutcome_refusal (by simp) alike

structure SameResponse (r r' : RequestResult σ k) : Prop where
  ok : r.ok = r'.ok
  rspLen : r.rspLen = r'.rspLen
  store : r.store = r'.store
  calls : r.calls = r'.calls
  reply : AgreeBelow r.rspLen.toNat r.pdu r'.pdu

theorem requestFinish_same (func : UInt8) {r r' : MBException × Handling σ k}
    (same : SameOutcome r r') : SameResponse (requestFinish func r) (requestFinish func r') := by
  unfold requestFinish
  dsimp only
  rw [← same.exception]
  split
  · refine ⟨rfl, rfl, same.alike.store, same.alike.calls, ?_⟩
    exact startReply_agree (func ||| 0x80) r.1.code r.2 r'.2
  · rename_i none
    exact ⟨rfl, same.alike.usLen, same.alike.store, same.alike.calls,
      same.response (not_not.mp none)⟩

/-- Memory that agrees on the request, and on the data its header announces, is answered
alike. -/
theorem requestRx_same (agree : AgreeBelow m pdu pdu') (positive : 1 ≤ m)
    (covers : len.toNat ≤ m) (data : HeaderAccepted len pdu → dataEnd pdu ≤ m) :
    SameResponse (modbusRtuHandlerRequestRx callbacks.ctx addr len pdu store)
      (modbusRtuHandlerRequestRx callbacks.ctx addr len pdu' store) := by
  unfold modbusRtuHandlerRequestRx
  dsimp only
  rw [show byte0 pdu' = byte0 pdu from (agree 0 (by omega) (by omega)).symm]
  exact requestFinish_same _ (dispatch_same callbacks addr len store agree covers data)

def dataStart (pdu : Vector UInt8 (253 + k)) : Nat := if byte0 pdu = 23 then 10 else 6

/-- A header is accepted for what it says, not for what follows the request. -/
theorem headerAccepted_agree {len : UInt16} (agree : AgreeBelow len.toNat pdu pdu')
    (accepted : HeaderAccepted len pdu) :
    HeaderAccepted len pdu' ∧ dataEnd pdu' = dataEnd pdu ∧ dataStart pdu' = dataStart pdu := by
  have long : 6 ≤ len.toNat := by
    unfold HeaderAccepted at accepted
    split at accepted
    case h_4 => exact accepted.elim
    all_goals omega
  have byte (i : Nat) (inside : i < 253 + k) (below : i < len.toNat) : pdu'[i] = pdu[i] :=
    (agree i inside below).symm
  have first : byte0 pdu' = byte0 pdu := byte 0 (by omega) (by omega)
  have short : quantity pdu' = quantity pdu ∧ byteCount pdu' = byteCount pdu := by
    simp only [quantity, byteCount, word3, byte5, byte 3 (by omega) (by omega),
      byte 4 (by omega) (by omega), byte 5 (by omega) (by omega), and_self]
  unfold HeaderAccepted dataEnd dataStart at *
  rw [first]
  split at accepted <;> rename_i code
  case h_4 => exact accepted.elim
  case h_3 =>
      have ten := accepted.1
      have rest : writeQuantity pdu' = writeQuantity pdu ∧
          writeByteCount pdu' = writeByteCount pdu := by
        simp only [writeQuantity, writeByteCount, word7, byte9, byte 7 (by omega) (by omega),
          byte 8 (by omega) (by omega), byte 9 (by omega) (by omega), and_self]
      rw [code, short.1, rest.1, rest.2]
      exact ⟨accepted, rfl, rfl⟩
  all_goals
    rw [code, short.1, short.2]
    exact ⟨accepted, rfl, rfl⟩

theorem writeHandler_calls (ctx : ModbusSlaveCTX σ) (f : WriteFunction) {h : Handling σ k}
    (long : f.long h.usLen = true) (accepts : f.Accepts h.pucFrame) :
    (writeHandler f ctx addr h).2.calls =
      (invoke ctx f.kind .write addr 6 (word1 h.pucFrame)
        (word3 h.pucFrame) h).2.calls := by
  rw [writeHandler_called ctx addr ⟨long, accepts⟩]
  exact conclude_calls (by rfl)

theorem answerRead_calls (ctx : ModbusSlaveCTX σ) (kind : RegKind) (code byteCount : UInt8)
    (growth usRegAddress usCount : UInt16) (h : Handling σ k) :
    ∃ last, (answerRead ctx kind code byteCount growth addr usRegAddress usCount h).2.calls =
      h.calls ++ [last] := by
  rcases invoke_called ctx kind .read addr 2 usRegAddress usCount (startReply code byteCount h)
    with ⟨last, calls, -⟩
  refine ⟨last, ?_⟩
  unfold answerRead
  dsimp only
  rw [conclude_calls (by rfl), calls]
  rfl

theorem readWrite_calls (ctx : ModbusSlaveCTX σ) {h : Handling σ k} (long : h.usLen ≥ 10)
    (accepts : ReadWriteAccepts h.pucFrame) :
    ∃ later, (modbusFuncHandlerReadWriteMultipleHoldingRegisters ctx addr h).2.calls =
      (invoke ctx .holding .write addr 10 (word5 h.pucFrame)
        (word7 h.pucFrame) h).2.calls ++ later := by
  rw [readWrite_called ctx addr long accepts]
  split
  · rcases answerRead_calls addr ctx .holding 23 (registerBytes (word3 h.pucFrame))
      ((2 : UInt16) * word3 h.pucFrame) (word1 h.pucFrame)
      (word3 h.pucFrame)
      (invoke ctx .holding .write addr 10 (word5 h.pucFrame)
        (word7 h.pucFrame) h).2 with ⟨last, calls⟩
    exact ⟨[last], calls⟩
  · exact ⟨[], (List.append_nil _).symm⟩

theorem first_written (ctx : ModbusSlaveCTX σ) (accepted : HeaderAccepted len pdu) :
    ((modbusRtuHandlerRequestRx ctx addr len pdu store).calls.head?.map RegCall.written) =
      some (front (pdu.drop (dataStart pdu)) (dataEnd pdu - dataStart pdu)) := by
  have write (f : WriteFunction) (ends : f.long len = true ∧ f.Accepts pdu)
      (size : byteCount pdu = dataSize f.kind (word3 pdu)) :
      ((writeHandler f ctx addr (requested len pdu store)).2.calls.head?.map RegCall.written) =
        some (front (pdu.drop 6) (6 + byteCount pdu - 6)) := by
    rw [writeHandler_calls addr ctx f (h := requested len pdu store) ends.1 ends.2, size,
      Nat.add_sub_cancel_left]
    rfl
  unfold modbusRtuHandlerRequestRx dataStart
  dsimp only
  rw [requestFinish_calls]
  unfold HeaderAccepted dataEnd at *
  split at accepted <;> rename_i code
  · rw [code]
    exact write writeMultipleCoils ((writeAccepts_iff len pdu _).mpr accepted) accepted.2.2.2
  · rw [code]
    exact write writeMultipleRegisters ((writeAccepts_iff len pdu _).mpr accepted) accepted.2.2.2
  · rw [code]
    rcases readWrite_calls addr ctx (h := requested len pdu store)
      (UInt16.le_iff_toNat_le.mpr accepted.1) ((readWriteAccepts_iff pdu).mpr accepted.2) with
      ⟨later, calls⟩
    have size := accepted.2.2.2.2.2
    refine (congrArg (fun calls => (List.head? calls).map RegCall.written) calls).trans ?_
    rw [if_pos rfl, Nat.add_sub_cancel_left, size]
    rfl
  · exact accepted.elim

theorem dataStart_lt_dataEnd (accepted : HeaderAccepted len pdu) :
    dataStart pdu < dataEnd pdu ∧ dataEnd pdu ≤ 252 := by
  unfold HeaderAccepted dataStart dataEnd at *
  split at accepted <;> rename_i code
  · rw [code, if_neg (by decide)]
    omega
  · rw [code, if_neg (by decide)]
    omega
  · rw [code, if_pos rfl]
    omega
  · exact accepted.elim

/-- Memories whose requests call back alike agree on the last byte they announce. -/
theorem calls_reveal (ctx : ModbusSlaveCTX σ) (agree : AgreeBelow len.toNat pdu pdu')
    (accepted : HeaderAccepted len pdu)
    (same : (modbusRtuHandlerRequestRx ctx addr len pdu store).calls =
      (modbusRtuHandlerRequestRx ctx addr len pdu' store).calls)
    (last : dataEnd pdu - 1 < 253 + k) : pdu[dataEnd pdu - 1] = pdu'[dataEnd pdu - 1] := by
  rcases headerAccepted_agree agree accepted with ⟨accepted', ends, starts⟩
  have bounds := dataStart_lt_dataEnd len accepted
  have written := first_written addr len store ctx accepted
  rw [same, first_written addr len store ctx accepted', ends, starts, Option.some.injEq] at written
  have tails := agreeBelow_of_front written
  have at_last := tails (dataEnd pdu - dataStart pdu - 1) (by omega) (by omega)
  rw [Vector.getElem_drop, Vector.getElem_drop] at at_last
  have index : dataStart pdu + (dataEnd pdu - dataStart pdu - 1) = dataEnd pdu - 1 := by omega
  simpa only [index] using at_last.symm

/-- Memories that differ everywhere behind `m` and call back alike announce nothing behind it. -/
theorem calls_cover (ctx : ModbusSlaveCTX σ) {m : Nat} (agree : AgreeBelow len.toNat pdu pdu')
    (differ : ∀ i (inside : i < 253 + k), i < 253 → m ≤ i → pdu[i] ≠ pdu'[i])
    (same : (modbusRtuHandlerRequestRx ctx addr len pdu store).calls =
      (modbusRtuHandlerRequestRx ctx addr len pdu' store).calls)
    (accepted : HeaderAccepted len pdu) : dataEnd pdu ≤ m := by
  have bounds := dataStart_lt_dataEnd len accepted
  by_contra beyond
  apply differ (dataEnd pdu - 1) (by omega) (by omega) (by omega)
  exact calls_reveal addr len store ctx agree accepted same (by omega)

end Request

end KongjaExpress.Modbus
