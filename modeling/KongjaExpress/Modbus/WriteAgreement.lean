import KongjaExpress.Modbus.Exchange
import KongjaExpress.Modbus.WriteData

/-! Master and slave on the four functions that only write. -/

namespace KongjaExpress.Modbus

open BigEndian Memory

variable {σ : Type} {k j : Nat}

namespace MasterCall

def Writes : MasterCall → Prop
  | writeSingleCoil .. | writeSingleRegister .. => True
  | writeMultipleCoils _ _ nb _ => 1 ≤ nb.toNat ∧ nb.toNat ≤ 0x07B0
  | writeMultipleRegisters _ _ nb _ => 1 ≤ nb.toNat ∧ nb.toNat ≤ 0x0078
  | _ => False

def writeKind : MasterCall → RegKind
  | writeSingleCoil .. | writeMultipleCoils .. => .coil
  | _ => .holding

def Decodes (data : List UInt8) : MasterCall → Prop
  | writeSingleCoil _ _ value => data = [if value ≠ 0 then 1 else 0]
  | writeSingleRegister _ _ value => data = wordBytes value
  | writeMultipleCoils _ _ nb values => CoilsPacked values nb data
  | writeMultipleRegisters _ _ nb values => RegistersPacked values nb data
  | _ => False

def echo : MasterCall → UInt16
  | writeSingleCoil _ _ value => if value ≠ 0 then 0xff00 else 0x0000
  | writeSingleRegister _ _ value => value
  | call => call.nb

def echoRegs : MasterCall → Option Nat
  | writeSingleCoil .. | writeSingleRegister .. => some 3
  | _ => none

def echoPdu (call : MasterCall) : List UInt8 :=
  call.func :: wordBytes call.regAddr ++ wordBytes call.echo

end MasterCall

def KeepsWritten (ctx : ModbusSlaveCTX σ) : Prop :=
  ∀ kind addr {m : Nat} (buffer : Vector UInt8 m) usAddress usNRegs store,
    front (ctx.callback kind .write addr buffer usAddress usNRegs store).buffer
      (dataSize kind usNRegs) = front buffer (dataSize kind usNRegs)

/-- What the response of function 6 repeats has been in the callback's hands. -/
def KeepsEcho (ctx : ModbusSlaveCTX σ) (call : MasterCall) : Prop :=
  call.func = 6 → KeepsWritten ctx

def EchoesCall (ctx : ModbusSlaveCTX σ) (call : MasterCall) (r : RequestResult σ k) : Prop :=
  ∃ data status,
    r.calls = [⟨call.writeKind, .write, call.slave, call.regAddr, call.nb, data, status⟩] ∧
      call.Decodes data ∧
      (status = .enoerr → KeepsEcho ctx call → r.rspLen = 5 ∧ front r.pdu 5 = call.echoPdu)

theorem echoes_conclude {ctx : ModbusSlaveCTX σ} {call : MasterCall} {status : MBErrorCode}
    {failed answered : Handling σ k} (func : UInt8) (data : List UInt8)
    (calls : failed.calls =
      [⟨call.writeKind, .write, call.slave, call.regAddr, call.nb, data, status⟩])
    (same : answered.calls = failed.calls) (decodes : call.Decodes data)
    (length : answered.usLen = 5)
    (pdu : KeepsEcho ctx call → front answered.pucFrame 5 = call.echoPdu) :
    EchoesCall ctx call (requestFinish func (conclude status failed answered)) := by
  refine ⟨data, status, ?_, decodes, ?_⟩
  · rw [requestFinish_calls, ← calls]
    unfold conclude
    split
    · rfl
    · exact same
  · rintro rfl keeps
    rw [requestFinish_conclude]
    exact ⟨length, pdu keeps⟩

section Slave

variable {ctx : ModbusSlaveCTX σ} {area : Vector UInt8 (253 + k)} {store : σ}
  {call : MasterCall}

theorem writeHandler_echoes (f : WriteFunction) (func : UInt8) {data : List UInt8}
    {len : UInt16} (kind : f.kind = call.writeKind) (long : 6 ≤ len.toNat)
    (header : front area 5 = call.echoPdu) (addr : word1 area = call.regAddr)
    (count : word3 area = call.nb) (accepts : f.Accepts area)
    (held : front (area.drop 6) (dataSize call.writeKind call.nb) = data)
    (decodes : call.Decodes data) :
    EchoesCall ctx call
      (requestFinish func (writeHandler f ctx call.slave (requested len area store))) := by
  have called : f.Called (requested len area store).usLen (requested len area store).pucFrame :=
    ⟨(f.long_iff len).mpr long, accepts⟩
  rw [writeHandler_called ctx call.slave called]
  apply echoes_conclude func data
  · simp only [invoke, invokeOn, requested, List.nil_append, addr, count, kind, writtenData, held]
  · rfl
  · exact decodes
  · rfl
  · intro _
    rw [← header]
    exact front_overlay area _ (by omega)

theorem writeHoldingRegister_echoes (func : UInt8) (kind : call.writeKind = .holding)
    (code : call.func = 6) (single : call.nb = 1)
    (header : front area 5 = call.echoPdu) (addr : word1 area = call.regAddr)
    (decodes : call.Decodes (wordBytes call.echo)) :
    EchoesCall ctx call (requestFinish func
      (modbusFuncHandlerWriteHoldingRegister ctx call.slave (requested 5 area store))) := by
  have value : front (area.drop 3) 2 = wordBytes call.echo :=
    (@front_split _ _ area (call.func :: wordBytes call.regAddr) (wordBytes call.echo)
      (by simp [wordBytes]; omega) header).2
  unfold modbusFuncHandlerWriteHoldingRegister
  rw [if_pos (show (requested 5 area store).usLen = 5 from rfl)]
  apply echoes_conclude func (wordBytes call.echo)
  · rw [kind, single, ← addr, ← value]
    rfl
  · rfl
  · exact decodes
  · rfl
  · intro keeps
    have kept := keeps code .holding call.slave (area.drop 3) (word1 area) 1 store
    change front (overlay area 3 (ctx.callback .holding .write call.slave (area.drop 3)
      (word1 area) 1 store).buffer) (3 + 2) = call.echoPdu
    change front _ 2 = front _ 2 at kept
    rw [front_add, front_overlay area _ (le_refl 3), drop_overlay, kept, ← front_add]
    exact header

theorem writeCoil_echoes (func : UInt8) (on : Bool) (kind : call.writeKind = .coil)
    (single : call.nb = 1) (header : front area 5 = call.echoPdu)
    (addr : word1 area = call.regAddr) (high : byte3 area = if on then 0xFF else 0x00)
    (low : byte4 area = 0x00) (decodes : call.Decodes [if on then 1 else 0]) :
    EchoesCall ctx call
      (requestFinish func (modbusFuncHandlerWriteCoil ctx call.slave (requested 5 area store))) := by
  have called : CoilCalled (requested 5 area store).usLen (requested 5 area store).pucFrame := by
    refine ⟨rfl, low, ?_⟩
    change byte3 area = 0xFF ∨ byte3 area = 0x00
    cases on <;> simp [high]
  have value : (if byte3 area = 0xFF then 1 else 0) = (if on then 1 else 0 : UInt8) := by
    cases on <;> simp [high]
  rw [writeCoil_called ctx call.slave called]
  apply echoes_conclude func [if byte3 area = 0xFF then 1 else 0]
  · rw [kind, single, ← addr]
    rfl
  · rfl
  · rwa [value]
  · rfl
  · intro _
    exact header

theorem echo_header {rest : List UInt8}
    (whole : front area (call.echoPdu ++ rest).length = call.echoPdu ++ rest) :
    front area 5 = call.echoPdu ∧ word1 area = call.regAddr ∧
      byte3 area = highByte call.echo ∧ byte4 area = lowByte call.echo := by
  rcases header_of_front (by omega) whole with ⟨-, addr, high, low⟩
  rw [List.length_append] at whole
  have fits : call.echoPdu.length ≤ 253 + k := by
    simp only [MasterCall.echoPdu, wordBytes, List.length_append, List.length_cons,
      List.length_nil]
    omega
  exact ⟨(front_split fits whole).1, addr, high, low⟩

theorem several_echoes {master prepared : ModbusMasterCTX} (f : WriteFunction)
    {data : List UInt8} (kind : f.kind = call.writeKind)
    (dispatch : ∀ h : Handling σ k,
      requestDispatch call.func ctx call.slave h = writeHandler f ctx call.slave h)
    (count : call.echo = call.nb) (some : 1 ≤ call.nb) (small : call.nb ≤ f.max)
    (pdu : call.pdu = call.echoPdu ++ f.verify call.nb :: data)
    (size : data.length = dataSize f.kind call.nb) (decodes : call.Decodes data)
    (asked : Asked call master prepared area) :
    EchoesCall ctx call (slaveAnswer ctx call prepared area store) := by
  have fits := f.fits call.nb small
  have total : call.pdu.length = 6 + data.length := by
    rw [pdu, List.length_append, List.length_cons]
    change 5 + (data.length + 1) = _
    omega
  have whole := asked.front_eq
  rw [pdu] at whole
  rcases echo_header whole with ⟨header, addr, high, low⟩
  have quantity : word3 area = call.nb :=
    calc
      word3 area = word (byte3 area) (byte4 area) := rfl
      _ = call.echo := by rw [high, low, word_bytes]
      _ = call.nb := count
  have announced : byte5 area = f.verify call.nb :=
    getElem_of_front whole (by rw [← pdu]; omega) (by omega)
  rw [List.append_cons, List.length_append] at whole
  have held := (front_split (show 6 ≤ 253 + k by omega) whole).2
  rw [asked.answer, dispatch]
  refine writeHandler_echoes f call.func kind ?_ header addr quantity ?_ ?_ decodes
  · rw [total, UInt16.toNat_ofNat', Nat.mod_eq_of_lt (by omega)]
    omega
  · change (1 : UInt16) ≤ word3 area ∧ word3 area ≤ f.max ∧
      f.verify (word3 area) = byte5 area
    rw [quantity]
    exact ⟨some, small, announced.symm⟩
  · rw [← kind, ← size]
    exact held

theorem slaveAnswer_echoes {master prepared : ModbusMasterCTX} (writes : call.Writes)
    (asked : Asked call master prepared area) :
    EchoesCall ctx call (slaveAnswer ctx call prepared area store) := by
  cases call with
  | writeSingleCoil slave regAddr value =>
      have whole := asked.front_eq
      rcases @echo_header k area (.writeSingleCoil slave regAddr value) [] whole with
        ⟨header, addr, high, low⟩
      rw [asked.answer]
      apply writeCoil_echoes 5 (decide (value ≠ 0)) rfl rfl header addr
      · rw [high]
        by_cases on : value = 0
        · simp [MasterCall.echo, on, highByte]
        · simp only [MasterCall.echo, ne_eq, on, not_false_eq_true, decide_true, if_true]
          decide
      · rw [low]
        by_cases on : value = 0
        · simp [MasterCall.echo, on, lowByte]
        · simp only [MasterCall.echo, ne_eq, on, not_false_eq_true, if_true]
          decide
      · simp only [MasterCall.Decodes, decide_eq_true_eq]
  | writeSingleRegister slave regAddr value =>
      have whole := asked.front_eq
      rcases @echo_header k area (.writeSingleRegister slave regAddr value) [] whole with
        ⟨header, addr, -⟩
      rw [asked.answer]
      exact writeHoldingRegister_echoes 6 rfl rfl rfl header addr rfl
  | writeMultipleCoils slave regAddr nb values =>
      have bound : nb.toNat < 2040 := Nat.lt_of_le_of_lt writes.2 (by decide)
      have packed := coilsPacked values bound
      have bytes : coilBytes nb = masterCoilBytes nb := by
        apply UInt8.toNat_inj.mp
        rw [coilBytes_toNat bound, masterCoilBytes_toNat bound]
      have some : 1 ≤ nb := UInt16.le_iff_toNat_le.mpr writes.1
      have small : nb ≤ 0x07B0 := UInt16.le_iff_toNat_le.mpr writes.2
      refine several_echoes writeMultipleCoils rfl (fun _ => rfl) rfl some small ?_ packed.1
        packed asked
      change _ = _ ++ coilBytes nb :: _
      rw [bytes]
      rfl
  | writeMultipleRegisters slave regAddr nb values =>
      have packed := registersPacked values nb
      have some : 1 ≤ nb := UInt16.le_iff_toNat_le.mpr writes.1
      have small : nb ≤ 0x0078 := UInt16.le_iff_toNat_le.mpr writes.2
      exact several_echoes writeMultipleRegisters rfl (fun _ => rfl) rfl some small rfl packed.1
        packed asked
  | readCoils | readDiscreteInputs | readHoldingRegisters | readInputRegisters
  | writeAndReadRegisters => exact writes.elim

end Slave

theorem echoReply_accepted {call : MasterCall} {master prepared : ModbusMasterCTX}
    {reply : Vector UInt8 (253 + j)} (writes : call.Writes)
    (encoded : Encoded call master prepared) (header : front reply 5 = call.echoPdu) :
    modbusRtuHandlerResponseRx prepared call.slave reply 5 =
      some ⟨call.writeKind, call.slave, call.regAddr, call.nb, call.echoRegs, .write⟩ := by
  rcases encoded.saved with ⟨func, -, addr, nb, -⟩
  have value := encoded.same.reqValue
  rw [← List.append_nil call.echoPdu] at header
  rcases @header_of_front _ reply call.func call.regAddr call.echo [] (by omega) header with
    ⟨code, address, high, low⟩
  have second : word3 reply = call.echo := by
    rw [word3, high, low, word_bytes]
  cases call with
  | writeSingleCoil | writeSingleRegister | writeMultipleCoils | writeMultipleRegisters =>
      simp [modbusRtuHandlerResponseRx, modbusRtuValidateResponse, responseCallback, func, addr,
        nb, value, code, address, second, MasterCall.func, MasterCall.regAddr, MasterCall.nb,
        MasterCall.echo, MasterCall.begin, MasterCall.writeKind, MasterCall.slave,
        MasterCall.echoRegs]
  | readCoils | readDiscreteInputs | readHoldingRegisters | readInputRegisters
  | writeAndReadRegisters => exact writes.elim

/-- The slave is asked to write what the call says, and its success reaches the master's
callback. -/
def WriteAgreement (ctx : ModbusSlaveCTX σ) (store : σ) (call : MasterCall)
    (prepared : ModbusMasterCTX) (area : Vector UInt8 (253 + k)) : Prop :=
  ∃ data status,
    (slaveAnswer ctx call prepared area store).calls =
        [⟨call.writeKind, .write, call.slave, call.regAddr, call.nb, data, status⟩] ∧
      call.Decodes data ∧
      (status = .enoerr → KeepsEcho ctx call → ∀ (j : Nat) (reply : Vector UInt8 (253 + j)),
        Replied (slaveAnswer ctx call prepared area store) reply →
        modbusRtuHandlerResponseRx prepared call.slave reply
            (slaveAnswer ctx call prepared area store).rspLen.toNat =
          some ⟨call.writeKind, call.slave, call.regAddr, call.nb, call.echoRegs, .write⟩)

theorem writeAgreement (ctx : ModbusSlaveCTX σ) (store : σ) {call : MasterCall}
    {master prepared : ModbusMasterCTX} {area : Vector UInt8 (253 + k)} (writes : call.Writes)
    (asked : Asked call master prepared area) :
    WriteAgreement ctx store call prepared area := by
  rcases @slaveAnswer_echoes σ k ctx area store call master prepared writes asked with
    ⟨data, status, calls, decodes, answered⟩
  refine ⟨data, status, calls, decodes, fun good keeps j reply replied => ?_⟩
  rcases answered good keeps with ⟨length, pdu⟩
  unfold Replied at replied
  rw [length] at replied ⊢
  exact echoReply_accepted writes asked.encoded (replied.trans pdu)

theorem testSlave_keepsWritten : KeepsWritten testSlave :=
  fun _ _ _ _ _ _ _ => rfl

def requestArea (call : MasterCall) : Vector UInt8 (253 + 0) :=
  blit (.replicate (253 + 0) 0) 0 call.pdu

/-- Ten coils are written; a register is written by function 6, and its echo is taken for the
confirmation. -/
theorem writeAgreement_ten :
    (∃ prepared, WriteAgreement testSlave () (.writeMultipleCoils 1 0 10 fun _ => 1) prepared
      (requestArea (.writeMultipleCoils 1 0 10 fun _ => 1))) ∧
    ∃ prepared, ∀ reply : Vector UInt8 (253 + 1),
      Replied (slaveAnswer testSlave (.writeSingleRegister 1 5 7) prepared
        (requestArea (.writeSingleRegister 1 5 7)) ()) reply →
      modbusRtuHandlerResponseRx prepared 1 reply
        (slaveAnswer testSlave (.writeSingleRegister 1 5 7) prepared
          (requestArea (.writeSingleRegister 1 5 7)) ()).rspLen.toNat =
        some ⟨.holding, 1, 5, 1, some 3, .write⟩ := by
  constructor
  · rcases @MasterCall.asked 0 (.writeMultipleCoils 1 0 10 fun _ => 1)
      ⟨.replicate 512 0, 0, 0, 0, 0, 0, 0, 0⟩ (by decide) (by decide)
      (.replicate (253 + 0) 0) with ⟨prepared, asked⟩
    exact ⟨prepared, writeAgreement testSlave () ⟨by decide, by decide⟩ asked⟩
  · rcases @MasterCall.asked 0 (.writeSingleRegister 1 5 7)
      ⟨.replicate 512 0, 0, 0, 0, 0, 0, 0, 0⟩ (by decide) (by decide)
      (.replicate (253 + 0) 0) with ⟨prepared, asked⟩
    have writes : (MasterCall.writeSingleRegister 1 5 7).Writes := trivial
    rcases writeAgreement testSlave () writes asked with ⟨data, status, calls, -, answered⟩
    have executed : (slaveAnswer testSlave (.writeSingleRegister 1 5 7) prepared
        (requestArea (.writeSingleRegister 1 5 7)) ()).calls =
          [⟨.holding, .write, 1, 5, 1, [0, 7], .enoerr⟩] := by
      rw [slaveAnswer, txPdu_of_encoded asked.encoded]
      decide +kernel
    have good : status = .enoerr := by
      have same := executed.symm.trans calls
      simp only [List.cons.injEq, RegCall.mk.injEq] at same
      exact same.1.2.2.2.2.2.2.symm
    exact ⟨prepared, fun reply replied =>
      answered good (fun _ => testSlave_keepsWritten) 1 reply replied⟩

end KongjaExpress.Modbus
