import KongjaExpress.Modbus.ExceptionStore
import KongjaExpress.Modbus.WriteAgreement
import KongjaExpress.Modbus.WriteReadAgreement

/-! The application of a slave as a bank of registers, and an exchange as one access to it. -/

namespace KongjaExpress.Modbus

open BigEndian Memory

variable {σ : Type} {k j : Nat}

/-- Registers that are read and written; none is an access that is refused. -/
structure Bank (σ : Type) where
  read : RegKind → UInt16 → UInt16 → σ → Option (List UInt8)
  write : RegKind → UInt16 → UInt16 → List UInt8 → σ → Option σ

/-- The callbacks of an application whose registers are those of a bank. -/
structure Serving (ctx : ModbusSlaveCTX σ) (bank : Bank σ) : Prop where
  reads : ∀ kind addr {m : Nat} (buffer : Vector UInt8 m) usAddress usNRegs store,
    dataSize kind usNRegs ≤ m →
      bank.read kind usAddress usNRegs store =
        if (ctx.callback kind .read addr buffer usAddress usNRegs store).status = .enoerr then
          some (front (ctx.callback kind .read addr buffer usAddress usNRegs store).buffer
            (dataSize kind usNRegs))
        else none
  writes : ∀ kind addr {m : Nat} (buffer : Vector UInt8 m) usAddress usNRegs store,
    bank.write kind usAddress usNRegs (front buffer (dataSize kind usNRegs)) store =
      if (ctx.callback kind .write addr buffer usAddress usNRegs store).status = .enoerr then
        some (ctx.callback kind .write addr buffer usAddress usNRegs store).store
      else none
  readKeeps : ∀ kind addr {m : Nat} (buffer : Vector UInt8 m) usAddress usNRegs store,
    (ctx.callback kind .read addr buffer usAddress usNRegs store).store = store
  unchanged : UnchangedOnError ctx
  keeps : KeepsWritten ctx

/-! An application that keeps its registers in a bank. -/

def Bank.onRead (bank : Bank σ) (kind : RegKind) {m : Nat} (buffer : Vector UInt8 m)
    (usAddress usNRegs : UInt16) (store : σ) : CallbackResult σ m :=
  (bank.read kind usAddress usNRegs store).elim ⟨.enoreg, buffer, store⟩
    fun values => ⟨.enoerr, blit buffer 0 values, store⟩

def Bank.onWrite (bank : Bank σ) (kind : RegKind) {m : Nat} (buffer : Vector UInt8 m)
    (usAddress usNRegs : UInt16) (store : σ) : CallbackResult σ m :=
  (bank.write kind usAddress usNRegs (front buffer (dataSize kind usNRegs)) store).elim
    ⟨.enoreg, buffer, store⟩ fun written => ⟨.enoerr, buffer, written⟩

def Bank.ctx (bank : Bank σ) : ModbusSlaveCTX σ where
  callback kind mode _ _ buffer usAddress usNRegs store :=
    if mode = .read then bank.onRead kind buffer usAddress usNRegs store
    else bank.onWrite kind buffer usAddress usNRegs store

section Application

variable (bank : Bank σ) (kind : RegKind) {m : Nat} (buffer : Vector UInt8 m)
  (usAddress usNRegs : UInt16) (store : σ)

theorem Bank.onRead_store : (bank.onRead kind buffer usAddress usNRegs store).store = store := by
  rw [onRead]
  cases bank.read kind usAddress usNRegs store <;> rfl

theorem Bank.onWrite_buffer :
    (bank.onWrite kind buffer usAddress usNRegs store).buffer = buffer := by
  rw [onWrite]
  cases bank.write kind usAddress usNRegs (front buffer (dataSize kind usNRegs)) store <;> rfl

theorem Bank.onWrite_unchanged
    (error : (bank.onWrite kind buffer usAddress usNRegs store).status ≠ .enoerr) :
    (bank.onWrite kind buffer usAddress usNRegs store).store = store := by
  rw [onWrite] at error ⊢
  cases answer : bank.write kind usAddress usNRegs (front buffer (dataSize kind usNRegs)) store with
  | none => rfl
  | some written =>
      rw [answer] at error
      exact absurd rfl error

theorem Bank.serving (sized : ∀ kind usAddress usNRegs store values,
    bank.read kind usAddress usNRegs store = some values →
      values.length = dataSize kind usNRegs) : Serving bank.ctx bank where
  reads kind addr {m} buffer usAddress usNRegs store room := by
    change _ = if (bank.onRead kind buffer usAddress usNRegs store).status = .enoerr then
      some (front (bank.onRead kind buffer usAddress usNRegs store).buffer _) else none
    rw [onRead]
    cases answer : bank.read kind usAddress usNRegs store with
    | none => rfl
    | some values =>
        have length := sized kind usAddress usNRegs store values answer
        change some values = some (front (blit buffer 0 values) (dataSize kind usNRegs))
        rw [← length, front_blit_zero buffer values (by omega)]
  writes kind addr {m} buffer usAddress usNRegs store := by
    change _ = if (bank.onWrite kind buffer usAddress usNRegs store).status = .enoerr then
      some (bank.onWrite kind buffer usAddress usNRegs store).store else none
    rw [onWrite]
    cases bank.write kind usAddress usNRegs (front buffer (dataSize kind usNRegs)) store <;> rfl
  readKeeps kind _ _ buffer usAddress usNRegs store :=
    bank.onRead_store kind buffer usAddress usNRegs store
  unchanged kind mode _ _ buffer usAddress usNRegs store error := by
    cases mode with
    | read => exact bank.onRead_store kind buffer usAddress usNRegs store
    | write => exact bank.onWrite_unchanged kind buffer usAddress usNRegs store error
  keeps kind _ _ buffer usAddress usNRegs store :=
    congrArg (front · _) (bank.onWrite_buffer kind buffer usAddress usNRegs store)

end Application

/-- A callback of the master's application, with the data it is pointed to. -/
structure Notice where
  call : AppCall
  data : Option (List UInt8)
  deriving DecidableEq

def noticed (ctx : ModbusMasterCTX) (slave : UInt8) (pdu : Vector UInt8 (253 + k))
    (pduLen : Int) : Option Notice :=
  (modbusRtuHandlerResponseRx ctx slave pdu pduLen).map fun call => ⟨call, call.data pdu⟩

namespace MasterCall

def payload : MasterCall → List UInt8
  | writeSingleCoil _ _ value => [if value ≠ 0 then 1 else 0]
  | writeSingleRegister _ _ value => wordBytes value
  | writeMultipleCoils _ _ nb values => coilData values nb (masterCoilBytes nb).toNat 0
  | writeMultipleRegisters _ _ nb values => registerData values nb.toNat 0
  | _ => []

def readKind : MasterCall → Option RegKind
  | readCoils .. => some .coil
  | readDiscreteInputs .. => some .discrete
  | readHoldingRegisters .. => some .holding
  | readInputRegisters .. => some .input
  | _ => none

/-- A call that only reads, with a quantity that both sides take from its two bytes alike, or
one that only writes. -/
def Proper (call : MasterCall) : Prop :=
  (∃ kind, call.readKind = some kind ∧ countedNb kind call.nb = call.nb) ∨ call.Writes

end MasterCall

def MasterCall.readNotice (call : MasterCall) (kind : RegKind) (values : List UInt8) : Notice where
  call := ⟨kind, call.slave, call.regAddr, call.nb, some 2, .read⟩
  data := some values

def MasterCall.writeNotice (call : MasterCall) : Notice where
  call := ⟨call.writeKind, call.slave, call.regAddr, call.nb, call.echoRegs, .write⟩
  data := call.echoRegs.map fun _ =>
    (wordBytes call.echo).take (dataSize call.writeKind call.nb)

def Bank.serveRead (bank : Bank σ) (call : MasterCall) (store : σ) (kind : RegKind) :
    Option Notice :=
  if (readOf kind).valid call.nb then
    (bank.read kind call.regAddr call.nb store).map (call.readNotice kind)
  else none

def Bank.serveWrite (bank : Bank σ) (call : MasterCall) (store : σ) : Option σ :=
  bank.write call.writeKind call.regAddr call.nb call.payload store

/-- A call as one access to the bank, and what the application is told of it. -/
def Bank.serve (bank : Bank σ) (call : MasterCall) (store : σ) : σ × Option Notice :=
  call.readKind.elim
    ((bank.serveWrite call store).getD store,
      (bank.serveWrite call store).map fun _ => call.writeNotice)
    fun kind => (store, bank.serveRead call store kind)

/-! An access that is refused. -/

theorem MasterCall.func_plain (call : MasterCall) : call.func ≠ call.func ||| 0x80 := by
  cases call <;>
    · rw [func]
      decide

/-- The master's application is not told of an exception. -/
theorem noticed_exception {call : MasterCall} {master prepared : ModbusMasterCTX}
    (encoded : Encoded call master prepared) {h : MBException × Handling σ k}
    (exception : h.1 ≠ .none) {reply : Vector UInt8 (253 + j)}
    (replied : Replied (requestFinish call.func h) reply) (slave : UInt8) (len : Int) :
    noticed prepared slave reply len = none := by
  rw [Replied, requestFinish_exception exception] at replied
  have first : byte0 reply = call.func ||| 0x80 := by
    have bytes : front reply 2 = front (setHeader h.2.pucFrame (call.func ||| 0x80) h.1.code) 2 :=
      replied
    rw [front_pair _ (by omega), front_pair _ (by omega)] at bytes
    simpa using (List.cons.inj bytes).1
  rw [noticed, Option.map_eq_none_iff]
  apply if_pos
  intro valid
  have same := validateResponse_func valid
  rw [encoded.saved.1, first] at same
  exact call.func_plain same

/-! The calls that read. -/

theorem readCall_of_readKind {call : MasterCall} {kind : RegKind}
    (reads : call.readKind = some kind) : call = readCall kind call.slave call.regAddr call.nb := by
  cases call <;> cases reads <;> rfl

theorem readAnswer_eq {ctx : ModbusSlaveCTX σ} {bank : Bank σ} (serving : Serving ctx bank)
    (store : σ) (kind : RegKind) (slave : UInt8) (regAddr nb : UInt16)
    (area : Vector UInt8 (253 + k)) (small : dataSize kind nb ≤ 250) :
    bank.read kind regAddr nb store =
      if (readAnswer ctx store kind slave regAddr area nb).status = .enoerr then
        some (front (readAnswer ctx store kind slave regAddr area nb).buffer (dataSize kind nb))
      else none :=
  serving.reads kind slave (area.drop 2) regAddr nb store (by omega)

theorem read_exchange {ctx : ModbusSlaveCTX σ} {bank : Bank σ} (serving : Serving ctx bank)
    (store : σ) {call : MasterCall} {kind : RegKind} (reads : call.readKind = some kind)
    (counted : countedNb kind call.nb = call.nb) {master prepared : ModbusMasterCTX}
    {area : Vector UInt8 (253 + k)} (asked : Asked call master prepared area)
    {r : RequestResult σ k} (answer : slaveAnswer ctx call prepared area store = r) :
    r.store = store ∧ ∀ {j : Nat} (reply : Vector UInt8 (253 + j)), Replied r reply →
      noticed prepared call.slave reply r.rspLen.toNat = bank.serveRead call store kind := by
  unfold Bank.serveRead MasterCall.readNotice
  rw [readCall_of_readKind reads] at asked answer
  generalize call.slave = slave at asked answer ⊢
  generalize call.regAddr = regAddr at asked answer ⊢
  generalize call.nb = nb at asked answer counted ⊢
  have accepted := slaveAnswer_ok_iff ctx store kind slave regAddr nb asked
  rw [counted] at accepted
  by_cases ok : r.ok = true
  · have good : (slaveAnswer ctx (readCall kind slave regAddr nb) prepared area store).ok = true := by
      rwa [answer]
    rcases accepted.mp good with ⟨valid, status⟩
    have small := (readOf_sizes valid).2.2
    refine ⟨?_, fun {j} reply replied => ?_⟩
    · rw [← answer, slaveAnswer_read_ok ctx store kind slave regAddr nb asked good]
      exact serving.readKeeps kind slave _ regAddr _ store
    · rw [← answer] at replied ⊢
      have delivery := readAgreement_of_counted counted asked good j reply replied
      rw [if_pos valid, readAnswer_eq serving store kind slave regAddr nb area small,
        if_pos status, noticed, delivery.called]
      simp only [Option.map_some, AppCall.data, delivery.values]
  · have bad : ¬ (slaveAnswer ctx (readCall kind slave regAddr nb) prepared area store).ok = true := by
      rwa [answer]
    have refused : ¬ ((readOf kind).valid nb = true ∧
        (readAnswer ctx store kind slave regAddr area nb).status = .enoerr) :=
      fun both => bad (accepted.mpr both)
    rw [asked.answer] at answer bad
    have exception : (requestDispatch (readCall kind slave regAddr nb).func ctx
        (readCall kind slave regAddr nb).slave (requested
          (.ofNat (readCall kind slave regAddr nb).pdu.length) area store)).1 ≠ .none :=
      fun none => bad (requestFinish_ok_iff.mpr none)
    refine ⟨?_, fun {j} reply replied => ?_⟩
    · rw [← answer, requestFinish_store]
      apply dispatch_leavesOnError _ serving.unchanged _ _ exception
      cases kind <;>
        · rw [readCall, MasterCall.func]
          decide
    · rw [← answer] at replied ⊢
      rw [noticed_exception asked.encoded exception replied]
      split_ifs with valid
      · have status := not_and.mp refused valid
        have small := (readOf_sizes valid).2.2
        rw [readAnswer_eq serving store kind slave regAddr nb area small, if_neg status]
        rfl
      · rfl

/-! The calls that only write. -/

theorem coilsPacked_unique {values : Nat → UInt8} {nb : UInt16} {data data' : List UInt8}
    (packed : CoilsPacked values nb data) (packed' : CoilsPacked values nb data') :
    data = data' := by
  apply List.ext_getElem (packed.1.trans packed'.1.symm)
  intro q inside inside'
  apply UInt8.toNat_inj.mp
  apply Nat.eq_of_testBit_eq
  intro b
  by_cases low : b < 8
  · have place : (8 * q + b) / 8 = q := by omega
    have bit : (8 * q + b) % 8 = b := by omega
    have left := packed.2 (8 * q + b) (by rwa [place])
    have right := packed'.2 (8 * q + b) (by rwa [place])
    simp only [place, bit] at left right
    rw [left, right]
  · have small : ∀ byte : UInt8, byte.toNat < 2 ^ b := fun byte =>
      Nat.lt_of_lt_of_le byte.toNat_lt (Nat.pow_le_pow_right (by decide) (not_lt.mp low))
    rw [Nat.testBit_lt_two_pow (small _), Nat.testBit_lt_two_pow (small _)]

theorem registersPacked_unique {values : Nat → UInt16} {nb : UInt16} {data data' : List UInt8}
    (packed : RegistersPacked values nb data) (packed' : RegistersPacked values nb data') :
    data = data' := by
  apply List.ext_getElem?
  intro i
  by_cases inside : i / 2 < nb.toNat
  · have left := packed.2 (i / 2) inside
    have right := packed'.2 (i / 2) inside
    rcases Nat.mod_two_eq_zero_or_one i with even | odd
    · have place : 2 * (i / 2) = i := by omega
      rw [place] at left right
      exact left.1.trans right.1.symm
    · have place : 2 * (i / 2) + 1 = i := by omega
      rw [place] at left right
      exact left.2.trans right.2.symm
  · have long : data.length ≤ i := by
      rw [packed.1]
      omega
    have long' : data'.length ≤ i := by
      rw [packed'.1]
      omega
    rw [List.getElem?_eq_none long, List.getElem?_eq_none long']

theorem payload_of_decodes {call : MasterCall} (writes : call.Writes) {data : List UInt8}
    (decodes : call.Decodes data) : data = call.payload := by
  cases call with
  | writeSingleCoil | writeSingleRegister => exact decodes
  | writeMultipleCoils slave regAddr nb values =>
      have bound : nb.toNat < 2040 := Nat.lt_of_le_of_lt writes.2 (by decide)
      exact coilsPacked_unique decodes (coilsPacked values bound)
  | writeMultipleRegisters slave regAddr nb values =>
      exact registersPacked_unique decodes (registersPacked values nb)
  | readCoils | readDiscreteInputs | readHoldingRegisters | readInputRegisters
  | writeAndReadRegisters => exact writes.elim

def WroteOnce (bank : Bank σ) (h : Handling σ k) (r : MBException × Handling σ k) : Prop :=
  ∀ call, call.mode = .write → r.2.calls = h.calls ++ [call] →
    (r.1 = .none ↔ call.status = .enoerr) ∧
      bank.write call.kind call.usAddress call.usNRegs call.written h.store =
        (if call.status = .enoerr then some r.2.store else none) ∧
      (call.status ≠ .enoerr → r.2.store = h.store)

theorem wroteOnce_refusal (bank : Bank σ) (h : Handling σ k) (exception : MBException) :
    WroteOnce bank h (exception, h) := by
  intro call _ made
  have lengths := congrArg List.length made
  exact absurd lengths.symm (by simp)

section Handlers

variable {ctx : ModbusSlaveCTX σ} {bank : Bank σ} (serving : Serving ctx bank) (addr : UInt8)
  (h : Handling σ k)

include serving

theorem invokeOn_wroteOnce (kind : RegKind) {m : Nat} (buffer : Vector UInt8 m)
    (usAddress usNRegs : UInt16) {failed answered : Handling σ k}
    (first : failed.store = (invokeOn ctx kind .write addr buffer usAddress usNRegs h).2.store ∧
      failed.calls = (invokeOn ctx kind .write addr buffer usAddress usNRegs h).2.calls)
    (same : answered.store = failed.store ∧ answered.calls = failed.calls) :
    WroteOnce bank h (conclude (invokeOn ctx kind .write addr buffer usAddress usNRegs h).1
      failed answered) := by
  intro call _ made
  have outcome : (conclude (invokeOn ctx kind .write addr buffer usAddress usNRegs h).1 failed
      answered).2.store = failed.store ∧
      (conclude (invokeOn ctx kind .write addr buffer usAddress usNRegs h).1 failed
        answered).2.calls = failed.calls := by
    rw [conclude]
    split_ifs
    · exact ⟨rfl, rfl⟩
    · exact same
  rw [outcome.2, first.2] at made
  obtain rfl := (List.singleton_inj.mp (List.append_cancel_left made)).symm
  rw [conclude_fst, prveMBError2Exception_none_iff, outcome.1, first.1]
  refine ⟨Iff.rfl, serving.writes kind addr buffer usAddress usNRegs h.store, fun error => ?_⟩
  exact serving.unchanged kind .write addr buffer usAddress usNRegs h.store error

theorem writeHandler_wroteOnce (f : WriteFunction) : WroteOnce bank h (writeHandler f ctx addr h) := by
  by_cases called : f.Called h.usLen h.pucFrame
  · rw [writeHandler_called ctx addr called]
    exact invokeOn_wroteOnce serving addr h _ _ _ _ ⟨rfl, rfl⟩ ⟨rfl, rfl⟩
  · rw [writeHandler_refused ctx addr called]
    exact wroteOnce_refusal bank h _

theorem writeHoldingRegister_wroteOnce :
    WroteOnce bank h (modbusFuncHandlerWriteHoldingRegister ctx addr h) := by
  rw [modbusFuncHandlerWriteHoldingRegister]
  split_ifs
  · exact invokeOn_wroteOnce serving addr h _ _ _ _ ⟨rfl, rfl⟩ ⟨rfl, rfl⟩
  · exact wroteOnce_refusal bank h _

theorem writeCoil_wroteOnce : WroteOnce bank h (modbusFuncHandlerWriteCoil ctx addr h) := by
  by_cases called : CoilCalled h.usLen h.pucFrame
  · rw [writeCoil_called ctx addr called]
    exact invokeOn_wroteOnce serving addr h _ _ _ _ ⟨rfl, rfl⟩ ⟨rfl, rfl⟩
  · rw [writeCoil_refused ctx addr called]
    exact wroteOnce_refusal bank h _

end Handlers

theorem dispatch_wroteOnce {ctx : ModbusSlaveCTX σ} {bank : Bank σ} (serving : Serving ctx bank)
    (addr : UInt8) (h : Handling σ k) {call : MasterCall} (writes : call.Writes) :
    WroteOnce bank h (requestDispatch call.func ctx addr h) := by
  cases call with
  | writeSingleCoil => exact writeCoil_wroteOnce serving addr h
  | writeSingleRegister => exact writeHoldingRegister_wroteOnce serving addr h
  | writeMultipleCoils | writeMultipleRegisters => exact writeHandler_wroteOnce serving addr h _
  | readCoils | readDiscreteInputs | readHoldingRegisters | readInputRegisters
  | writeAndReadRegisters => exact writes.elim

theorem echo_data {call : MasterCall} (writes : call.Writes) {reply : Vector UInt8 (253 + j)}
    (header : front reply 5 = call.echoPdu) :
    (AppCall.mk call.writeKind call.slave call.regAddr call.nb call.echoRegs .write).data reply =
      call.echoRegs.map fun _ =>
        (wordBytes call.echo).take (dataSize call.writeKind call.nb) := by
  have value : front (reply.drop 3) 2 = wordBytes call.echo := by
    rw [front_add reply 3 2] at header
    exact (List.append_inj header (by rw [front_length _ (by omega)]; rfl)).2
  have within : ∀ size ≤ 2, (wordBytes call.echo).take size = front (reply.drop 3) size := by
    intro size small
    rw [← value, front, front, List.take_take, Nat.min_eq_left small]
  cases call with
  | writeSingleCoil => exact congrArg some (within (dataSize .coil 1) (by decide)).symm
  | writeSingleRegister => exact congrArg some (within (dataSize .holding 1) (by decide)).symm
  | writeMultipleCoils | writeMultipleRegisters => rfl
  | readCoils | readDiscreteInputs | readHoldingRegisters | readInputRegisters
  | writeAndReadRegisters => exact writes.elim

theorem write_exchange {ctx : ModbusSlaveCTX σ} {bank : Bank σ} (serving : Serving ctx bank)
    (store : σ) {call : MasterCall} (writes : call.Writes) {master prepared : ModbusMasterCTX}
    {area : Vector UInt8 (253 + k)} (asked : Asked call master prepared area)
    {r : RequestResult σ k} (answer : slaveAnswer ctx call prepared area store = r) :
    r.store = (bank.serveWrite call store).getD store ∧
      ∀ {j : Nat} (reply : Vector UInt8 (253 + j)), Replied r reply →
        noticed prepared call.slave reply r.rspLen.toNat =
          (bank.serveWrite call store).map fun _ => call.writeNotice := by
  rcases @slaveAnswer_echoes σ k ctx area store call master prepared writes asked with
    ⟨data, status, calls, decodes, echoed⟩
  obtain rfl := payload_of_decodes writes decodes
  rw [answer] at calls echoed
  rw [asked.answer] at answer
  have made : (requestDispatch call.func ctx call.slave
      (requested (.ofNat call.pdu.length) area store)).2.calls = [] ++
        [⟨call.writeKind, .write, call.slave, call.regAddr, call.nb, call.payload, status⟩] := by
    rw [List.nil_append, ← requestFinish_calls call.func, answer]
    exact calls
  rcases dispatch_wroteOnce serving call.slave _ writes _ rfl made with ⟨none, wrote, unchanged⟩
  rw [← requestFinish_store call.func, answer] at wrote unchanged
  change bank.serveWrite call store = _ at wrote
  rw [wrote]
  by_cases good : status = .enoerr
  · rw [if_pos good]
    refine ⟨rfl, fun {j} reply replied => ?_⟩
    rcases echoed good (fun _ => serving.keeps) with ⟨length, pdu⟩
    rw [Replied, length] at replied
    have header : front reply 5 = call.echoPdu := replied.trans pdu
    have called := echoReply_accepted writes asked.encoded header
    rw [noticed, length]
    change (modbusRtuHandlerResponseRx prepared call.slave reply 5).map _ = _
    rw [called, Option.map_some, Option.map_some, echo_data writes header]
    rfl
  · rw [if_neg good]
    refine ⟨unchanged good, fun {j} reply replied => ?_⟩
    rw [← answer] at replied
    exact noticed_exception asked.encoded (fun ok => good (none.mp ok)) replied _ _

/-- An exchange is one access to the bank, of which the master's application is told. -/
theorem exchange_serves {ctx : ModbusSlaveCTX σ} {bank : Bank σ} (serving : Serving ctx bank)
    (store : σ) {call : MasterCall} (proper : call.Proper) {master prepared : ModbusMasterCTX}
    {area : Vector UInt8 (253 + k)} (asked : Asked call master prepared area)
    {r : RequestResult σ k} (answer : slaveAnswer ctx call prepared area store = r) :
    r.store = (bank.serve call store).1 ∧ ∀ {j : Nat} (reply : Vector UInt8 (253 + j)),
      Replied r reply →
        noticed prepared call.slave reply r.rspLen.toNat = (bank.serve call store).2 := by
  rcases proper with ⟨kind, reads, counted⟩ | writes
  · rw [Bank.serve, reads]
    exact read_exchange serving store reads counted asked answer
  · have reads : call.readKind = none := by
      cases call <;> first | rfl | exact writes.elim
    rw [Bank.serve, reads]
    exact write_exchange serving store writes asked answer

end KongjaExpress.Modbus
