import KongjaExpress.Modbus.ReadAgreement
import KongjaExpress.Modbus.WriteData

/-! Master and slave on the function that writes and reads. -/

namespace KongjaExpress.Modbus

open BigEndian Memory

variable {σ : Type} {k j : Nat}

def AppCall.data (call : AppCall) (pdu : Vector UInt8 (253 + k)) : Option (List UInt8) :=
  call.regs.map fun offset => front (pdu.drop offset) (dataSize call.kind call.nreg)

/-- The arguments of `mb_master_write_and_read_registers` behind the slave. -/
structure WriteRead where
  writeAddr : UInt16
  nbWrite : UInt16
  values : Nat → UInt16
  readAddr : UInt16
  nbRead : UInt16

namespace WriteRead

def call (w : WriteRead) (slave : UInt8) : MasterCall :=
  .writeAndReadRegisters slave w.writeAddr w.nbWrite w.values w.readAddr w.nbRead

structure InRange (w : WriteRead) : Prop where
  writes : 1 ≤ w.nbWrite.toNat ∧ w.nbWrite.toNat ≤ 0x79
  reads : 1 ≤ w.nbRead.toNat ∧ w.nbRead.toNat ≤ 0x7D

end WriteRead

section Slave

variable (ctx : ModbusSlaveCTX σ) (store : σ) (slave : UInt8) (w : WriteRead)
  (area : Vector UInt8 (253 + k))

def writeAccess : CallbackResult σ (253 + k - 10) :=
  ctx.callback .holding .write slave (area.drop 10) w.writeAddr w.nbWrite store

def readAccess : CallbackResult σ (253 + k - 2) :=
  ctx.callback .holding .read slave
    ((overlay area 10 (writeAccess ctx store slave w area).buffer).drop 2) w.readAddr w.nbRead
    (writeAccess ctx store slave w area).store

structure AcceptsBoth : Prop where
  write : (writeAccess ctx store slave w area).status = .enoerr
  read : (readAccess ctx store slave w area).status = .enoerr

structure WriteThenRead (r : RequestResult σ k) : Prop where
  calls : ∃ data, RegistersPacked w.values w.nbWrite data ∧
    r.calls = [⟨.holding, .write, slave, w.writeAddr, w.nbWrite, data, .enoerr⟩,
      ⟨.holding, .read, slave, w.readAddr, w.nbRead, [], .enoerr⟩]
  store : r.store = (readAccess ctx store slave w area).store

def DeliversRead (prepared : ModbusMasterCTX) (r : RequestResult σ k) : Prop :=
  ∀ (j : Nat) (reply : Vector UInt8 (253 + j)), Replied r reply →
    ∃ call, modbusRtuHandlerResponseRx prepared slave reply r.rspLen.toNat = some call ∧
      call.kind = .holding ∧ call.mode = .read ∧ call.addr = w.readAddr ∧
      call.nreg = w.nbRead ∧
      call.data reply = some (front (readAccess ctx store slave w area).buffer
        (dataSize .holding w.nbRead))

end Slave

section Request

variable {w : WriteRead} {slave : UInt8} {master prepared : ModbusMasterCTX}
  {area : Vector UInt8 (253 + k)}

theorem writeRead_header (asked : Asked (w.call slave) master prepared area) :
    word1 area = w.readAddr ∧ word3 area = w.nbRead ∧
      word5 area = w.writeAddr ∧ word7 area = w.nbWrite ∧
      byte9 area = registerBytes w.nbWrite := by
  have whole := asked.front_eq
  have long : 10 ≤ (w.call slave).pdu.length := by
    simp [WriteRead.call, MasterCall.pdu, wordBytes]
  have byte (i : Nat) (inside : i < 10) : area[i] = (w.call slave).pdu[i] :=
    getElem_of_front whole (by omega) (by omega)
  refine ⟨?_, ?_, ?_, ?_, byte 9 (by decide)⟩
  · rw [word1, byte 1 (by decide), byte 2 (by decide)]
    exact word_bytes w.readAddr
  · rw [word3, byte 3 (by decide), byte 4 (by decide)]
    exact word_bytes w.nbRead
  · rw [word5, byte 5 (by decide), byte 6 (by decide)]
    exact word_bytes w.writeAddr
  · rw [word7, byte 7 (by decide), byte 8 (by decide)]
    exact word_bytes w.nbWrite

theorem writeRead_length (w : WriteRead) (slave : UInt8) :
    (w.call slave).pdu.length = 10 + 2 * w.nbWrite.toNat := by
  have data := registerData_length w.values w.nbWrite.toNat 0
  simp only [WriteRead.call, MasterCall.pdu, wordBytes, List.length_append, List.length_cons,
    List.length_nil, data]
  omega

theorem writeRead_values (asked : Asked (w.call slave) master prepared area) :
    RegistersPacked w.values w.nbWrite
      (front (area.drop 10) (dataSize .holding w.nbWrite)) := by
  have whole := asked.front_eq
  have packed := registersPacked w.values w.nbWrite
  simp only [WriteRead.call, MasterCall.pdu] at whole
  rw [List.append_cons, List.length_append] at whole
  have values := (front_split (show 10 ≤ 253 + k by omega) whole).2
  change front (area.drop 10) _ = _ at values
  rw [packed.1] at values
  rwa [← values] at packed

theorem writeRead_accepted (range : w.InRange)
    (asked : Asked (w.call slave) master prepared area) : ReadWriteAccepts area := by
  rcases writeRead_header asked with ⟨-, nbRead, -, nbWrite, count⟩
  unfold ReadWriteAccepts
  simp only [nbRead, nbWrite, count]
  have bytes := registerBytes_toNat (Nat.lt_of_le_of_lt range.writes.2 (by decide))
  exact ⟨UInt16.le_iff_toNat_le.mpr range.reads.1, UInt16.le_iff_toNat_le.mpr range.reads.2,
    UInt16.le_iff_toNat_le.mpr range.writes.1, UInt16.le_iff_toNat_le.mpr range.writes.2,
    bytes.symm⟩

def afterWrite (ctx : ModbusSlaveCTX σ) (store : σ) (slave : UInt8) (w : WriteRead)
    (area : Vector UInt8 (253 + k)) : Handling σ k :=
  { pucFrame := overlay area 10 (writeAccess ctx store slave w area).buffer
    usLen := .ofNat (w.call slave).pdu.length
    store := (writeAccess ctx store slave w area).store
    calls := [⟨.holding, .write, slave, w.writeAddr, w.nbWrite,
      front (area.drop 10) (dataSize .holding w.nbWrite),
      (writeAccess ctx store slave w area).status⟩] }

theorem slaveAnswer_writeRead {ctx : ModbusSlaveCTX σ} {store : σ} (range : w.InRange)
    (asked : Asked (w.call slave) master prepared area)
    (accepts : AcceptsBoth ctx store slave w area) :
    slaveAnswer ctx (w.call slave) prepared area store =
      { ok := true
        rspLen := 2 + 2 * w.nbRead
        pdu := overlay (setHeader (overlay area 10 (writeAccess ctx store slave w area).buffer) 23
          (registerBytes w.nbRead)) 2 (readAccess ctx store slave w area).buffer
        store := (readAccess ctx store slave w area).store
        calls := [⟨.holding, .write, slave, w.writeAddr, w.nbWrite,
            front (area.drop 10) (dataSize .holding w.nbWrite), .enoerr⟩,
          ⟨.holding, .read, slave, w.readAddr, w.nbRead, [], .enoerr⟩] } := by
  rcases writeRead_header asked with ⟨readAddr, nbRead, writeAddr, nbWrite, -⟩
  have long : (requested (.ofNat (w.call slave).pdu.length) area store).usLen ≥ 10 := by
    have bound := range.writes.2
    rw [ge_iff_le, UInt16.le_iff_toNat_le]
    change 10 ≤ (UInt16.ofNat (w.call slave).pdu.length).toNat
    rw [writeRead_length, UInt16.toNat_ofNat', Nat.mod_eq_of_lt (by omega)]
    omega
  have checked : ReadWriteAccepts
      (requested (.ofNat (w.call slave).pdu.length) area store).pucFrame :=
    writeRead_accepted range asked
  rw [asked.answer]
  change requestFinish 23 (modbusFuncHandlerReadWriteMultipleHoldingRegisters ctx slave _) = _
  rw [readWrite_called ctx slave long checked]
  have wrote : invoke ctx .holding .write slave 10 w.writeAddr w.nbWrite
      (requested (.ofNat (w.call slave).pdu.length) area store) =
      ((writeAccess ctx store slave w area).status, afterWrite ctx store slave w area) := rfl
  have good : (answerCall ctx .holding slave w.readAddr w.nbRead
      (afterWrite ctx store slave w area)).status = .enoerr := accepts.read
  simp only [requested, readAddr, nbRead, writeAddr, nbWrite] at wrote ⊢
  rw [wrote, if_pos accepts.write, answerRead_eq]
  unfold answered
  rw [good, requestFinish_conclude]
  simp only [afterWrite, accepts.write]
  rfl

theorem writeRead_response (asked : Asked (w.call slave) master prepared area)
    {reply : Vector UInt8 (253 + j)} {len : Int} (first : byte0 reply = 23)
    (count : (byte1 reply).toNat = 2 * w.nbRead.toNat)
    (length : len = 2 + ((byte1 reply).toNat : Int)) :
    modbusRtuHandlerResponseRx prepared slave reply len =
      some ⟨.holding, slave, w.readAddr, w.nbRead, none, .read⟩ := by
  rcases asked.encoded.saved with ⟨func, -, addr, nb, -⟩
  have halved : (byte1 reply).toUInt16 / 2 = w.nbRead := registersCounted count
  change prepared.reqFunc = 23 at func
  change prepared.reqRegAddr = w.readAddr at addr
  change prepared.reqNb = w.nbRead at nb
  simp [modbusRtuHandlerResponseRx, modbusRtuValidateResponse, responseCallback, func, addr, nb,
    first, length, halved]

theorem writeRead_reply {ctx : ModbusSlaveCTX σ} {store : σ} (range : w.InRange)
    (asked : Asked (w.call slave) master prepared area)
    (accepts : AcceptsBoth ctx store slave w area) {reply : Vector UInt8 (253 + j)}
    (replied : Replied (slaveAnswer ctx (w.call slave) prepared area store) reply) :
    modbusRtuHandlerResponseRx prepared slave reply
        (slaveAnswer ctx (w.call slave) prepared area store).rspLen.toNat =
        some ⟨.holding, slave, w.readAddr, w.nbRead, none, .read⟩ ∧
      front (reply.drop 2) (dataSize .holding w.nbRead) =
        front (readAccess ctx store slave w area).buffer (dataSize .holding w.nbRead) := by
  have answer := slaveAnswer_writeRead range asked accepts
  have bound := range.reads.2
  have length : (2 + 2 * w.nbRead).toNat = 2 + dataSize .holding w.nbRead := by
    rw [UInt16.toNat_add, UInt16.toNat_mul]
    simp only [dataSize, UInt16.reduceToNat]
    omega
  unfold Replied at replied
  rw [answer] at replied ⊢
  dsimp only at replied
  rw [length] at replied
  rcases values_of_front replied with ⟨first, second, values⟩
  have count : (byte1 reply).toNat = 2 * w.nbRead.toNat := by
    rw [second, registerBytes_toNat (by omega)]
  refine ⟨writeRead_response asked first count ?_, values⟩
  rw [count]
  dsimp only
  rw [length]
  rfl

theorem slaveAnswer_writeThenRead {ctx : ModbusSlaveCTX σ} {store : σ} (range : w.InRange)
    (asked : Asked (w.call slave) master prepared area)
    (accepts : AcceptsBoth ctx store slave w area) :
    WriteThenRead ctx store slave w area
      (slaveAnswer ctx (w.call slave) prepared area store) := by
  rw [slaveAnswer_writeRead range asked accepts]
  exact ⟨⟨_, writeRead_values asked, rfl⟩, rfl⟩

theorem not_deliversRead {ctx : ModbusSlaveCTX σ} {store : σ} (range : w.InRange)
    (asked : Asked (w.call slave) master prepared area)
    (accepts : AcceptsBoth ctx store slave w area) :
    ¬ DeliversRead ctx store slave w area prepared
      (slaveAnswer ctx (w.call slave) prepared area store) := by
  intro delivers
  rcases delivers k _ rfl with ⟨call, called, -, -, -, -, data⟩
  rw [(writeRead_reply range asked accepts rfl).1, Option.some.injEq] at called
  rw [← called] at data
  contradiction

end Request

/-- The slave writes first and reads what it has written, and the master's callback gets
the registers. -/
def WriteReadAgreement (ctx : ModbusSlaveCTX σ) (store : σ) (slave : UInt8) (w : WriteRead)
    (prepared : ModbusMasterCTX) (area : Vector UInt8 (253 + k)) : Prop :=
  WriteThenRead ctx store slave w area (slaveAnswer ctx (w.call slave) prepared area store) ∧
    DeliversRead ctx store slave w area prepared
      (slaveAnswer ctx (w.call slave) prepared area store)

/-- All goes well up to the last step, where the master's callback is handed no data. -/
theorem writeReadAgreement_never (ctx : ModbusSlaveCTX σ) (store : σ) {slave : UInt8}
    {w : WriteRead} {master prepared : ModbusMasterCTX} {area : Vector UInt8 (253 + k)}
    (range : w.InRange) (asked : Asked (w.call slave) master prepared area)
    (accepts : AcceptsBoth ctx store slave w area) :
    ¬ WriteReadAgreement ctx store slave w prepared area ∧
      WriteThenRead ctx store slave w area (slaveAnswer ctx (w.call slave) prepared area store) ∧
      ∀ (j : Nat) (reply : Vector UInt8 (253 + j)),
        Replied (slaveAnswer ctx (w.call slave) prepared area store) reply →
        modbusRtuHandlerResponseRx prepared slave reply
            (slaveAnswer ctx (w.call slave) prepared area store).rspLen.toNat =
            some ⟨.holding, slave, w.readAddr, w.nbRead, none, .read⟩ ∧
          front (reply.drop 2) (dataSize .holding w.nbRead) =
            front (readAccess ctx store slave w area).buffer (dataSize .holding w.nbRead) := by
  refine ⟨fun agreement => ?_, slaveAnswer_writeThenRead range asked accepts, ?_⟩
  · exact not_deliversRead range asked accepts agreement.2
  · intro j reply replied
    exact writeRead_reply range asked accepts replied

def oneEach : WriteRead := ⟨0, 1, fun _ => 7, 1, 1⟩

theorem oneEach_inRange : oneEach.InRange := ⟨by decide, by decide⟩

theorem oneEach_asked :
    ∃ prepared, Asked (oneEach.call 1) freshMaster prepared
      (blit (.replicate (253 + 0) 0) 0 (oneEach.call 1).pdu) :=
  @MasterCall.asked 0 (oneEach.call 1) freshMaster (by decide) (by decide)
    (.replicate (253 + 0) 0)

theorem oneEach_accepts :
    AcceptsBoth testSlave () 1 oneEach (blit (.replicate (253 + 0) 0) 0 (oneEach.call 1).pdu) :=
  ⟨rfl, rfl⟩

theorem writeReadAgreement_oneEach :
    ∃ prepared, ¬ WriteReadAgreement testSlave () 1 oneEach prepared
      (blit (.replicate (253 + 0) 0) 0 (oneEach.call 1).pdu) := by
  rcases oneEach_asked with ⟨prepared, asked⟩
  exact ⟨prepared,
    (writeReadAgreement_never testSlave () oneEach_inRange asked oneEach_accepts).1⟩

/-- Both accesses are accepted, and the register does not arrive. -/
theorem writeReadAgreement_fails :
    ∃ prepared,
      Asked (oneEach.call 1) freshMaster prepared
        (blit (.replicate (253 + 0) 0) 0 (oneEach.call 1).pdu) ∧
      AcceptsBoth testSlave () 1 oneEach
        (blit (.replicate (253 + 0) 0) 0 (oneEach.call 1).pdu) ∧
      ¬ WriteReadAgreement testSlave () 1 oneEach prepared
        (blit (.replicate (253 + 0) 0) 0 (oneEach.call 1).pdu) := by
  rcases oneEach_asked with ⟨prepared, asked⟩
  exact ⟨prepared, asked, oneEach_accepts,
    fun agreement => not_deliversRead oneEach_inRange asked oneEach_accepts agreement.2⟩

end KongjaExpress.Modbus
