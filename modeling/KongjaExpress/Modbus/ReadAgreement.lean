import KongjaExpress.Modbus.Exchange
import KongjaExpress.Modbus.RequestGrammar

/-! Master and slave on the four read functions. -/

namespace KongjaExpress.Modbus

open BigEndian Memory

variable {σ : Type} {k j : Nat}

@[simp] theorem startReply_drop (code byteCount : UInt8) (h : Handling σ k) :
    (startReply code byteCount h).pucFrame.drop 2 = h.pucFrame.drop 2 := by
  unfold startReply
  rw [drop_set _ _ _ _ _ (by omega), drop_set _ _ _ _ _ (by omega)]

section Answer

variable (ctx : ModbusSlaveCTX σ) (kind : RegKind) (code byteCount : UInt8) (growth : UInt16)
  (addr : UInt8) (usRegAddress usCount : UInt16) (h : Handling σ k)

def answerCall : CallbackResult σ (253 + k - 2) :=
  ctx.callback kind .read addr (h.pucFrame.drop 2) usRegAddress usCount h.store

def answered : Handling σ k :=
  { pucFrame := overlay (setHeader h.pucFrame code byteCount) 2
      (answerCall ctx kind addr usRegAddress usCount h).buffer
    usLen := 2
    store := (answerCall ctx kind addr usRegAddress usCount h).store
    calls := h.calls ++ [⟨kind, .read, addr, usRegAddress, usCount, [],
      (answerCall ctx kind addr usRegAddress usCount h).status⟩] }

theorem invoke_answer :
    invoke ctx kind .read addr 2 usRegAddress usCount (startReply code byteCount h) =
      ((answerCall ctx kind addr usRegAddress usCount h).status,
        answered ctx kind code byteCount addr usRegAddress usCount h) := by
  simp only [invoke, invokeOn, startReply_drop]
  rfl

theorem answerRead_eq :
    answerRead ctx kind code byteCount growth addr usRegAddress usCount h =
      conclude (answerCall ctx kind addr usRegAddress usCount h).status
        (answered ctx kind code byteCount addr usRegAddress usCount h)
        { answered ctx kind code byteCount addr usRegAddress usCount h with
          usLen := 2 + growth } := by
  rw [answerRead, invoke_answer]
  rfl

theorem answerRead_none_iff :
    (answerRead ctx kind code byteCount growth addr usRegAddress usCount h).1 = .none ↔
      (answerCall ctx kind addr usRegAddress usCount h).status = .enoerr := by
  rw [answerRead_eq, conclude_fst, prveMBError2Exception_none_iff]

end Answer

theorem front_pair {n : Nat} (memory : Vector UInt8 n) (bound : 2 ≤ n) :
    front memory 2 = [memory[0], memory[1]] := by
  rw [front_succ memory (by omega), front_succ memory (by omega), front_zero]
  rfl

theorem values_of_front {code byteCount : UInt8} {pucFrame : Vector UInt8 (253 + k)}
    {buffer : Vector UInt8 (253 + k - 2)} {reply : Vector UInt8 (253 + j)} {size : Nat}
    (same : front reply (2 + size) =
      front (overlay (setHeader pucFrame code byteCount) 2 buffer) (2 + size)) :
    byte0 reply = code ∧ byte1 reply = byteCount ∧
      front (reply.drop 2) size = front buffer size := by
  rw [front_add, front_add _ 2 size, drop_overlay] at same
  have lengths : (front reply 2).length =
      (front (overlay (setHeader pucFrame code byteCount) 2 buffer) 2).length := by
    rw [front_length _ (by omega), front_length _ (by omega)]
  rcases List.append_inj same lengths with ⟨header, values⟩
  rw [front_pair reply (by omega), front_pair _ (by omega)] at header
  simp only [List.cons.injEq, and_true, getElem_overlay_below _ _ _ _ _ (Nat.zero_lt_two),
    getElem_overlay_below _ _ _ _ _ (Nat.one_lt_two)] at header
  exact ⟨by simpa using header.1, by simpa using header.2, values⟩

def readOf : RegKind → ReadFunction
  | .coil => readCoils
  | .discrete => readDiscreteInputs
  | .holding => readHoldingRegister
  | .input => readInputRegister

def readCall (kind : RegKind) (slave : UInt8) (regAddr nb : UInt16) : MasterCall :=
  match kind with
  | .coil => .readCoils slave regAddr nb
  | .discrete => .readDiscreteInputs slave regAddr nb
  | .holding => .readHoldingRegisters slave regAddr nb
  | .input => .readInputRegisters slave regAddr nb

/-- The quantity the slave takes from the two bytes of `nb`. -/
def countedNb (kind : RegKind) (nb : UInt16) : UInt16 :=
  (readOf kind).count (highByte nb) (lowByte nb)

@[simp] theorem readOf_kind (kind : RegKind) : (readOf kind).kind = kind := by
  cases kind <;> rfl

@[simp] theorem readCall_slave (kind : RegKind) (slave : UInt8) (regAddr nb : UInt16) :
    (readCall kind slave regAddr nb).slave = slave := by
  cases kind <;> rfl

theorem readCall_pdu (kind : RegKind) (slave : UInt8) (regAddr nb : UInt16) :
    (readCall kind slave regAddr nb).pdu =
      (readOf kind).code :: wordBytes regAddr ++ wordBytes nb := by
  cases kind <;> rfl

theorem dispatch_read (kind : RegKind) (ctx : ModbusSlaveCTX σ) (addr : UInt8)
    (h : Handling σ k) :
    requestDispatch (readOf kind).code ctx addr h = readHandler (readOf kind) ctx addr h := by
  cases kind <;> rfl

section Request

variable (ctx : ModbusSlaveCTX σ) (store : σ) (kind : RegKind) (slave : UInt8)
  (regAddr nb : UInt16) {master prepared : ModbusMasterCTX} {area : Vector UInt8 (253 + k)}

def readAnswer (area : Vector UInt8 (253 + k)) (usCount : UInt16) :
    CallbackResult σ (253 + k - 2) :=
  ctx.callback kind .read slave (area.drop 2) regAddr usCount store

theorem slaveAnswer_read (asked : Asked (readCall kind slave regAddr nb) master prepared area) :
    slaveAnswer ctx (readCall kind slave regAddr nb) prepared area store =
      requestFinish (readOf kind).code
        (if (readOf kind).valid (countedNb kind nb) then
          answerRead ctx kind (readOf kind).code ((readOf kind).byteCount (countedNb kind nb))
            ((readOf kind).growth (countedNb kind nb)) slave regAddr (countedNb kind nb)
            (requested 5 area store)
        else (.illegalDataValue, requested 5 area store)) := by
  have pdu := asked.front_eq
  rw [readCall_pdu, ← List.append_nil (wordBytes nb), ← List.append_assoc] at pdu
  rcases header_of_front (by omega) pdu with ⟨code, addr, high, low⟩
  have length : (UInt16.ofNat prepared.txPdu.length) = 5 := by
    rw [txPdu_of_encoded asked.encoded, readCall_pdu]
    rfl
  unfold slaveAnswer modbusRtuHandlerRequestRx
  dsimp only
  rw [length, show byte0 area = (readOf kind).code from code, dispatch_read, readCall_slave]
  unfold readHandler
  simp only [requested, if_true, addr, high, low, readOf_kind]
  rfl

theorem slaveAnswer_ok_iff
    (asked : Asked (readCall kind slave regAddr nb) master prepared area) :
    (slaveAnswer ctx (readCall kind slave regAddr nb) prepared area store).ok = true ↔
      (readOf kind).valid (countedNb kind nb) = true ∧
        (readAnswer ctx store kind slave regAddr area (countedNb kind nb)).status = .enoerr := by
  rw [slaveAnswer_read ctx store kind slave regAddr nb asked, requestFinish_ok_iff]
  split
  · rename_i valid
    rw [answerRead_none_iff, and_iff_right valid]
    rfl
  · rename_i refused
    exact iff_of_false (by simp) fun both => refused both.1

theorem slaveAnswer_read_ok
    (asked : Asked (readCall kind slave regAddr nb) master prepared area)
    (ok : (slaveAnswer ctx (readCall kind slave regAddr nb) prepared area store).ok = true) :
    slaveAnswer ctx (readCall kind slave regAddr nb) prepared area store =
      { ok := true
        rspLen := 2 + (readOf kind).growth (countedNb kind nb)
        pdu := overlay (setHeader area (readOf kind).code
          ((readOf kind).byteCount (countedNb kind nb))) 2
          (readAnswer ctx store kind slave regAddr area (countedNb kind nb)).buffer
        store := (readAnswer ctx store kind slave regAddr area (countedNb kind nb)).store
        calls := [⟨kind, .read, slave, regAddr, countedNb kind nb, [], .enoerr⟩] } := by
  rcases (slaveAnswer_ok_iff ctx store kind slave regAddr nb asked).mp ok with ⟨valid, good⟩
  rw [slaveAnswer_read ctx store kind slave regAddr nb asked, if_pos valid, answerRead_eq]
  change (answerCall ctx kind slave regAddr (countedNb kind nb) (requested 5 area store)).status =
    .enoerr at good
  unfold answered
  rw [good]
  rfl

end Request

theorem readOf_sizes {kind : RegKind} {n : UInt16} (valid : (readOf kind).valid n = true) :
    ((readOf kind).byteCount n).toNat = dataSize kind n ∧
      (2 + (readOf kind).growth n).toNat = 2 + dataSize kind n ∧ dataSize kind n ≤ 250 := by
  have fits := (readOf kind).fits n valid
  rw [readOf_kind] at fits
  have sum : (2 + (readOf kind).growth n).toNat = 2 + dataSize kind n := by
    rw [UInt16.toNat_add, fits.2.1]
    exact Nat.mod_eq_of_lt (by simp; omega)
  refine ⟨?_, sum, fits.2.2⟩
  have small := fits.2.2
  cases kind with
  | coil | discrete =>
      rw [dataSize] at small
      exact coilBytes_toNat (by omega)
  | holding | input =>
      rw [dataSize] at small
      exact registerBytes_toNat (by omega)

theorem readReply_valid {kind : RegKind} {prepared : ModbusMasterCTX} {slave : UInt8}
    {reply : Vector UInt8 (253 + j)} (valid : (readOf kind).valid prepared.reqNb = true)
    (func : prepared.reqFunc = (readOf kind).code) (first : byte0 reply = (readOf kind).code)
    (second : byte1 reply = (readOf kind).byteCount prepared.reqNb) :
    modbusRtuValidateResponse prepared slave reply
      (2 + (readOf kind).growth prepared.reqNb).toNat = true := by
  rcases readOf_sizes valid with ⟨count, sum, small⟩
  rw [← second] at count
  have length : ((2 + (readOf kind).growth prepared.reqNb).toNat : Int) =
      2 + ((byte1 reply).toNat : Int) := by
    rw [sum, count]
    rfl
  unfold modbusRtuValidateResponse
  rw [if_neg (by rw [func, first]; simp), length]
  cases kind with
  | coil | discrete =>
      have enough : ¬ (byte1 reply).toUInt16 * 8 < prepared.reqNb := by
        rw [UInt16.lt_iff_toNat_lt, coilsCounted_toNat, count, dataSize]
        omega
      simp [func, readOf, readCoils, readDiscreteInputs, enough]
  | holding | input =>
      have halved : (byte1 reply).toUInt16 / 2 = prepared.reqNb := registersCounted count
      simp [func, readOf, readHoldingRegister, readInputRegister, halved]

theorem responseCallback_read {kind : RegKind} {prepared : ModbusMasterCTX} (slave : UInt8)
    (func : prepared.reqFunc = (readOf kind).code) :
    responseCallback prepared slave =
      some ⟨kind, slave, prepared.reqRegAddr, prepared.reqNb, some 2, .read⟩ := by
  unfold responseCallback
  cases kind <;> rw [func] <;> rfl

/-- A response about another number of registers than was asked for is rejected. -/
theorem registersReply_rejected {prepared : ModbusMasterCTX} {slave : UInt8} {n : UInt16}
    {reply : Vector UInt8 (253 + j)} (func : prepared.reqFunc = 3)
    (valid : (readOf .holding).valid n = true) (second : byte1 reply = registerBytes n)
    (other : prepared.reqNb ≠ n) (len : Int) :
    modbusRtuHandlerResponseRx prepared slave reply len = none := by
  have halved : (byte1 reply).toUInt16 / 2 = n := by
    have count : (registerBytes n).toNat = 2 * n.toNat := (readOf_sizes valid).1
    rw [second]
    exact registersCounted count
  unfold modbusRtuHandlerResponseRx
  apply if_pos
  unfold modbusRtuValidateResponse
  split
  · exact Bool.false_ne_true
  · simp only [func, halved, if_pos other]
    split <;> exact Bool.false_ne_true

structure ReadDelivery (ctx : ModbusSlaveCTX σ) (store : σ) (kind : RegKind) (slave : UInt8)
    (regAddr nb : UInt16) (prepared : ModbusMasterCTX) (area : Vector UInt8 (253 + k))
    (r : RequestResult σ k) (reply : Vector UInt8 (253 + j)) : Prop where
  called : modbusRtuHandlerResponseRx prepared slave reply r.rspLen.toNat =
    some ⟨kind, slave, regAddr, nb, some 2, .read⟩
  once : r.calls = [⟨kind, .read, slave, regAddr, nb, [], .enoerr⟩]
  values : front (reply.drop 2) (dataSize kind nb) =
    front (readAnswer ctx store kind slave regAddr area nb).buffer (dataSize kind nb)

/-- A successful response reaches the master's callback with what was asked for. -/
def ReadAgreement (ctx : ModbusSlaveCTX σ) (store : σ) (kind : RegKind) (slave : UInt8)
    (regAddr nb : UInt16) (prepared : ModbusMasterCTX) (area : Vector UInt8 (253 + k)) : Prop :=
  (slaveAnswer ctx (readCall kind slave regAddr nb) prepared area store).ok = true →
    ∀ (j : Nat) (reply : Vector UInt8 (253 + j)),
      Replied (slaveAnswer ctx (readCall kind slave regAddr nb) prepared area store) reply →
      ReadDelivery ctx store kind slave regAddr nb prepared area
        (slaveAnswer ctx (readCall kind slave regAddr nb) prepared area store) reply

section Agreement

variable {ctx : ModbusSlaveCTX σ} {store : σ} {kind : RegKind} {slave : UInt8}
  {regAddr nb : UInt16} {master prepared : ModbusMasterCTX} {area : Vector UInt8 (253 + k)}

theorem Asked.readSaved (asked : Asked (readCall kind slave regAddr nb) master prepared area) :
    prepared.reqFunc = (readOf kind).code ∧ prepared.reqRegAddr = regAddr ∧
      prepared.reqNb = nb := by
  rcases asked.encoded.saved with ⟨func, -, addr, count, -⟩
  cases kind <;> exact ⟨func, addr, count⟩

theorem readReply_bytes (asked : Asked (readCall kind slave regAddr nb) master prepared area)
    (ok : (slaveAnswer ctx (readCall kind slave regAddr nb) prepared area store).ok = true)
    {reply : Vector UInt8 (253 + j)}
    (replied :
      Replied (slaveAnswer ctx (readCall kind slave regAddr nb) prepared area store) reply) :
    byte0 reply = (readOf kind).code ∧ byte1 reply = (readOf kind).byteCount (countedNb kind nb) ∧
      front (reply.drop 2) (dataSize kind (countedNb kind nb)) =
        front (readAnswer ctx store kind slave regAddr area (countedNb kind nb)).buffer
          (dataSize kind (countedNb kind nb)) := by
  have valid := ((slaveAnswer_ok_iff ctx store kind slave regAddr nb asked).mp ok).1
  unfold Replied at replied
  rw [slaveAnswer_read_ok ctx store kind slave regAddr nb asked ok, (readOf_sizes valid).2.1]
    at replied
  exact values_of_front replied

theorem readAgreement_of_counted (counted : countedNb kind nb = nb)
    (asked : Asked (readCall kind slave regAddr nb) master prepared area) :
    ReadAgreement ctx store kind slave regAddr nb prepared area := by
  intro ok j reply replied
  rcases readReply_bytes asked ok replied with ⟨first, second, values⟩
  rcases asked.readSaved with ⟨func, addr, count⟩
  have valid := ((slaveAnswer_ok_iff ctx store kind slave regAddr nb asked).mp ok).1
  have answer := slaveAnswer_read_ok ctx store kind slave regAddr nb asked ok
  rw [counted] at second values valid answer
  constructor
  · have accepted := @readReply_valid j kind prepared slave reply (by rwa [count]) func first
      (by rwa [count])
    rw [answer]
    dsimp only
    rw [← count]
    unfold modbusRtuHandlerResponseRx
    rw [if_neg (not_not.mpr accepted), responseCallback_read slave func, addr]
  · rw [answer]
  · exact values

theorem not_readAgreement (other : countedNb .holding nb ≠ nb)
    (asked : Asked (readCall .holding slave regAddr nb) master prepared area)
    (ok : (slaveAnswer ctx (readCall .holding slave regAddr nb) prepared area store).ok = true) :
    ¬ ReadAgreement ctx store .holding slave regAddr nb prepared area := by
  intro agreement
  rcases asked.readSaved with ⟨func, -, count⟩
  have valid := ((slaveAnswer_ok_iff ctx store .holding slave regAddr nb asked).mp ok).1
  have bytes := readReply_bytes asked ok (j := k) rfl
  have called := (agreement ok k _ rfl).called
  rw [registersReply_rejected func valid bytes.2.1 (by rw [count]; exact other.symm)] at called
  contradiction

theorem countedNb_eq_iff (kind : RegKind) (nb : UInt16) :
    countedNb kind nb = nb ↔ (kind = .holding → nb.toNat < 256) := by
  cases kind with
  | coil | discrete | input => exact iff_of_true (word_bytes nb) (by simp)
  | holding =>
      change (lowByte nb).toUInt16 = nb ↔ _
      rw [← UInt16.toNat_inj, UInt8.toNat_toUInt16, lowByte_toNat, imp_iff_right rfl]
      omega

theorem holding_valid_iff (nb : UInt16) :
    (readOf .holding).valid (countedNb .holding nb) = true ↔
      nb.toNat % 256 ≠ 0 ∧ nb.toNat % 256 ≤ 125 := by
  have low : (countedNb .holding nb).toNat = nb.toNat % 256 := by
    change (lowByte nb).toUInt16.toNat = _
    rw [UInt8.toNat_toUInt16, lowByte_toNat]
  simp only [readOf, readHoldingRegister, Bool.and_eq_true, decide_eq_true_eq,
    UInt16.le_iff_toNat_le, low]
  exact and_congr_left' Nat.pos_iff_ne_zero

/-- The one quantity that is read in another width: that of the holding registers. -/
theorem readAgreement_iff (ctx : ModbusSlaveCTX σ) (store : σ)
    (asked : Asked (readCall kind slave regAddr nb) master prepared area) :
    ReadAgreement ctx store kind slave regAddr nb prepared area ↔
      (kind = .holding → nb.toNat < 256 ∨ nb.toNat % 256 = 0 ∨ 125 < nb.toNat % 256 ∨
        (readAnswer ctx store .holding slave regAddr area (lowByte nb).toUInt16).status ≠
          .enoerr) := by
  constructor
  · rintro agreement rfl
    by_contra fails
    simp only [not_or, not_lt, not_not] at fails
    rcases fails with ⟨large, some, small, good⟩
    have other : countedNb .holding nb ≠ nb := by
      rw [Ne, countedNb_eq_iff, imp_iff_right rfl]
      omega
    have valid := (holding_valid_iff nb).mpr ⟨some, small⟩
    have ok := (slaveAnswer_ok_iff ctx store .holding slave regAddr nb asked).mpr ⟨valid, good⟩
    exact not_readAgreement other asked ok agreement
  · intro condition
    by_cases counted : countedNb kind nb = nb
    · exact readAgreement_of_counted counted asked
    · rw [countedNb_eq_iff] at counted
      push Not at counted
      rcases counted with ⟨rfl, large⟩
      intro ok
      rcases (slaveAnswer_ok_iff ctx store .holding slave regAddr nb asked).mp ok with
        ⟨valid, good⟩
      rcases (holding_valid_iff nb).mp valid with ⟨some, small⟩
      rcases condition rfl with low | zero | high | failed
      · omega
      · contradiction
      · omega
      · exact absurd good failed

end Agreement

def freshMaster : ModbusMasterCTX := ⟨.replicate 512 0, 0, 0, 0, 0, 0, 0, 0⟩

/-- Ten registers are read and delivered. -/
theorem readAgreement_ten :
    ∃ prepared, ReadAgreement testSlave () .holding 1 0 10 prepared
      (blit (.replicate (253 + 0) 0) 0 (readCall .holding 1 0 10).pdu) := by
  rcases @MasterCall.asked 0 (readCall .holding 1 0 10) freshMaster (by decide) (by decide)
    (.replicate (253 + 0) 0) with ⟨prepared, asked⟩
  exact ⟨prepared, (readAgreement_iff testSlave () asked).mpr fun _ => Or.inl (by decide)⟩

/-- A request for 257 registers is answered with one, which the master rejects. -/
theorem readAgreement_fails :
    ∃ prepared,
      Asked (readCall .holding 1 0 257) freshMaster prepared
        (blit (.replicate (253 + 0) 0) 0 (readCall .holding 1 0 257).pdu) ∧
      ¬ ReadAgreement testSlave () .holding 1 0 257 prepared
        (blit (.replicate (253 + 0) 0) 0 (readCall .holding 1 0 257).pdu) := by
  rcases @MasterCall.asked 0 (readCall .holding 1 0 257) freshMaster (by decide) (by decide)
    (.replicate (253 + 0) 0) with ⟨prepared, asked⟩
  have other : countedNb .holding 257 ≠ 257 := by decide
  have ok := (slaveAnswer_ok_iff testSlave () .holding 1 0 257 asked).mpr ⟨by decide, rfl⟩
  exact ⟨prepared, asked, not_readAgreement other asked ok⟩

end KongjaExpress.Modbus
