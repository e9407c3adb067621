import KongjaExpress.Modbus.Slave

/-! The function handlers of `modbus_func_*.c`, built without
`MODBUS_USE_REGISTER_NUMBER`. Offsets are those of the PDU: the function code at 0, a
register address at 1, a quantity at 3. -/

namespace KongjaExpress.Modbus

open BigEndian Memory

variable {σ : Type} {k : Nat}

section Offsets

/-! The bytes of a PDU at the offsets of the source, and the words that begin there. -/

variable (pdu : Vector UInt8 (253 + k))

abbrev byte0 : UInt8 := pdu[0]
abbrev byte1 : UInt8 := pdu[1]
abbrev byte3 : UInt8 := pdu[3]
abbrev byte4 : UInt8 := pdu[4]
abbrev byte5 : UInt8 := pdu[5]
abbrev byte9 : UInt8 := pdu[9]
abbrev word1 : UInt16 := word pdu[1] pdu[2]
abbrev word3 : UInt16 := word pdu[3] pdu[4]
abbrev word5 : UInt16 := word pdu[5] pdu[6]
abbrev word7 : UInt16 := word pdu[7] pdu[8]

abbrev setHeader (code second : UInt8) : Vector UInt8 (253 + k) := (pdu.set 0 code).set 1 second

end Offsets

/-- The bytes for a number of coils, computed as the handlers do. -/
def coilBytes (usCoilCount : UInt16) : UInt8 :=
  if usCoilCount &&& 0x0007 ≠ 0 then (usCoilCount / 8 + 1).toUInt8 else (usCoilCount / 8).toUInt8

def registerBytes (usRegCount : UInt16) : UInt8 := (usRegCount * 2).toUInt8

theorem coilBytes_toNat {usCoilCount : UInt16} (bound : usCoilCount.toNat < 2040) :
    (coilBytes usCoilCount).toNat = (usCoilCount.toNat + 7) / 8 := by
  have mask : (usCoilCount &&& 0x0007).toNat = usCoilCount.toNat % 8 :=
    Nat.and_two_pow_sub_one_eq_mod _ 3
  have zero : usCoilCount &&& 0x0007 = 0 ↔ usCoilCount.toNat % 8 = 0 := by
    rw [← UInt16.toNat_inj, mask]
    rfl
  have quotient : (usCoilCount / 8).toNat = usCoilCount.toNat / 8 := UInt16.toNat_div _ _
  have next : (usCoilCount / 8 + 1).toNat = usCoilCount.toNat / 8 + 1 := by
    rw [UInt16.toNat_add, quotient]
    exact Nat.mod_eq_of_lt (by simp; omega)
  unfold coilBytes
  split
  · rename_i partial'
    rw [Ne, zero] at partial'
    rw [UInt16.toNat_toUInt8, next]
    omega
  · rename_i whole
    rw [not_not, zero] at whole
    rw [UInt16.toNat_toUInt8, quotient]
    omega

theorem registerBytes_toNat {usRegCount : UInt16} (bound : usRegCount.toNat < 128) :
    (registerBytes usRegCount).toNat = 2 * usRegCount.toNat := by
  have doubled : (usRegCount * 2).toNat = 2 * usRegCount.toNat := by
    rw [UInt16.toNat_mul]
    simp
    omega
  rw [registerBytes, UInt16.toNat_toUInt8, doubled]
  omega

/-- The end of every handler, after its last callback: an error becomes an exception. -/
def conclude (eRegStatus : MBErrorCode) (failed answered : Handling σ k) :
    MBException × Handling σ k :=
  if eRegStatus ≠ .enoerr then (prveMBError2Exception eRegStatus, failed) else (.none, answered)

/-- `*pucFrameCur++` twice from the beginning of the PDU. -/
def startReply (code byteCount : UInt8) (h : Handling σ k) : Handling σ k :=
  { h with pucFrame := (h.pucFrame.set 0 code).set 1 byteCount, usLen := 2 }

/-- Function code, byte count, then the values the callback fills in; `growth` is what
`*usLen` grows by with them. -/
def answerRead (ctx : ModbusSlaveCTX σ) (kind : RegKind) (code byteCount : UInt8)
    (growth : UInt16) (addr : UInt8) (usRegAddress usCount : UInt16) (h : Handling σ k) :
    MBException × Handling σ k :=
  let (eRegStatus, h) :=
    invoke ctx kind .read addr 2 usRegAddress usCount (startReply code byteCount h)
  conclude eRegStatus h { h with usLen := h.usLen + growth }

/-- The functions that answer with the values of a number of items. -/
structure ReadFunction where
  kind : RegKind
  code : UInt8
  /-- The quantity, from the bytes at 3 and 4. -/
  count : UInt8 → UInt8 → UInt16
  valid : UInt16 → Bool
  byteCount : UInt16 → UInt8
  growth : UInt16 → UInt16
  fits : ∀ n, valid n = true →
    1 ≤ n.toNat ∧ (growth n).toNat = dataSize kind n ∧ dataSize kind n ≤ 250

def readHandler (f : ReadFunction) (ctx : ModbusSlaveCTX σ) (addr : UInt8)
    (h : Handling σ k) : MBException × Handling σ k :=
  if h.usLen = 5 then
    let usRegAddress := word h.pucFrame[1] h.pucFrame[2]
    let usCount := f.count h.pucFrame[3] h.pucFrame[4]
    if f.valid usCount then
      answerRead ctx f.kind f.code (f.byteCount usCount) (f.growth usCount) addr usRegAddress
        usCount h
    else (.illegalDataValue, h)
  else (.illegalDataValue, h)

theorem coil_fits {n : UInt16} (bound : n.toNat < 2000) :
    (coilBytes n).toUInt16.toNat = (n.toNat + 7) / 8 ∧ (n.toNat + 7) / 8 ≤ 250 := by
  rw [UInt8.toNat_toUInt16, coilBytes_toNat (by omega)]
  omega

theorem register_fits {n : UInt16} (bound : n.toNat ≤ 125) :
    (n * 2).toNat = 2 * n.toNat ∧ 2 * n.toNat ≤ 250 := by
  rw [UInt16.toNat_mul]
  simp
  omega

def readCoils : ReadFunction where
  kind := .coil
  code := 1
  count := word
  valid n := 1 ≤ n && n < 0x07D0
  byteCount := coilBytes
  growth n := (coilBytes n).toUInt16
  fits n valid := by
    simp only [Bool.and_eq_true, decide_eq_true_eq, UInt16.le_iff_toNat_le,
      UInt16.lt_iff_toNat_lt] at valid
    exact ⟨valid.1, coil_fits valid.2⟩

def readDiscreteInputs : ReadFunction where
  kind := .discrete
  code := 2
  count := word
  valid n := 1 ≤ n && n < 0x07D0
  byteCount := coilBytes
  growth n := (coilBytes n).toUInt16
  fits n valid := by
    simp only [Bool.and_eq_true, decide_eq_true_eq, UInt16.le_iff_toNat_le,
      UInt16.lt_iff_toNat_lt] at valid
    exact ⟨valid.1, coil_fits valid.2⟩

def readHoldingRegister : ReadFunction where
  kind := .holding
  code := 3
  -- the high byte is overwritten, not combined with the low one
  count _ low := low.toUInt16
  valid n := 1 ≤ n && n ≤ 0x007D
  byteCount := registerBytes
  growth n := n * 2
  fits n valid := by
    simp only [Bool.and_eq_true, decide_eq_true_eq, UInt16.le_iff_toNat_le] at valid
    exact ⟨valid.1, register_fits valid.2⟩

def readInputRegister : ReadFunction where
  kind := .input
  code := 4
  count := word
  valid n := 1 ≤ n && n < 0x007D
  byteCount := registerBytes
  growth n := n * 2
  fits n valid := by
    simp only [Bool.and_eq_true, decide_eq_true_eq, UInt16.le_iff_toNat_le,
      UInt16.lt_iff_toNat_lt] at valid
    exact ⟨valid.1, register_fits valid.2.le⟩

def modbusFuncHandlerReadCoils (ctx : ModbusSlaveCTX σ) (addr : UInt8) (h : Handling σ k) :=
  readHandler readCoils ctx addr h

def modbusFuncHandlerReadDiscreteInputs (ctx : ModbusSlaveCTX σ) (addr : UInt8)
    (h : Handling σ k) :=
  readHandler readDiscreteInputs ctx addr h

def modbusFuncHandlerReadHoldingRegister (ctx : ModbusSlaveCTX σ) (addr : UInt8)
    (h : Handling σ k) :=
  readHandler readHoldingRegister ctx addr h

def modbusFuncHandlerReadInputRegister (ctx : ModbusSlaveCTX σ) (addr : UInt8)
    (h : Handling σ k) :=
  readHandler readInputRegister ctx addr h

/-- The functions that write a number of items: byte count at 5, values from 6 on. -/
structure WriteFunction where
  kind : RegKind
  /-- The check of `*usLen`. -/
  long : UInt16 → Bool
  max : UInt16
  /-- What the byte count is compared with. -/
  verify : UInt16 → UInt8
  long_iff : ∀ usLen, long usLen = true ↔ 6 ≤ usLen.toNat
  fits : ∀ n : UInt16, n ≤ max → (verify n).toNat = dataSize kind n ∧ dataSize kind n ≤ 246

def WriteFunction.Accepts (f : WriteFunction) (pucFrame : Vector UInt8 (253 + k)) : Prop :=
  let usCount := word pucFrame[3] pucFrame[4]
  1 ≤ usCount ∧ usCount ≤ f.max ∧ f.verify usCount = pucFrame[5]

instance (f : WriteFunction) (pucFrame : Vector UInt8 (253 + k)) :
    Decidable (f.Accepts pucFrame) :=
  inferInstanceAs (Decidable (_ ∧ _))

def writeHandler (f : WriteFunction) (ctx : ModbusSlaveCTX σ) (addr : UInt8)
    (h : Handling σ k) : MBException × Handling σ k :=
  if f.long h.usLen then
    let usRegAddress := word h.pucFrame[1] h.pucFrame[2]
    let usCount := word h.pucFrame[3] h.pucFrame[4]
    if f.Accepts h.pucFrame then
      let (eRegStatus, h) := invoke ctx f.kind .write addr 6 usRegAddress usCount h
      -- the response is the request's first five bytes
      conclude eRegStatus h { h with usLen := 5 }
    else (.illegalDataValue, h)
  else (.illegalDataValue, h)

def writeMultipleCoils : WriteFunction where
  kind := .coil
  long usLen := usLen > 5
  max := 0x07B0
  verify := coilBytes
  long_iff usLen := by
    rw [decide_eq_true_eq, gt_iff_lt, UInt16.lt_iff_toNat_lt]
    exact Nat.lt_iff_add_one_le
  fits n bound := by
    have small : n.toNat ≤ 1968 := UInt16.le_iff_toNat_le.mp bound
    rw [coilBytes_toNat (by omega)]
    exact ⟨rfl, by simp only [dataSize]; omega⟩

def writeMultipleRegisters : WriteFunction where
  kind := .holding
  long usLen := usLen ≥ 6
  max := 0x0078
  verify := registerBytes
  long_iff usLen := by
    rw [decide_eq_true_eq, ge_iff_le, UInt16.le_iff_toNat_le]
    rfl
  fits n bound := by
    have small : n.toNat ≤ 120 := UInt16.le_iff_toNat_le.mp bound
    rw [registerBytes_toNat (by omega)]
    exact ⟨rfl, by simp only [dataSize]; omega⟩

def modbusFuncHandlerWriteMultipleCoils (ctx : ModbusSlaveCTX σ) (addr : UInt8)
    (h : Handling σ k) :=
  writeHandler writeMultipleCoils ctx addr h

def modbusFuncHandlerWriteMultipleHoldingRegisters (ctx : ModbusSlaveCTX σ) (addr : UInt8)
    (h : Handling σ k) :=
  writeHandler writeMultipleRegisters ctx addr h

def modbusFuncHandlerWriteHoldingRegister (ctx : ModbusSlaveCTX σ) (addr : UInt8)
    (h : Handling σ k) : MBException × Handling σ k :=
  if h.usLen = 5 then
    let usRegAddress := word h.pucFrame[1] h.pucFrame[2]
    let (eRegStatus, h) := invoke ctx .holding .write addr 3 usRegAddress 1 h
    conclude eRegStatus h h
  else (.illegalDataValue, h)

def modbusFuncHandlerWriteCoil (ctx : ModbusSlaveCTX σ) (addr : UInt8)
    (h : Handling σ k) : MBException × Handling σ k :=
  if h.usLen = 5 then
    let usRegAddress := word h.pucFrame[1] h.pucFrame[2]
    if h.pucFrame[4] = 0x00 ∧ (h.pucFrame[3] = 0xFF ∨ h.pucFrame[3] = 0x00) then
      let ucBuf : Vector UInt8 2 := #v[if h.pucFrame[3] = 0xFF then 1 else 0, 0]
      let (eRegStatus, h) := invokeOn ctx .coil .write addr ucBuf usRegAddress 1 h
      conclude eRegStatus h h
    else (.illegalDataValue, h)
  else (.illegalDataValue, h)

def ReadWriteAccepts (pucFrame : Vector UInt8 (253 + k)) : Prop :=
  let usRegReadCount := word pucFrame[3] pucFrame[4]
  let usRegWriteCount := word pucFrame[7] pucFrame[8]
  let ucRegWriteByteCount := pucFrame[9]
  1 ≤ usRegReadCount ∧ usRegReadCount ≤ 0x7D ∧ 1 ≤ usRegWriteCount ∧
    usRegWriteCount ≤ 0x79 ∧ 2 * usRegWriteCount.toNat = ucRegWriteByteCount.toNat

instance (pucFrame : Vector UInt8 (253 + k)) : Decidable (ReadWriteAccepts pucFrame) :=
  inferInstanceAs (Decidable (_ ∧ _))

def modbusFuncHandlerReadWriteMultipleHoldingRegisters (ctx : ModbusSlaveCTX σ)
    (addr : UInt8) (h : Handling σ k) : MBException × Handling σ k :=
  if h.usLen ≥ 10 then
    let usRegReadAddress := word h.pucFrame[1] h.pucFrame[2]
    let usRegReadCount := word h.pucFrame[3] h.pucFrame[4]
    let usRegWriteAddress := word h.pucFrame[5] h.pucFrame[6]
    let usRegWriteCount := word h.pucFrame[7] h.pucFrame[8]
    if ReadWriteAccepts h.pucFrame then
      let (eRegStatus, h) :=
        invoke ctx .holding .write addr 10 usRegWriteAddress usRegWriteCount h
      if eRegStatus = .enoerr then
        answerRead ctx .holding 23 (registerBytes usRegReadCount) (2 * usRegReadCount) addr
          usRegReadAddress usRegReadCount h
      else (prveMBError2Exception eRegStatus, h)
    else (.illegalDataValue, h)
  else
    -- a request too short for its header passes for an accepted one
    (.none, h)

def ReadFunction.Called (f : ReadFunction) (len : UInt16) (pdu : Vector UInt8 (253 + k)) : Prop :=
  len = 5 ∧ f.valid (f.count (byte3 pdu) (byte4 pdu)) = true

def WriteFunction.Called (f : WriteFunction) (len : UInt16) (pdu : Vector UInt8 (253 + k)) :
    Prop :=
  f.long len = true ∧ f.Accepts pdu

section Outcomes

variable (ctx : ModbusSlaveCTX σ) (addr : UInt8) {h : Handling σ k}

theorem readHandler_called {f : ReadFunction} (called : f.Called h.usLen h.pucFrame) :
    readHandler f ctx addr h =
      answerRead ctx f.kind f.code (f.byteCount (f.count (byte3 h.pucFrame) (byte4 h.pucFrame)))
        (f.growth (f.count (byte3 h.pucFrame) (byte4 h.pucFrame))) addr (word1 h.pucFrame)
        (f.count (byte3 h.pucFrame) (byte4 h.pucFrame)) h := by
  rw [readHandler, if_pos called.1]
  exact if_pos called.2

theorem readHandler_refused {f : ReadFunction} (refused : ¬ f.Called h.usLen h.pucFrame) :
    readHandler f ctx addr h = (.illegalDataValue, h) := by
  rw [readHandler]
  by_cases size : h.usLen = 5
  · rw [if_pos size]
    exact if_neg fun valid => refused ⟨size, valid⟩
  · exact if_neg size

theorem writeHandler_called {f : WriteFunction} (called : f.Called h.usLen h.pucFrame) :
    writeHandler f ctx addr h =
      conclude (invoke ctx f.kind .write addr 6 (word1 h.pucFrame) (word3 h.pucFrame) h).1
        (invoke ctx f.kind .write addr 6 (word1 h.pucFrame) (word3 h.pucFrame) h).2
        { (invoke ctx f.kind .write addr 6 (word1 h.pucFrame) (word3 h.pucFrame) h).2 with
          usLen := 5 } := by
  rw [writeHandler, if_pos called.1]
  exact if_pos called.2

theorem writeHandler_refused {f : WriteFunction} (refused : ¬ f.Called h.usLen h.pucFrame) :
    writeHandler f ctx addr h = (.illegalDataValue, h) := by
  rw [writeHandler]
  by_cases long : f.long h.usLen = true
  · rw [if_pos long]
    exact if_neg fun accepts => refused ⟨long, accepts⟩
  · exact if_neg long

def CoilCalled (len : UInt16) (pdu : Vector UInt8 (253 + k)) : Prop :=
  len = 5 ∧ byte4 pdu = 0x00 ∧ (byte3 pdu = 0xFF ∨ byte3 pdu = 0x00)

theorem writeCoil_called (called : CoilCalled h.usLen h.pucFrame) :
    modbusFuncHandlerWriteCoil ctx addr h =
      conclude (invokeOn ctx .coil .write addr #v[if byte3 h.pucFrame = 0xFF then 1 else 0, 0]
          (word1 h.pucFrame) 1 h).1
        (invokeOn ctx .coil .write addr #v[if byte3 h.pucFrame = 0xFF then 1 else 0, 0]
          (word1 h.pucFrame) 1 h).2
        (invokeOn ctx .coil .write addr #v[if byte3 h.pucFrame = 0xFF then 1 else 0, 0]
          (word1 h.pucFrame) 1 h).2 := by
  rw [modbusFuncHandlerWriteCoil, if_pos called.1]
  exact if_pos called.2

theorem writeCoil_refused (refused : ¬ CoilCalled h.usLen h.pucFrame) :
    modbusFuncHandlerWriteCoil ctx addr h = (.illegalDataValue, h) := by
  rw [modbusFuncHandlerWriteCoil]
  by_cases size : h.usLen = 5
  · rw [if_pos size]
    exact if_neg fun value => refused ⟨size, value⟩
  · exact if_neg size

/-- A request to write and read is answered with values only behind a write without an error. -/
theorem readWrite_called (long : h.usLen ≥ 10) (accepts : ReadWriteAccepts h.pucFrame) :
    modbusFuncHandlerReadWriteMultipleHoldingRegisters ctx addr h =
      if (invoke ctx .holding .write addr 10 (word5 h.pucFrame) (word7 h.pucFrame) h).1 =
          .enoerr then
        answerRead ctx .holding 23 (registerBytes (word3 h.pucFrame)) (2 * word3 h.pucFrame) addr
          (word1 h.pucFrame) (word3 h.pucFrame)
          (invoke ctx .holding .write addr 10 (word5 h.pucFrame) (word7 h.pucFrame) h).2
      else
        (prveMBError2Exception
          (invoke ctx .holding .write addr 10 (word5 h.pucFrame) (word7 h.pucFrame) h).1,
          (invoke ctx .holding .write addr 10 (word5 h.pucFrame) (word7 h.pucFrame) h).2) := by
  rw [modbusFuncHandlerReadWriteMultipleHoldingRegisters, if_pos long]
  exact if_pos accepts

theorem readWrite_refused (long : h.usLen ≥ 10) (rejects : ¬ ReadWriteAccepts h.pucFrame) :
    modbusFuncHandlerReadWriteMultipleHoldingRegisters ctx addr h = (.illegalDataValue, h) := by
  rw [modbusFuncHandlerReadWriteMultipleHoldingRegisters, if_pos long]
  exact if_neg rejects

theorem readWrite_short (short : ¬ h.usLen ≥ 10) :
    modbusFuncHandlerReadWriteMultipleHoldingRegisters ctx addr h = (.none, h) := if_neg short

end Outcomes

section CommonRequest

def CommonRequest {k l : Nat} (len : UInt16) (pdu : Vector UInt8 (253 + k))
    (pdu' : Vector UInt8 (253 + l)) : Prop :=
  ∀ i (inside' : i < 253 + l) (inside : i < 253 + k), i < len.toNat → pdu'[i] = pdu[i]

variable {l : Nat} {len : UInt16} {pdu : Vector UInt8 (253 + k)} {pdu' : Vector UInt8 (253 + l)}

theorem CommonRequest.byteAt (same : CommonRequest len pdu pdu') {i n : Nat} (within : i < n)
    (long : n ≤ len.toNat) (short : n ≤ 253) : pdu'[i] = pdu[i] :=
  same i (by omega) (by omega) (by omega)

theorem CommonRequest.wordAt (same : CommonRequest len pdu pdu') {i n : Nat} (within : i + 1 < n)
    (long : n ≤ len.toNat) (short : n ≤ 253) :
    word pdu'[i] pdu'[i + 1] = word pdu[i] pdu[i + 1] := by
  have first : i < n := by omega
  rw [same.byteAt first long short, same.byteAt within long short]

theorem CommonRequest.second (same : CommonRequest len pdu pdu') (five : len = 5) :
    byte3 pdu' = byte3 pdu ∧ byte4 pdu' = byte4 pdu := by
  have size : 5 ≤ len.toNat := five ▸ by decide
  exact ⟨same.byteAt (by omega) size (by omega), same.byteAt (by omega) size (by omega)⟩

theorem CommonRequest.readCalled (same : CommonRequest len pdu pdu') (f : ReadFunction) :
    f.Called len pdu' ↔ f.Called len pdu := by
  refine and_congr_right fun five => ?_
  rw [(same.second five).1, (same.second five).2]

theorem CommonRequest.writeCalled (same : CommonRequest len pdu pdu') (f : WriteFunction) :
    f.Called len pdu' ↔ f.Called len pdu := by
  refine and_congr_right fun long => ?_
  have six := (f.long_iff len).mp long
  have count : word pdu'[3] pdu'[4] = word pdu[3] pdu[4] := same.wordAt (by omega) six (by omega)
  have bytes : pdu'[5] = pdu[5] := same.byteAt (by omega) six (by omega)
  rw [WriteFunction.Accepts, WriteFunction.Accepts, count, bytes]

theorem CommonRequest.coilCalled (same : CommonRequest len pdu pdu') :
    CoilCalled len pdu' ↔ CoilCalled len pdu := by
  refine and_congr_right fun five => ?_
  rw [(same.second five).1, (same.second five).2]

theorem CommonRequest.readWriteAccepts (same : CommonRequest len pdu pdu') (long : len ≥ 10) :
    ReadWriteAccepts pdu' ↔ ReadWriteAccepts pdu := by
  have ten : 10 ≤ len.toNat := UInt16.le_iff_toNat_le.mp long
  have toRead : word pdu'[3] pdu'[4] = word pdu[3] pdu[4] := same.wordAt (by omega) ten (by omega)
  have toWrite : word pdu'[7] pdu'[8] = word pdu[7] pdu[8] := same.wordAt (by omega) ten (by omega)
  have bytes : pdu'[9] = pdu[9] := same.byteAt (by omega) ten (by omega)
  rw [ReadWriteAccepts, ReadWriteAccepts, toRead, toWrite, bytes]

end CommonRequest

end KongjaExpress.Modbus
