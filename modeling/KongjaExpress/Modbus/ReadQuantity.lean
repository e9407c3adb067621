import KongjaExpress.Modbus.ReadAgreement
import KongjaExpress.Modbus.ResponseValidator

/-! The limits of the quantities that may be read. -/

namespace KongjaExpress.Modbus

open BigEndian Memory

variable {σ : Type} {k : Nat}

/-- The read handler of each kind of register. -/
def modbusFuncHandlerRead (kind : RegKind) (ctx : ModbusSlaveCTX σ) (addr : UInt8)
    (h : Handling σ k) : MBException × Handling σ k :=
  match kind with
  | .coil => modbusFuncHandlerReadCoils ctx addr h
  | .discrete => modbusFuncHandlerReadDiscreteInputs ctx addr h
  | .holding => modbusFuncHandlerReadHoldingRegister ctx addr h
  | .input => modbusFuncHandlerReadInputRegister ctx addr h

/-- `MB_PDU_FUNC_READ_COILCNT_MAX`, `MB_PDU_FUNC_READ_DISCCNT_MAX` and
`MB_PDU_FUNC_READ_REGCNT_MAX`. -/
def readCntMax : RegKind → UInt16
  | .coil | .discrete => 0x07D0
  | .holding | .input => 0x007D

def Readable (kind : RegKind) (pdu : Vector UInt8 (253 + k)) : Prop :=
  1 ≤ word3 pdu ∧ word3 pdu ≤ readCntMax kind

instance (kind : RegKind) (pdu : Vector UInt8 (253 + k)) : Decidable (Readable kind pdu) :=
  inferInstanceAs (Decidable (_ ∧ _))

/-- What a read handler makes of a request: its callback, or an exception, and its response. -/
structure ReadLaw (kind : RegKind) (ctx : ModbusSlaveCTX σ) (addr : UInt8) (h : Handling σ k) :
    Prop where
  called : Readable kind h.pucFrame ↔ (modbusFuncHandlerRead kind ctx addr h).2.calls ≠ h.calls
  args : Readable kind h.pucFrame → ∃ status,
    (modbusFuncHandlerRead kind ctx addr h).2.calls =
      h.calls ++ [⟨kind, .read, addr, word1 h.pucFrame, word3 h.pucFrame, [], status⟩]
  refused : ¬ Readable kind h.pucFrame →
    (modbusFuncHandlerRead kind ctx addr h).1 = .illegalDataValue
  answers : Readable kind h.pucFrame → (modbusFuncHandlerRead kind ctx addr h).1 = .none →
    ∃ count : UInt8, count.toNat = dataSize kind (word3 h.pucFrame) ∧
      (modbusFuncHandlerRead kind ctx addr h).2.usLen.toNat = 2 + count.toNat ∧
      front (modbusFuncHandlerRead kind ctx addr h).2.pucFrame (2 + count.toNat) =
        (readOf kind).code :: count ::
          front (answerCall ctx kind addr (word1 h.pucFrame) (word3 h.pucFrame) h).buffer
            count.toNat

/-- The largest quantity is not asked for; of holding registers the quantity is in one byte, or
its low byte is no quantity. -/
def ReadsQuantity (kind : RegKind) (pdu : Vector UInt8 (253 + k)) : Prop :=
  match kind with
  | .holding => byte3 pdu = 0 ∨ ¬ (1 ≤ byte4 pdu ∧ byte4 pdu ≤ 125)
  | _ => word3 pdu ≠ readCntMax kind

instance (kind : RegKind) (pdu : Vector UInt8 (253 + k)) : Decidable (ReadsQuantity kind pdu) :=
  match kind with
  | .holding => inferInstanceAs (Decidable (_ ∨ _))
  | .coil | .discrete | .input => inferInstanceAs (Decidable (_ ≠ _))

theorem read_eq (kind : RegKind) (ctx : ModbusSlaveCTX σ) (addr : UInt8) {h : Handling σ k}
    (five : h.usLen = 5) : modbusFuncHandlerRead kind ctx addr h =
      if (readOf kind).valid ((readOf kind).count (byte3 h.pucFrame) (byte4 h.pucFrame)) then
        answerRead ctx kind (readOf kind).code
          ((readOf kind).byteCount ((readOf kind).count (byte3 h.pucFrame) (byte4 h.pucFrame)))
          ((readOf kind).growth ((readOf kind).count (byte3 h.pucFrame) (byte4 h.pucFrame))) addr
          (word1 h.pucFrame) ((readOf kind).count (byte3 h.pucFrame) (byte4 h.pucFrame)) h
      else (.illegalDataValue, h) := by
  have handler : modbusFuncHandlerRead kind ctx addr h = readHandler (readOf kind) ctx addr h := by
    cases kind <;> rfl
  rw [handler, readHandler, if_pos five, readOf_kind]

section Quantity

variable {kind : RegKind} {pdu : Vector UInt8 (253 + k)}

theorem count_readable (readable : Readable kind pdu) :
    (readOf kind).count (byte3 pdu) (byte4 pdu) = word3 pdu := by
  cases kind with
  | coil | discrete | input => rfl
  | holding =>
      have small : (word3 pdu).toNat ≤ 125 := UInt16.le_iff_toNat_le.mp readable.2
      rw [word_toNat] at small
      apply UInt16.toNat_inj.mp
      change pdu[4].toUInt16.toNat = _
      rw [UInt8.toNat_toUInt16, word_toNat]
      omega

/-- A limit that is compared with `<` refuses itself only. -/
theorem below_iff {q max : UInt16} (positive : 1 ≤ max) :
    ((1 ≤ q && q < max : Bool) = true ↔ 1 ≤ q ∧ q ≤ max) ↔ q ≠ max := by
  rw [Bool.and_eq_true, decide_eq_true_eq, decide_eq_true_eq, UInt16.le_iff_toNat_le,
    UInt16.lt_iff_toNat_lt, UInt16.le_iff_toNat_le, Ne, ← UInt16.toNat_inj]
  rw [UInt16.le_iff_toNat_le] at positive
  omega

/-- The handlers accept the quantities that may be read and no others, or nearly so. -/
theorem valid_iff :
    ((readOf kind).valid ((readOf kind).count (byte3 pdu) (byte4 pdu)) = true ↔
      Readable kind pdu) ↔ ReadsQuantity kind pdu := by
  cases kind with
  | coil | discrete | input => exact below_iff (by decide)
  | holding =>
      have zero : pdu[3] = 0 ↔ pdu[3].toNat = 0 := UInt8.toNat_inj.symm
      have low : pdu[4].toNat < 2 ^ 8 := pdu[4].toNat_lt
      simp only [readOf, readHoldingRegister, Readable, ReadsQuantity, readCntMax,
        Bool.and_eq_true, decide_eq_true_eq, UInt16.le_iff_toNat_le, UInt8.le_iff_toNat_le,
        UInt8.toNat_toUInt16, word_toNat, byte3, byte4, zero]
      simp only [UInt16.reduceToNat, UInt8.reduceToNat]
      omega

end Quantity

section Law

variable {kind : RegKind} {ctx : ModbusSlaveCTX σ} {addr : UInt8} {h : Handling σ k}

theorem answerRead_made (kind : RegKind) (ctx : ModbusSlaveCTX σ) (code byteCount : UInt8)
    (growth : UInt16) (addr : UInt8) (usRegAddress usCount : UInt16) (h : Handling σ k) :
    (answerRead ctx kind code byteCount growth addr usRegAddress usCount h).2.calls =
      h.calls ++ [⟨kind, .read, addr, usRegAddress, usCount, [],
        (answerCall ctx kind addr usRegAddress usCount h).status⟩] := by
  rw [answerRead_eq, conclude_calls (by rfl)]
  rfl

theorem read_called (five : h.usLen = 5)
    (valid : (readOf kind).valid ((readOf kind).count (byte3 h.pucFrame) (byte4 h.pucFrame)) =
      true) :
    (modbusFuncHandlerRead kind ctx addr h).2.calls ≠ h.calls := by
  rw [read_eq kind ctx addr five, if_pos valid, answerRead_made]
  intro same
  exact List.cons_ne_nil _ _ (List.append_right_eq_self.mp same)

theorem answered_front (ctx : ModbusSlaveCTX σ) (kind : RegKind) (code byteCount : UInt8)
    (addr : UInt8) (usRegAddress usCount : UInt16) (h : Handling σ k) :
    front (answered ctx kind code byteCount addr usRegAddress usCount h).pucFrame
        (2 + byteCount.toNat) =
      code :: byteCount ::
        front (answerCall ctx kind addr usRegAddress usCount h).buffer byteCount.toNat := by
  rw [front_two, answered, drop_overlay, byte0, byte1, getElem_overlay_below _ _ _ _ _ (by omega),
    getElem_overlay_below _ _ _ _ _ (by omega)]
  simp

theorem readLaw_answered (five : h.usLen = 5) (readable : Readable kind h.pucFrame)
    (valid : (readOf kind).valid (word3 h.pucFrame) = true) : ReadLaw kind ctx addr h := by
  have count := count_readable readable
  have result := read_eq kind ctx addr five
  rw [count, if_pos valid] at result
  constructor
  · exact iff_of_true readable (read_called five (by rwa [count]))
  · intro _
    rw [result]
    exact ⟨_, answerRead_made kind ctx _ _ _ addr _ _ h⟩
  · exact fun fails => absurd readable fails
  · intro _ none
    rcases readOf_sizes valid with ⟨bytes, size, -⟩
    rw [result] at none
    have good := (answerRead_none_iff ctx kind _ _ _ addr _ _ h).mp none
    refine ⟨(readOf kind).byteCount (word3 h.pucFrame), bytes, ?_, ?_⟩
    · rw [result, answerRead_eq, good, bytes]
      exact size
    · rw [result, answerRead_eq, good]
      exact answered_front ctx kind _ _ addr _ _ h

theorem readLaw_refused (five : h.usLen = 5) (readable : ¬ Readable kind h.pucFrame)
    (invalid : ¬ (readOf kind).valid
      ((readOf kind).count (byte3 h.pucFrame) (byte4 h.pucFrame)) = true) :
    ReadLaw kind ctx addr h := by
  have result := read_eq kind ctx addr five
  rw [if_neg invalid] at result
  constructor
  · rw [result]
    exact iff_of_false readable (not_not.mpr rfl)
  · exact fun holds => absurd holds readable
  · exact fun _ => by rw [result]
  · exact fun holds => absurd holds readable

/-- The handler of coils, of discrete inputs and of input registers keeps to the law unless the
largest quantity is asked for, the handler of holding registers if and only if the high byte of
the quantity does not matter. -/
theorem read_quantity_iff (kind : RegKind) (ctx : ModbusSlaveCTX σ) (addr : UInt8)
    (h : Handling σ k) (five : h.usLen = 5) :
    ReadLaw kind ctx addr h ↔ ReadsQuantity kind h.pucFrame := by
  rw [← valid_iff]
  constructor
  · intro law
    constructor
    · intro valid
      exact law.called.mpr (read_called five valid)
    · intro readable
      by_contra invalid
      have result := read_eq kind ctx addr five
      rw [if_neg invalid] at result
      exact law.called.mp readable (by rw [result])
  · intro valid
    by_cases readable : Readable kind h.pucFrame
    · have accepted := valid.mpr readable
      rw [count_readable readable] at accepted
      exact readLaw_answered five readable accepted
    · exact readLaw_refused five readable fun accepted => readable (valid.mp accepted)

end Law

def asksFor (code : UInt8) (nb : UInt16) : Handling Unit 0 :=
  requested 5 (blit (.replicate (253 + 0) 0) 0 (code :: wordBytes 7 ++ wordBytes nb)) ()

/-- Ten input registers. -/
theorem read_quantity_ten : ReadLaw .input testSlave 1 (asksFor 4 10) :=
  (read_quantity_iff .input testSlave 1 (asksFor 4 10) rfl).mpr (by decide +kernel)

/-- As many input registers as may be read are refused, and 257 holding registers are one. -/
theorem read_quantity_fails :
    ¬ ReadLaw .input testSlave 1 (asksFor 4 125) ∧
      ¬ ReadLaw .holding testSlave 1 (asksFor 3 257) := by
  constructor
  · intro law
    exact law.called.mp (by decide +kernel) (by decide +kernel)
  · intro law
    have large : ¬ Readable .holding (asksFor 3 257).pucFrame := by decide +kernel
    exact large (law.called.mpr (by decide +kernel))

end KongjaExpress.Modbus
