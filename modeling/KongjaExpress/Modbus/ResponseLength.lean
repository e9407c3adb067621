import KongjaExpress.Modbus.RequestHandler

/-! The length of a response PDU. -/

namespace KongjaExpress.Modbus

open BigEndian Memory

variable {σ : Type} {k : Nat}

def PduLength (len : UInt16) : Prop := 1 ≤ len.toNat ∧ len.toNat ≤ 253

def LeavesPdu (r : MBException × Handling σ k) : Prop := r.1 = .none → PduLength r.2.usLen

theorem leavesPdu_refusal (h : Handling σ k) : LeavesPdu (.illegalDataValue, h) :=
  fun none => by simp at none

theorem leavesPdu_conclude {status : MBErrorCode} {failed answered : Handling σ k}
    (length : PduLength answered.usLen) : LeavesPdu (conclude status failed answered) := by
  unfold conclude
  split
  · rename_i error
    exact fun none => absurd (prveMBError2Exception_none_iff.mp none) error
  · exact fun _ => length

section Handlers

variable (ctx : ModbusSlaveCTX σ) (addr : UInt8) {h : Handling σ k}

theorem answerRead_leavesPdu (kind : RegKind) (code byteCount : UInt8)
    (growth usRegAddress usCount : UInt16) (bound : growth.toNat ≤ 250) :
    LeavesPdu (answerRead ctx kind code byteCount growth addr usRegAddress usCount h) := by
  apply leavesPdu_conclude
  have sum : (2 + growth).toNat = 2 + growth.toNat := by
    rw [UInt16.toNat_add]
    exact Nat.mod_eq_of_lt (by simp; omega)
  change PduLength (2 + growth)
  rw [PduLength, sum]
  omega

theorem readHandler_leavesPdu (f : ReadFunction) : LeavesPdu (readHandler f ctx addr h) := by
  by_cases called : f.Called h.usLen h.pucFrame
  · rw [readHandler_called ctx addr called]
    have fits := f.fits _ called.2
    exact answerRead_leavesPdu ctx addr _ _ _ _ _ _ (by omega)
  · rw [readHandler_refused ctx addr called]
    exact leavesPdu_refusal h

theorem writeHandler_leavesPdu (f : WriteFunction) : LeavesPdu (writeHandler f ctx addr h) := by
  by_cases called : f.Called h.usLen h.pucFrame
  · rw [writeHandler_called ctx addr called]
    exact leavesPdu_conclude (show PduLength 5 from ⟨by decide, by decide⟩)
  · rw [writeHandler_refused ctx addr called]
    exact leavesPdu_refusal h

theorem writeHoldingRegister_leavesPdu (length : PduLength h.usLen) :
    LeavesPdu (modbusFuncHandlerWriteHoldingRegister ctx addr h) := by
  unfold modbusFuncHandlerWriteHoldingRegister
  split
  · exact leavesPdu_conclude length
  · exact leavesPdu_refusal h

theorem writeCoil_leavesPdu (length : PduLength h.usLen) :
    LeavesPdu (modbusFuncHandlerWriteCoil ctx addr h) := by
  by_cases called : CoilCalled h.usLen h.pucFrame
  · rw [writeCoil_called ctx addr called]
    exact leavesPdu_conclude length
  · rw [writeCoil_refused ctx addr called]
    exact leavesPdu_refusal h

theorem readWrite_leavesPdu (length : PduLength h.usLen) :
    LeavesPdu (modbusFuncHandlerReadWriteMultipleHoldingRegisters ctx addr h) := by
  by_cases long : h.usLen ≥ 10
  · by_cases accepts : ReadWriteAccepts h.pucFrame
    · rw [readWrite_called ctx addr long accepts]
      split
      · apply answerRead_leavesPdu
        have small : (word3 h.pucFrame).toNat ≤ 125 :=
          UInt16.le_iff_toNat_le.mp accepts.2.1
        rw [UInt16.toNat_mul]
        simp
        omega
      · rename_i error
        exact fun none => absurd (prveMBError2Exception_none_iff.mp none) error
    · rw [readWrite_refused ctx addr long accepts]
      exact leavesPdu_refusal h
  · rw [readWrite_short ctx addr long]
    exact fun _ => length

theorem dispatch_leavesPdu (func : UInt8) (length : PduLength h.usLen) :
    LeavesPdu (requestDispatch func ctx addr h) := by
  unfold requestDispatch
  split
  · exact readHandler_leavesPdu ctx addr _
  · exact readHandler_leavesPdu ctx addr _
  · exact writeHandler_leavesPdu ctx addr _
  · exact writeHoldingRegister_leavesPdu ctx addr length
  · exact readWrite_leavesPdu ctx addr length
  · exact readHandler_leavesPdu ctx addr _
  · exact writeCoil_leavesPdu ctx addr length
  · exact writeHandler_leavesPdu ctx addr _
  · exact readHandler_leavesPdu ctx addr _
  · exact fun none => by simp at none

end Handlers

theorem requestRx_rspLen (ctx : ModbusSlaveCTX σ) (addr : UInt8) {len : UInt16}
    (length : PduLength len) (pdu : Vector UInt8 (253 + k)) (store : σ) :
    PduLength (modbusRtuHandlerRequestRx ctx addr len pdu store).rspLen := by
  have leaves := dispatch_leavesPdu ctx addr (h := requested len pdu store) pdu[0] length
  unfold modbusRtuHandlerRequestRx requestFinish
  dsimp only
  split
  · exact (show PduLength 2 from ⟨by decide, by decide⟩)
  · rename_i none
    exact leaves (not_not.mp none)

end KongjaExpress.Modbus
