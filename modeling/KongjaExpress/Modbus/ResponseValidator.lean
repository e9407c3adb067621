import KongjaExpress.Modbus.ResponseHandler

/-! What `modbus_rtu_validate_response` accepts, and which bytes of a frame the decision and the
callbacks rest on. -/

namespace KongjaExpress.Modbus

open BigEndian Memory

variable {k : Nat}

def Counted (func : UInt8) (right : Nat → Prop) (pdu : List UInt8) : Prop :=
  ∃ count data, pdu = func :: count :: data ∧ data.length = count.toNat ∧ right count.toNat

def echo (func : UInt8) (first second : UInt16) : List UInt8 :=
  func :: wordBytes first ++ wordBytes second

def NormalResponse (ctx : ModbusMasterCTX) (pdu : List UInt8) : Prop :=
  match ctx.reqFunc with
  | 1 | 2 => Counted ctx.reqFunc (· = (ctx.reqNb.toNat + 7) / 8) pdu
  | 3 | 4 | 23 => Counted ctx.reqFunc (· = 2 * ctx.reqNb.toNat) pdu
  | 5 | 6 => pdu = echo ctx.reqFunc ctx.reqRegAddr ctx.reqValue
  | 15 | 16 => pdu = echo ctx.reqFunc ctx.reqRegAddr ctx.reqNb
  | _ => False

/-- A whole reply with more bytes than the saved request has coils for, or with one byte more
than its registers have. -/
def Overcounted (ctx : ModbusMasterCTX) (pdu : List UInt8) : Prop :=
  match ctx.reqFunc with
  | 1 | 2 => Counted ctx.reqFunc ((ctx.reqNb.toNat + 7) / 8 < ·) pdu
  | 3 | 4 | 23 => Counted ctx.reqFunc (· = 2 * ctx.reqNb.toNat + 1) pdu
  | _ => False

/-- What the validator accepts, in terms of the bytes that were received. -/
def AcceptedResponse (ctx : ModbusMasterCTX) (pdu : List UInt8) : Prop :=
  match ctx.reqFunc with
  | 1 | 2 => Counted ctx.reqFunc (ctx.reqNb.toNat ≤ 8 * ·) pdu
  | 3 | 4 | 23 => Counted ctx.reqFunc (· / 2 = ctx.reqNb.toNat) pdu
  | 5 | 6 => pdu = echo ctx.reqFunc ctx.reqRegAddr ctx.reqValue
  | 15 | 16 => pdu = echo ctx.reqFunc ctx.reqRegAddr ctx.reqNb
  | _ => False

section Fronts

variable (pdu : Vector UInt8 (253 + k))

theorem front_two (m : Nat) :
    front pdu (2 + m) = byte0 pdu :: byte1 pdu :: front (pdu.drop 2) m := by
  rw [front_add, front_succ pdu (by omega), front_succ pdu (by omega), front_zero]
  rfl

theorem front_five : front pdu 5 = echo (byte0 pdu) (word1 pdu) (word3 pdu) := by
  rw [front_succ pdu (by omega), front_succ pdu (by omega), front_succ pdu (by omega),
    front_succ pdu (by omega), front_succ pdu (by omega), front_zero]
  simp [echo, wordBytes]

variable {pdu} {len : Nat}

theorem counted_front (short : len ≤ 253) {func : UInt8} {right : Nat → Prop} :
    Counted func right (front pdu len) ↔
      func = byte0 pdu ∧ len = 2 + (byte1 pdu).toNat ∧ right (byte1 pdu).toNat := by
  have size : (front pdu len).length = len := front_length pdu (by omega)
  constructor
  · rintro ⟨count, data, split, whole, counts⟩
    have two : len = 2 + data.length := by
      rw [split, List.length_cons, List.length_cons] at size
      omega
    rw [two, front_two] at split
    obtain ⟨code, rest⟩ := List.cons.inj split
    obtain ⟨rfl, -⟩ := List.cons.inj rest
    exact ⟨code.symm, by rw [two, whole], counts⟩
  · rintro ⟨rfl, two, counts⟩
    refine ⟨byte1 pdu, front (pdu.drop 2) (byte1 pdu).toNat, ?_, ?_, counts⟩
    · rw [two, front_two]
    · exact front_length _ (by omega)

theorem echo_front (short : len ≤ 253) {func : UInt8} {first second : UInt16} :
    front pdu len = echo func first second ↔
      func = byte0 pdu ∧ len = 5 ∧ word1 pdu = first ∧ word3 pdu = second := by
  have size : (front pdu len).length = len := front_length pdu (by omega)
  constructor
  · intro whole
    have five : len = 5 := by
      rw [whole] at size
      exact size.symm
    rw [five, front_five, echo, echo, List.cons_append, List.cons_append] at whole
    obtain ⟨code, words⟩ := List.cons.inj whole
    obtain ⟨left, right⟩ := List.append_inj words rfl
    exact ⟨code.symm, five, wordBytes_inj left, wordBytes_inj right⟩
  · rintro ⟨rfl, rfl, rfl, rfl⟩
    exact front_five pdu

end Fronts

theorem accepted_func {ctx : ModbusMasterCTX} {pdu : Vector UInt8 (253 + k)} {len : Nat}
    (short : len ≤ 253) (accepted : AcceptedResponse ctx (front pdu len)) :
    ctx.reqFunc = byte0 pdu := by
  unfold AcceptedResponse at accepted
  split at accepted
  case h_1 | h_2 | h_3 | h_4 | h_5 => exact ((counted_front short).mp accepted).1
  case h_6 | h_7 | h_8 | h_9 => exact ((echo_front short).mp accepted).1
  case h_10 => exact accepted.elim

theorem checked_iff {pduLen len : Int} {bad : Prop} [Decidable bad] :
    (if pduLen ≠ len then false else if bad then false else true) = true ↔
      pduLen = len ∧ ¬ bad := by
  by_cases whole : pduLen = len <;> simp [whole]

theorem validateResponse_iff (ctx : ModbusMasterCTX) (slave : UInt8)
    (pdu : Vector UInt8 (253 + k)) {pduLen : Int} (nonempty : 1 ≤ pduLen) (short : pduLen ≤ 253) :
    modbusRtuValidateResponse ctx slave pdu pduLen = true ↔
      AcceptedResponse ctx (front pdu pduLen.toNat) := by
  have fits : pduLen.toNat ≤ 253 := by omega
  have counted : pduLen = 2 + (byte1 pdu).toNat ↔ pduLen.toNat = 2 + (byte1 pdu).toNat := by omega
  have five : pduLen = 5 ↔ pduLen.toNat = 5 := by omega
  have coils : ¬ (byte1 pdu).toUInt16 * 8 < ctx.reqNb ↔
      ctx.reqNb.toNat ≤ 8 * (byte1 pdu).toNat := by
    rw [UInt16.lt_iff_toNat_lt, coilsCounted_toNat, Nat.not_lt]
  have registers : ctx.reqNb = (byte1 pdu).toUInt16 / 2 ↔
      (byte1 pdu).toNat / 2 = ctx.reqNb.toNat := by
    rw [← UInt16.toNat_inj, registersCounted_toNat, eq_comm]
  by_cases code : ctx.reqFunc = byte0 pdu
  · unfold modbusRtuValidateResponse AcceptedResponse
    rw [if_neg (not_not.mpr code)]
    split <;> rename_i func
    case h_1 | h_2 =>
        simp only [func, checked_iff, counted_front fits, and_iff_right (func.symm.trans code)]
        rw [counted, coils]
    case h_3 | h_4 | h_9 =>
        simp only [func, checked_iff, counted_front fits, and_iff_right (func.symm.trans code)]
        rw [counted, ne_eq, not_not, registers]
    case h_5 | h_6 =>
        simp only [func, echo_front fits, and_iff_right (func.symm.trans code), ← five]
        split_ifs <;> simp_all
    case h_7 | h_8 =>
        simp only [func, checked_iff, echo_front fits, and_iff_right (func.symm.trans code)]
        rw [five, not_or, ne_eq, ne_eq, not_not, not_not]
    case h_10 => simp
  · rw [modbusRtuValidateResponse, if_pos code]
    constructor
    · intro valid
      exact absurd valid Bool.false_ne_true
    · intro accepted
      exact absurd (accepted_func fits accepted) code

/-- What a callback may read where its data start: the items it is called for, and the two bytes
of a value that was written. -/
def AppCall.entitled (call : AppCall) : Nat :=
  match call.mode with
  | .read => dataSize call.kind call.nreg
  | .write => 2

theorem accepted_window {ctx : ModbusMasterCTX} {slave : UInt8} {pdu : List UInt8}
    (accepted : AcceptedResponse ctx pdu) {call : AppCall}
    (called : responseCallback ctx slave = some call) {start : Nat}
    (regs : call.regs = some start) : start + call.entitled ≤ pdu.length := by
  have bits : Counted ctx.reqFunc (ctx.reqNb.toNat ≤ 8 * ·) pdu →
      2 + (ctx.reqNb.toNat + 7) / 8 ≤ pdu.length := by
    rintro ⟨count, data, rfl, whole, counts⟩
    rw [List.length_cons, List.length_cons]
    omega
  have words : Counted ctx.reqFunc (· / 2 = ctx.reqNb.toNat) pdu →
      2 + 2 * ctx.reqNb.toNat ≤ pdu.length := by
    rintro ⟨count, data, rfl, whole, counts⟩
    rw [List.length_cons, List.length_cons]
    omega
  have echoed {second : UInt16} : pdu = echo ctx.reqFunc ctx.reqRegAddr second →
      3 + 2 ≤ pdu.length := by
    rintro rfl
    exact le_rfl
  unfold responseCallback at called
  unfold AcceptedResponse at accepted
  split at called <;> rename_i func
  case h_10 => simp at called
  -- a request for several items is answered without data
  case h_7 | h_8 | h_9 =>
      obtain rfl := Option.some.inj called
      cases regs
  all_goals
    obtain rfl := Option.some.inj called
    obtain rfl := Option.some.inj regs
    simp only [func] at accepted bits words echoed
  case h_1 | h_2 => exact bits accepted
  case h_3 | h_4 => exact words accepted
  case h_5 | h_6 => exact echoed accepted

/-- The decision and the callback rest on the bytes that were received, and a callback that is
given data is given bytes that were received. -/
theorem response_reads_received (ctx : ModbusMasterCTX) (slave : UInt8)
    (left right : Vector UInt8 (253 + k)) (pduLen : Int) (nonempty : 1 ≤ pduLen)
    (short : pduLen ≤ 253) (agree : AgreeBelow pduLen.toNat left right) :
    modbusRtuHandlerResponseRx ctx slave left pduLen =
        modbusRtuHandlerResponseRx ctx slave right pduLen ∧
      ∀ call start, modbusRtuHandlerResponseRx ctx slave left pduLen = some call →
        call.regs = some start → (start + call.entitled : Int) ≤ pduLen := by
  have decision : modbusRtuValidateResponse ctx slave left pduLen =
      modbusRtuValidateResponse ctx slave right pduLen := by
    rw [Bool.eq_iff_iff, validateResponse_iff ctx slave left nonempty short,
      validateResponse_iff ctx slave right nonempty short, agree.front_eq]
  refine ⟨by rw [modbusRtuHandlerResponseRx, modbusRtuHandlerResponseRx, decision], ?_⟩
  intro call start called regs
  rw [modbusRtuHandlerResponseRx] at called
  split_ifs at called with valid
  have accepted := (validateResponse_iff ctx slave left nonempty short).mp (not_not.mp valid)
  have window := accepted_window accepted called regs
  rw [front_length left (by omega)] at window
  omega

def outstanding (reqFunc : UInt8) (reqRegAddr reqNb reqValue : UInt16) : ModbusMasterCTX where
  txBuf := .replicate 512 0
  txNdx := 0
  pduOffset := 1
  reqFunc := reqFunc
  reqSlave := 1
  reqRegAddr := reqRegAddr
  reqNb := reqNb
  reqValue := reqValue

/-- A reply with one register in two frame buffers. -/
theorem response_reads_received_register :
    modbusRtuHandlerResponseRx (k := 0) (outstanding 3 7 1 0) 1
        (blit (.replicate 253 0) 0 [3, 2, 0, 9]) 4 =
      modbusRtuHandlerResponseRx (k := 0) (outstanding 3 7 1 0) 1
        (blit (.replicate 253 255) 0 [3, 2, 0, 9]) 4 :=
  (response_reads_received (k := 0) (outstanding 3 7 1 0) 1
    (blit (.replicate 253 0) 0 [3, 2, 0, 9]) (blit (.replicate 253 255) 0 [3, 2, 0, 9]) 4
    (by decide) (by decide) ((agreeBelow_zero _ _).blit le_rfl [3, 2, 0, 9])).1

section Counts

variable {func : UInt8} {right wrong either : Nat → Prop} {pdu : List UInt8}

theorem counted_or (split : ∀ n, either n ↔ right n ∨ wrong n) :
    Counted func either pdu ↔ Counted func right pdu ∨ Counted func wrong pdu := by
  constructor
  · rintro ⟨count, data, whole, size, counts⟩
    exact ((split _).mp counts).imp (fun holds => ⟨count, data, whole, size, holds⟩)
      fun holds => ⟨count, data, whole, size, holds⟩
  · rintro (⟨count, data, whole, size, counts⟩ | ⟨count, data, whole, size, counts⟩)
    · exact ⟨count, data, whole, size, (split _).mpr (.inl counts)⟩
    · exact ⟨count, data, whole, size, (split _).mpr (.inr counts)⟩

theorem counted_apart (apart : ∀ n, right n → ¬ wrong n) (counted : Counted func right pdu) :
    ¬ Counted func wrong pdu := by
  rcases counted with ⟨count, data, rfl, -, counts⟩
  rintro ⟨other, rest, whole, -, wrong⟩
  obtain ⟨rfl, -⟩ := List.cons.inj (List.cons.inj whole).2
  exact apart _ counts wrong

end Counts

/-- What is accepted is the normal response or one that is counted too high. -/
theorem accepted_iff (ctx : ModbusMasterCTX) (pdu : List UInt8) :
    AcceptedResponse ctx pdu ↔ NormalResponse ctx pdu ∨ Overcounted ctx pdu := by
  unfold AcceptedResponse NormalResponse Overcounted
  split <;> rename_i func
  case h_1 | h_2 =>
      simp only [func]
      apply counted_or
      intro n
      omega
  case h_3 | h_4 | h_5 =>
      simp only [func]
      apply counted_or
      intro n
      omega
  case h_6 | h_7 | h_8 | h_9 => simp [func]
  case h_10 => simp

theorem normal_not_overcounted {ctx : ModbusMasterCTX} {pdu : List UInt8}
    (normal : NormalResponse ctx pdu) : ¬ Overcounted ctx pdu := by
  unfold NormalResponse at normal
  unfold Overcounted
  split at normal <;> rename_i func
  case h_1 | h_2 =>
      simp only [func] at normal ⊢
      exact counted_apart (fun n right wrong => by omega) normal
  case h_3 | h_4 | h_5 =>
      simp only [func] at normal ⊢
      exact counted_apart (fun n right wrong => by omega) normal
  case h_6 | h_7 | h_8 | h_9 => simp [func]
  case h_10 => exact normal.elim

/-- The validator tells the normal response from the others except where a byte count is larger
than it should be. -/
theorem response_validated_iff (ctx : ModbusMasterCTX) (slave : UInt8)
    (pdu : Vector UInt8 (253 + k)) (pduLen : Int) (nonempty : 1 ≤ pduLen) (short : pduLen ≤ 253) :
    (modbusRtuValidateResponse ctx slave pdu pduLen = true ↔
        NormalResponse ctx (front pdu pduLen.toNat)) ↔
      ¬ Overcounted ctx (front pdu pduLen.toNat) := by
  rw [validateResponse_iff ctx slave pdu nonempty short, accepted_iff]
  have apart := @normal_not_overcounted ctx (front pdu pduLen.toNat)
  constructor
  · intro same wrong
    exact apart (same.mp (.inr wrong)) wrong
  · intro right
    exact or_iff_left right

/-- The reply with one register once more. -/
theorem response_validated_register :
    (modbusRtuValidateResponse (k := 0) (outstanding 3 7 1 0) 1
        (blit (.replicate 253 0) 0 [3, 2, 0, 9]) 4 = true ↔
      NormalResponse (outstanding 3 7 1 0)
        (front (blit (.replicate 253 0) 0 [3, 2, 0, 9] : Vector UInt8 253) 4)) ↔
      ¬ Overcounted (outstanding 3 7 1 0)
        (front (blit (.replicate 253 0) 0 [3, 2, 0, 9] : Vector UInt8 253) 4) :=
  response_validated_iff (k := 0) (outstanding 3 7 1 0) 1
    (blit (.replicate 253 0) 0 [3, 2, 0, 9]) 4 (by decide) (by decide)

/-- Three bytes for one register are accepted. -/
theorem response_validated_odd :
    modbusRtuValidateResponse (k := 0) (outstanding 3 7 1 0) 1
        (blit (.replicate 253 0) 0 [3, 3, 0, 9, 9]) 5 = true ∧
      ¬ NormalResponse (outstanding 3 7 1 0)
        (front (blit (.replicate 253 0) 0 [3, 3, 0, 9, 9] : Vector UInt8 253) 5) := by
  refine ⟨by decide +kernel, ?_⟩
  have bytes : front (blit (.replicate 253 0) 0 [3, 3, 0, 9, 9] : Vector UInt8 253) 5 =
      [3, 3, 0, 9, 9] := front_blit_zero _ _ (by decide)
  rw [bytes]
  rintro ⟨count, data, whole, -, counts⟩
  obtain ⟨rfl, -⟩ := List.cons.inj (List.cons.inj whole).2
  exact absurd counts (by decide)

end KongjaExpress.Modbus
