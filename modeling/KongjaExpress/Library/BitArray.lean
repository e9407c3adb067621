import KongjaExpress.Library.BigEndian

/-! Bytes seen as bits, the least significant bit of each byte first, and words of
sixteen bits among them. -/

namespace KongjaExpress.BitArray

open BigEndian

variable {n : Nat}

/-- Bit `p % 8` of byte `p / 8`; no bit behind the last byte is set. -/
def bitAt (bytes : Vector UInt8 n) (p : Nat) : Bool :=
  (bytes[p / 8]?.getD 0).toBitVec.getLsbD (p % 8)

def pair (bytes : Vector UInt8 n) (o : Nat) (inside : o + 1 < n) : UInt16 :=
  word bytes[o + 1] bytes[o]

def setPair (bytes : Vector UInt8 n) (o : Nat) (inside : o + 1 < n) (value : UInt16) :
    Vector UInt8 n :=
  (bytes.set o (lowByte value)).set (o + 1) (highByte value)

theorem bitAt_byte (bytes : Vector UInt8 n) {o i : Nat} (inside : o < n) (low : i < 8) :
    bitAt bytes (8 * o + i) = bytes[o].toBitVec.getLsbD i := by
  have byte : (8 * o + i) / 8 = o := by omega
  have bit : (8 * o + i) % 8 = i := by omega
  rw [bitAt, byte, bit, Vector.getElem?_eq_getElem inside, Option.getD_some]

theorem ext_bits {left right : Vector UInt8 n} (same : ∀ p, bitAt left p = bitAt right p) :
    left = right := by
  apply Vector.ext
  intro o inside
  apply UInt8.toBitVec_inj.mp
  apply BitVec.eq_of_getLsbD_eq
  intro i low
  calc left[o].toBitVec.getLsbD i = bitAt left (8 * o + i) := (bitAt_byte left inside low).symm
    _ = bitAt right (8 * o + i) := same _
    _ = right[o].toBitVec.getLsbD i := bitAt_byte right inside low

theorem getLsbD_word (high low : UInt8) (i : Nat) : (word high low).toBitVec.getLsbD i =
    if i < 8 then low.toBitVec.getLsbD i else high.toBitVec.getLsbD (i - 8) := by
  rw [← BitVec.testBit_toNat, UInt16.toNat_toBitVec, word_toNat, Nat.mul_comm,
    Nat.testBit_two_pow_mul_add (i := 8) _ low.toNat_lt]
  rfl

theorem getLsbD_lowByte (value : UInt16) {i : Nat} (low : i < 8) :
    (lowByte value).toBitVec.getLsbD i = value.toBitVec.getLsbD i := by
  have whole := congrArg (fun word => word.toBitVec.getLsbD i) (word_bytes value)
  simpa only [getLsbD_word, if_pos low] using whole

theorem getLsbD_highByte (value : UInt16) (i : Nat) :
    (highByte value).toBitVec.getLsbD i = value.toBitVec.getLsbD (i + 8) := by
  have whole := congrArg (fun word => word.toBitVec.getLsbD (i + 8)) (word_bytes value)
  have high : ¬ i + 8 < 8 := by omega
  simpa only [getLsbD_word, if_neg high, Nat.add_sub_cancel] using whole

theorem getLsbD_pair (bytes : Vector UInt8 n) {o : Nat} (inside : o + 1 < n) {i : Nat}
    (low : i < 16) : (pair bytes o inside).toBitVec.getLsbD i = bitAt bytes (8 * o + i) := by
  rw [pair, getLsbD_word]
  by_cases first : i < 8
  · rw [if_pos first, bitAt_byte bytes (by omega) first]
  · have second : 8 * o + i = 8 * (o + 1) + (i - 8) := by omega
    rw [if_neg first, second, bitAt_byte bytes inside (by omega)]

theorem bitAt_setPair_inside (bytes : Vector UInt8 n) {o : Nat} (inside : o + 1 < n)
    (value : UInt16) {i : Nat} (low : i < 16) :
    bitAt (setPair bytes o inside value) (8 * o + i) = value.toBitVec.getLsbD i := by
  by_cases first : i < 8
  · rw [bitAt_byte _ (by omega) first, setPair, Vector.getElem_set_ne _ _ (by omega),
      Vector.getElem_set_self, getLsbD_lowByte value first]
  · have second : 8 * o + i = 8 * (o + 1) + (i - 8) := by omega
    have whole : i - 8 + 8 = i := by omega
    rw [second, bitAt_byte _ inside (by omega), setPair, Vector.getElem_set_self,
      getLsbD_highByte, whole]

theorem bitAt_setPair_outside (bytes : Vector UInt8 n) {o : Nat} (inside : o + 1 < n)
    (value : UInt16) {p : Nat} (outside : p < 8 * o ∨ 8 * o + 16 ≤ p) :
    bitAt (setPair bytes o inside value) p = bitAt bytes p := by
  have first : o ≠ p / 8 := by omega
  have second : o + 1 ≠ p / 8 := by omega
  rw [bitAt, bitAt, setPair, Vector.getElem?_set_ne _ second, Vector.getElem?_set_ne _ first]

section Shifts

theorem getLsbD_shiftLeft (value : UInt16) {amount : UInt16} (small : amount.toNat < 16) {i : Nat}
    (low : i < 16) : (value <<< amount).toBitVec.getLsbD i =
      (decide (amount.toNat ≤ i) && value.toBitVec.getLsbD (i - amount.toNat)) := by
  have kept : (amount.toBitVec % 16).toNat = amount.toNat := Nat.mod_eq_of_lt small
  rw [UInt16.toBitVec_shiftLeft, BitVec.shiftLeft_eq', kept, BitVec.getLsbD_shiftLeft,
    decide_eq_true low, Bool.true_and, ← decide_not, decide_eq_decide.mpr Nat.not_lt]

theorem getLsbD_shiftRight (value : UInt16) {amount : UInt16} (small : amount.toNat < 16)
    (i : Nat) : (value >>> amount).toBitVec.getLsbD i =
      value.toBitVec.getLsbD (amount.toNat + i) := by
  have kept : (amount.toBitVec % 16).toNat = amount.toNat := Nat.mod_eq_of_lt small
  rw [UInt16.toBitVec_shiftRight, BitVec.ushiftRight_eq', kept, BitVec.getLsbD_ushiftRight]

/-- `width` ones. -/
theorem getLsbD_ones {width : Nat} (narrow : width ≤ 16) (i : Nat) :
    (UInt16.ofNat (2 ^ width - 1)).toBitVec.getLsbD i = decide (i < width) := by
  have below : 2 ^ width - 1 < 2 ^ 16 := by
    have le : 2 ^ width ≤ 2 ^ 16 := Nat.pow_le_pow_right (by decide) narrow
    omega
  rw [← BitVec.testBit_toNat, UInt16.toNat_toBitVec, UInt16.toNat_ofNat_of_lt' below,
    Nat.testBit_two_pow_sub_one]

end Shifts

end KongjaExpress.BitArray
