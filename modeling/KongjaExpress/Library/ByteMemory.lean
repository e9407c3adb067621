import Mathlib.Tactic

/-! Memory addressed byte by byte, and values of any width in it, low byte first. -/

namespace KongjaExpress.ByteMemory

def writeAt (memory : Int → UInt8) (address : Int) (bytes : List UInt8) : Int → UInt8 := fun cell =>
  if address ≤ cell ∧ cell < address + bytes.length then bytes.getD (cell - address).toNat 0
  else memory cell

def readAt (memory : Int → UInt8) (address : Int) (size : Nat) : List UInt8 :=
  List.ofFn fun i : Fin size => memory (address + i)

def toBytes {w : Nat} (size : Nat) (value : BitVec w) : List UInt8 :=
  List.ofFn fun i : Fin size => UInt8.ofBitVec (value.extractLsb' (8 * i) 8)

def Disjoint (address : Int) (size : Nat) (other : Int) (otherSize : Nat) : Prop :=
  address + size ≤ other ∨ other + otherSize ≤ address

instance (address : Int) (size : Nat) (other : Int) (otherSize : Nat) :
    Decidable (Disjoint address size other otherSize) :=
  inferInstanceAs (Decidable (_ ∨ _))

theorem Disjoint.symm {address other : Int} {size otherSize : Nat}
    (apart : Disjoint address size other otherSize) : Disjoint other otherSize address size :=
  Or.symm apart

@[simp] theorem toBytes_length {w : Nat} (size : Nat) (value : BitVec w) :
    (toBytes size value).length = size := by
  simp [toBytes]

theorem writeAt_inside (memory : Int → UInt8) (address : Int) (bytes : List UInt8) {i : Nat}
    (inside : i < bytes.length) : writeAt memory address bytes (address + i) = bytes[i] := by
  have within : address ≤ address + i ∧ address + i < address + bytes.length := by omega
  rw [writeAt, if_pos within, add_sub_cancel_left, Int.toNat_natCast]
  exact (List.getElem_eq_getD 0).symm

theorem writeAt_outside (memory : Int → UInt8) {address cell : Int} {bytes : List UInt8}
    (outside : cell < address ∨ address + bytes.length ≤ cell) :
    writeAt memory address bytes cell = memory cell := by
  rw [writeAt, if_neg]
  omega

theorem readAt_writeAt (memory : Int → UInt8) (address : Int) (bytes : List UInt8) :
    readAt (writeAt memory address bytes) address bytes.length = bytes := by
  apply List.ext_getElem
  · simp [readAt]
  · intro i _ inside
    simp only [readAt, List.getElem_ofFn]
    exact writeAt_inside memory address bytes inside

theorem readAt_writeAt_disjoint (memory : Int → UInt8) {address other : Int} {bytes : List UInt8}
    {size : Nat} (apart : Disjoint address bytes.length other size) :
    readAt (writeAt memory address bytes) other size = readAt memory other size := by
  apply congrArg List.ofFn
  funext i
  have bound := i.isLt
  apply writeAt_outside
  rcases apart with before | behind
  · right
    omega
  · left
    omega

theorem toBytes_inj {size : Nat} {left right : BitVec (8 * size)} :
    toBytes size left = toBytes size right ↔ left = right := by
  constructor
  · intro same
    apply BitVec.eq_of_getLsbD_eq
    intro i inside
    have row : i / 8 < size := by omega
    have byte := congrFun (List.ofFn_injective same) ⟨i / 8, row⟩
    have bit := congrArg (fun byte => byte.toBitVec.getLsbD (i % 8)) byte
    simp only [BitVec.getLsbD_extractLsb', Nat.mod_lt i (by decide : 8 > 0), decide_true,
      Bool.true_and, Nat.div_add_mod] at bit
    exact bit
  · rintro rfl
    rfl

end KongjaExpress.ByteMemory
