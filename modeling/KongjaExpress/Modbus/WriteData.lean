import KongjaExpress.Modbus.Master

/-! The data bytes of a request to write: packed coils, registers as words. -/

namespace KongjaExpress.Modbus

open BigEndian

/-- Coil `i` is bit `i % 8` of byte `i / 8`; the bits behind the last coil are clear. -/
def CoilsPacked (values : Nat → UInt8) (nb : UInt16) (data : List UInt8) : Prop :=
  data.length = (nb.toNat + 7) / 8 ∧ ∀ i (inside : i / 8 < data.length),
    data[i / 8].toNat.testBit (i % 8) = (decide (i < nb.toNat) && decide (values i ≠ 0))

/-- Register `i` is the word at `2 * i`. -/
def RegistersPacked (values : Nat → UInt16) (nb : UInt16) (data : List UInt8) : Prop :=
  data.length = 2 * nb.toNat ∧ ∀ i, i < nb.toNat →
    data[2 * i]? = some (highByte (values i)) ∧ data[2 * i + 1]? = some (lowByte (values i))

theorem testBit_shiftLeft_one {bit b : Nat} (inside : bit < 8) (bound : b < 8) :
    ((1 : UInt8) <<< UInt8.ofNat bit).toNat.testBit b = decide (b = bit) := by
  have all : ∀ bit b : Fin 8,
      ((1 : UInt8) <<< UInt8.ofNat bit.val).toNat.testBit b.val = decide (b.val = bit.val) := by
    decide
  exact all ⟨bit, inside⟩ ⟨b, bound⟩

theorem succ_toNat_of_lt {pos nb : UInt16} (below : pos < nb) :
    (pos + 1).toNat = pos.toNat + 1 ∧ (pos + 1).toNat ≤ nb.toNat := by
  have bound : nb.toNat < 2 ^ 16 := nb.toNat_lt
  rw [UInt16.lt_iff_toNat_lt] at below
  have next : (pos + 1).toNat = pos.toNat + 1 := by
    rw [UInt16.toNat_add]
    exact Nat.mod_eq_of_lt (by simp; omega)
  exact ⟨next, by omega⟩

/-- The inner loop moves on by the bits it has left, or up to `nb`. -/
theorem coilBits_pos (values : Nat → UInt8) (nb : UInt16) (left bit : Nat) {pos : UInt16}
    (byte : UInt8) (within : pos.toNat ≤ nb.toNat) :
    (coilBits values nb left bit pos byte).2.toNat = min (pos.toNat + left) nb.toNat := by
  induction left generalizing bit pos byte with
  | zero => simp [coilBits, within]
  | succ left ih =>
      unfold coilBits
      split
      · rename_i below
        rcases succ_toNat_of_lt below with ⟨next, inside⟩
        rw [ih _ _ inside, next]
        congr 1
        omega
      · rename_i behind
        rw [UInt16.lt_iff_toNat_lt] at behind
        dsimp only
        omega

theorem setCoil_testBit {byte : UInt8} {bit b : Nat} (value : UInt8) (inside : bit < 8)
    (bound : b < 8) (clear : byte.toNat.testBit bit = false) :
    (if value ≠ 0 then byte ||| (1 : UInt8) <<< UInt8.ofNat bit else byte).toNat.testBit b =
      if b = bit then decide (value ≠ 0) else byte.toNat.testBit b := by
  by_cases coil : value ≠ 0
  · rw [if_pos coil, UInt8.toNat_or, Nat.testBit_or, testBit_shiftLeft_one inside bound]
    by_cases same : b = bit <;> simp [same, coil]
  · rw [if_neg coil]
    by_cases same : b = bit <;> simp [same, coil, clear]

/-- Bits from `bit` on come from the values, those before it stay. -/
theorem coilBits_testBit (values : Nat → UInt8) (nb : UInt16) {left bit : Nat} {pos : UInt16}
    {byte : UInt8} (sum : bit + left = 8)
    (clear : ∀ b, bit ≤ b → b < 8 → byte.toNat.testBit b = false) (b : Nat) (bound : b < 8) :
    (coilBits values nb left bit pos byte).1.toNat.testBit b =
      if b < bit then byte.toNat.testBit b
      else decide (pos.toNat + (b - bit) < nb.toNat) &&
        decide (values (pos.toNat + (b - bit)) ≠ 0) := by
  induction left generalizing bit pos byte with
  | zero =>
      rw [if_pos (by omega)]
      rfl
  | succ left ih =>
      unfold coilBits
      split
      · rename_i below
        have next := (succ_toNat_of_lt below).1
        have set (c : Nat) (small : c < 8) := setCoil_testBit (values pos.toNat)
          (show bit < 8 by omega) small (clear bit (le_refl bit) (by omega))
        rw [ih (by omega)]
        · rw [set b bound, next]
          rcases Nat.lt_trichotomy b bit with before | same | after
          · rw [if_pos (by omega), if_neg (by omega), if_pos before]
          · rw [if_pos (by omega), if_pos same, if_neg (by omega), same, Nat.sub_self,
              Nat.add_zero, decide_eq_true (UInt16.lt_iff_toNat_lt.mp below), Bool.true_and]
          · rw [if_neg (by omega), if_neg (by omega),
              show pos.toNat + 1 + (b - (bit + 1)) = pos.toNat + (b - bit) by omega]
        · intro c behind small
          rw [set c small, if_neg (by omega)]
          exact clear c (by omega) small
      · rename_i behind
        rw [UInt16.lt_iff_toNat_lt] at behind
        dsimp only
        split
        · rfl
        · rw [clear b (by omega) bound, decide_eq_false (by omega), Bool.false_and]

theorem coilData_length (values : Nat → UInt8) (nb : UInt16) (left : Nat) (pos : UInt16) :
    (coilData values nb left pos).length = left := by
  induction left generalizing pos with
  | zero => rfl
  | succ left ih => rw [coilData, List.length_cons, ih]

/-- The bytes from `pos` on hold the coils from `pos` on. -/
theorem coilData_testBit (values : Nat → UInt8) (nb : UInt16) {left : Nat} {pos : UInt16}
    (within : pos.toNat ≤ nb.toNat) (q b : Nat)
    (inside : q < (coilData values nb left pos).length) (bound : b < 8) :
    (coilData values nb left pos)[q].toNat.testBit b =
      (decide (pos.toNat + (8 * q + b) < nb.toNat) &&
        decide (values (pos.toNat + (8 * q + b)) ≠ 0)) := by
  induction left generalizing pos q with
  | zero => exact absurd inside (Nat.not_lt_zero q)
  | succ left ih =>
      cases q with
      | zero =>
          have clear (c : Nat) : 0 ≤ c → c < 8 → (0 : UInt8).toNat.testBit c = false :=
            fun _ _ => Nat.zero_testBit c
          have byte := @coilBits_testBit values nb 8 0 pos 0 rfl clear b bound
          simpa [coilData] using byte
      | succ q =>
          have moved := coilBits_pos values nb 8 0 0 within
          simp only [coilData, List.getElem_cons_succ]
          rw [ih (by omega), moved]
          by_cases full : pos.toNat + 8 ≤ nb.toNat
          · rw [min_eq_left full,
              show pos.toNat + 8 + (8 * q + b) = pos.toNat + (8 * (q + 1) + b) by omega]
          · -- the last byte took the last coil, and the bytes behind it are empty
            rw [min_eq_right (by omega)]
            have here : ¬ nb.toNat + (8 * q + b) < nb.toNat := by omega
            have there : ¬ pos.toNat + (8 * (q + 1) + b) < nb.toNat := by omega
            rw [decide_eq_false here, decide_eq_false there, Bool.false_and, Bool.false_and]

theorem masterCoilBytes_mod (nb : UInt16) :
    (masterCoilBytes nb).toNat = (nb.toNat + 7) / 8 % 256 := by
  have bound : nb.toNat < 2 ^ 16 := nb.toNat_lt
  have rest : nb % 8 ≠ 0 ↔ nb.toNat % 8 ≠ 0 := by
    rw [Ne, ← UInt16.toNat_inj, UInt16.toNat_mod]
    rfl
  have quotient : (nb / 8).toNat = nb.toNat / 8 := UInt16.toNat_div _ _
  unfold masterCoilBytes
  split
  · rename_i some
    rw [rest] at some
    rw [UInt16.toNat_toUInt8, UInt16.toNat_add, quotient, UInt16.toNat_one]
    omega
  · rename_i none
    rw [rest, not_not] at none
    rw [UInt16.toNat_toUInt8, UInt16.add_zero, quotient]
    omega

theorem masterCoilBytes_toNat {nb : UInt16} (bound : nb.toNat < 2040) :
    (masterCoilBytes nb).toNat = (nb.toNat + 7) / 8 := by
  rw [masterCoilBytes_mod, Nat.mod_eq_of_lt]
  omega

theorem coilsPacked {nb : UInt16} (values : Nat → UInt8) (bound : nb.toNat < 2040) :
    CoilsPacked values nb (coilData values nb (masterCoilBytes nb).toNat 0) := by
  constructor
  · rw [coilData_length, masterCoilBytes_toNat bound]
  · intro i inside
    rw [coilData_testBit values nb (Nat.zero_le _) (i / 8) (i % 8) inside
      (Nat.mod_lt i (by decide))]
    simp only [UInt16.toNat_zero, Nat.zero_add, Nat.div_add_mod]

theorem registerData_length (values : Nat → UInt16) (left i : Nat) :
    (registerData values left i).length = 2 * left := by
  induction left generalizing i with
  | zero => rfl
  | succ left ih =>
      rw [registerData, List.length_append, ih]
      simp only [wordBytes, List.length_cons, List.length_nil]
      omega

theorem MasterCall.pdu_length (call : MasterCall) : call.pdu.length =
    match call with
    | writeMultipleCoils _ _ nb _ => 6 + (nb.toNat + 7) / 8 % 256
    | writeMultipleRegisters _ _ nb _ => 6 + 2 * nb.toNat
    | writeAndReadRegisters _ _ nbWrite _ _ _ => 10 + 2 * nbWrite.toNat
    | _ => 5 := by
  cases call with
  | writeMultipleCoils =>
      simp only [pdu, wordBytes, List.length_append, List.length_cons, List.length_nil,
        coilData_length, masterCoilBytes_mod]
      omega
  | writeMultipleRegisters | writeAndReadRegisters =>
      simp only [pdu, wordBytes, List.length_append, List.length_cons, List.length_nil,
        registerData_length]
      omega
  | _ => rfl

theorem registerData_get (values : Nat → UInt16) {left : Nat} (i n : Nat) (inside : n < left) :
    (registerData values left i)[2 * n]? = some (highByte (values (i + n))) ∧
      (registerData values left i)[2 * n + 1]? = some (lowByte (values (i + n))) := by
  induction left generalizing i n with
  | zero => exact absurd inside (Nat.not_lt_zero n)
  | succ left ih =>
      cases n with
      | zero => exact ⟨rfl, rfl⟩
      | succ n =>
          have rest := ih (i + 1) n (by omega)
          rw [show i + 1 + n = i + (n + 1) by omega] at rest
          exact rest

theorem registersPacked (values : Nat → UInt16) (nb : UInt16) :
    RegistersPacked values nb (registerData values nb.toNat 0) := by
  constructor
  · exact registerData_length values nb.toNat 0
  · intro i inside
    have bytes := registerData_get values 0 i inside
    rwa [Nat.zero_add] at bytes

end KongjaExpress.Modbus
