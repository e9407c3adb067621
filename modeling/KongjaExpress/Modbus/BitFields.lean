import KongjaExpress.Library.BitArray
import KongjaExpress.Library.Run

/-! Bit fields in a buffer of bytes, as `modbus_util.c` stores and loads them. -/

namespace KongjaExpress.Modbus

open BigEndian BitArray

variable {n : Nat}

/-- `none` is a width that the assertion refuses or an access outside the buffer. -/
def xMBUtilSetBits (ucByteBuf : Vector UInt8 n) (usBitOffset : UInt16) (ucNBits ucValue : UInt8) :
    Option (Vector UInt8 n) :=
  if ucNBits ≤ 8 then
    let usByteOffset := usBitOffset / 8
    let usNPreBits := usBitOffset - usByteOffset * 8
    let usValue := ucValue.toUInt16 <<< usNPreBits
    let usMask := UInt16.ofNat (2 ^ ucNBits.toNat - 1) <<< usNPreBits
    if inside : usByteOffset.toNat + 1 < n then
      let usWordBuf := pair ucByteBuf usByteOffset.toNat inside
      -- the value is not cut to the mask
      some (setPair ucByteBuf usByteOffset.toNat inside (usWordBuf &&& ~~~usMask ||| usValue))
    else none
  else none

/-- `none` is a shift wider than an `int` or an access outside the buffer. -/
def xMBUtilGetBits (ucByteBuf : Vector UInt8 n) (usBitOffset : UInt16) (ucNBits : UInt8) :
    Option UInt8 :=
  if ucNBits ≤ 30 then
    let usByteOffset := usBitOffset / 8
    let usNPreBits := usBitOffset - usByteOffset * 8
    let usMask := UInt16.ofNat (2 ^ ucNBits.toNat - 1)
    if inside : usByteOffset.toNat + 1 < n then
      let usWordBuf := pair ucByteBuf usByteOffset.toNat inside
      some ((usWordBuf >>> usNPreBits) &&& usMask).toUInt8
    else none
  else none

structure BitStore where
  usBitOffset : UInt16
  ucNBits : UInt8
  ucValue : UInt8

namespace BitStore

variable (store other : BitStore)

def Has (p : Nat) : Prop :=
  store.usBitOffset.toNat ≤ p ∧ p < store.usBitOffset.toNat + store.ucNBits.toNat

instance (p : Nat) : Decidable (store.Has p) := inferInstanceAs (Decidable (_ ∧ _))

def lands (p : Nat) : Bool :=
  decide (store.usBitOffset.toNat ≤ p) &&
    store.ucValue.toBitVec.getLsbD (p - store.usBitOffset.toNat)

/-- A one of the value that comes to stand behind the field. -/
def Spills (p : Nat) : Prop := store.lands p = true ∧ ¬ store.Has p

/-- The two bytes that are touched stand in a buffer of `n` bytes. -/
def Touches (n : Nat) : Prop := store.usBitOffset.toNat / 8 + 1 < n

instance : Decidable (store.Touches n) := inferInstanceAs (Decidable (_ < _))

def Disjoint : Prop := ∀ p, store.Has p → ¬ other.Has p

def run (ucByteBuf : Vector UInt8 n) : Option (Vector UInt8 n) :=
  xMBUtilSetBits ucByteBuf store.usBitOffset store.ucNBits store.ucValue

/-- The field reads back as the value, cut to its width, and the other bits are kept. -/
def Exact (ucByteBuf : Vector UInt8 n) : Prop :=
  ∃ after, store.run ucByteBuf = some after ∧
    xMBUtilGetBits after store.usBitOffset store.ucNBits =
      some (.ofNat (store.ucValue.toNat % 2 ^ store.ucNBits.toNat)) ∧
    ∀ p, ¬ store.Has p → bitAt after p = bitAt ucByteBuf p

def Commute (ucByteBuf : Vector UInt8 n) : Prop :=
  (store.run ucByteBuf).bind other.run = (other.run ucByteBuf).bind store.run

/-- Where the value spills, the buffer has ones. -/
def Covered (ucByteBuf : Vector UInt8 n) : Prop := ∀ p, store.Spills p → bitAt ucByteBuf p = true

/-- Where the value spills into the other field, the other value has ones. -/
def Yields : Prop := ∀ p, store.Spills p → other.Has p → other.lands p = true

end BitStore

section Words

theorem byteOffset_toNat (usBitOffset : UInt16) :
    (usBitOffset / 8).toNat = usBitOffset.toNat / 8 := UInt16.toNat_div usBitOffset 8

theorem nPreBits_toNat (usBitOffset : UInt16) :
    (usBitOffset - usBitOffset / 8 * 8).toNat = usBitOffset.toNat % 8 := by
  have bound : usBitOffset.toNat < 2 ^ 16 := usBitOffset.toNat_lt
  have eight : (8 : UInt16).toNat = 8 := rfl
  rw [UInt16.toNat_sub, UInt16.toNat_mul, byteOffset_toNat, eight]
  omega

end Words

namespace BitStore

variable {store other : BitStore} {ucByteBuf : Vector UInt8 n}

theorem byteOffset_touches (inside : store.Touches n) :
    (store.usBitOffset / 8).toNat + 1 < n := by
  rw [byteOffset_toNat]
  exact inside

theorem quiet_outside (narrow : store.ucNBits ≤ 8) {p : Nat}
    (outside : p < 8 * (store.usBitOffset.toNat / 8) ∨
      8 * (store.usBitOffset.toNat / 8) + 16 ≤ p) :
    ¬ store.Has p ∧ store.lands p = false := by
  have width : store.ucNBits.toNat ≤ 8 := narrow
  constructor
  · rintro ⟨start, finish⟩
    omega
  · rw [lands, Bool.and_eq_false_iff, decide_eq_false_iff_not]
    by_cases before : store.usBitOffset.toNat ≤ p
    · exact .inr (BitVec.getLsbD_of_ge _ _ (by omega))
    · exact .inl before

theorem stored_word (narrow : store.ucNBits ≤ 8) (word : UInt16) {amount : UInt16}
    (pre : amount.toNat = store.usBitOffset.toNat % 8) {i : Nat} (low : i < 16) :
    (word &&& ~~~(UInt16.ofNat (2 ^ store.ucNBits.toNat - 1) <<< amount) |||
      store.ucValue.toUInt16 <<< amount).toBitVec.getLsbD i =
        (word.toBitVec.getLsbD i &&
          !decide (store.Has (8 * (store.usBitOffset.toNat / 8) + i)) ||
            store.lands (8 * (store.usBitOffset.toNat / 8) + i)) := by
  have width : store.ucNBits.toNat ≤ 8 := narrow
  have small : amount.toNat < 16 := by omega
  have apart : 8 * (store.usBitOffset.toNat / 8) + i - store.usBitOffset.toNat =
      i - amount.toNat := by omega
  have behind : store.usBitOffset.toNat ≤ 8 * (store.usBitOffset.toNat / 8) + i ↔
      amount.toNat ≤ i := by omega
  have within : store.Has (8 * (store.usBitOffset.toNat / 8) + i) ↔
      amount.toNat ≤ i ∧ i - amount.toNat < store.ucNBits.toNat := by
    unfold Has
    omega
  have field : decide (store.Has (8 * (store.usBitOffset.toNat / 8) + i)) =
      (decide (amount.toNat ≤ i) && decide (i - amount.toNat < store.ucNBits.toNat)) := by
    rw [← Bool.decide_and]
    exact decide_eq_decide.mpr within
  have value : store.lands (8 * (store.usBitOffset.toNat / 8) + i) =
      (decide (amount.toNat ≤ i) && store.ucValue.toBitVec.getLsbD (i - amount.toNat)) := by
    rw [lands, apart, decide_eq_decide.mpr behind]
  have high : i - amount.toNat < 16 := by omega
  rw [UInt16.toBitVec_or, UInt16.toBitVec_and, UInt16.toBitVec_not, BitVec.getLsbD_or,
    BitVec.getLsbD_and, BitVec.getLsbD_not, getLsbD_shiftLeft _ small low,
    getLsbD_shiftLeft _ small low, getLsbD_ones (by omega), field, value,
    UInt8.toBitVec_toUInt16, BitVec.getLsbD_setWidth]
  simp [low, high]

/-- A store clears its field and lays the whole value over what stands there. -/
theorem run_bits (ucByteBuf : Vector UInt8 n) (narrow : store.ucNBits ≤ 8)
    (inside : store.Touches n) :
    ∃ after, store.run ucByteBuf = some after ∧
      ∀ p, bitAt after p = (bitAt ucByteBuf p && !decide (store.Has p) || store.lands p) := by
  have touched := byteOffset_touches inside
  simp only [run, xMBUtilSetBits, if_pos narrow, dif_pos touched]
  refine ⟨_, rfl, fun p => ?_⟩
  by_cases outside : p < 8 * (store.usBitOffset.toNat / 8) ∨
      8 * (store.usBitOffset.toNat / 8) + 16 ≤ p
  · have quiet := quiet_outside narrow outside
    rw [← byteOffset_toNat] at outside
    rw [bitAt_setPair_outside _ touched _ outside, quiet.2, decide_eq_false quiet.1]
    simp
  · have window : 8 * (store.usBitOffset / 8).toNat ≤ p := by
      rw [byteOffset_toNat]
      omega
    obtain ⟨i, rfl⟩ := Nat.exists_eq_add_of_le window
    have low : i < 16 := by
      rw [byteOffset_toNat] at outside
      omega
    rw [bitAt_setPair_inside _ touched _ low,
      stored_word narrow _ (nPreBits_toNat store.usBitOffset) low, getLsbD_pair _ touched low,
      byteOffset_toNat]

theorem getBits_bits (ucByteBuf : Vector UInt8 n) (narrow : store.ucNBits ≤ 8)
    (inside : store.Touches n) :
    ∃ value, xMBUtilGetBits ucByteBuf store.usBitOffset store.ucNBits = some value ∧
      ∀ i, value.toBitVec.getLsbD i =
        (decide (i < store.ucNBits.toNat) && bitAt ucByteBuf (store.usBitOffset.toNat + i)) := by
  have touched := byteOffset_touches inside
  have width : store.ucNBits.toNat ≤ 8 := narrow
  have shifts : store.ucNBits ≤ 30 := UInt8.le_iff_toNat_le.mpr (by simp; omega)
  have pre := nPreBits_toNat store.usBitOffset
  simp only [xMBUtilGetBits, if_pos shifts, dif_pos touched]
  refine ⟨_, rfl, fun i => ?_⟩
  rw [UInt16.toBitVec_toUInt8, BitVec.getLsbD_setWidth, UInt16.toBitVec_and, BitVec.getLsbD_and,
    getLsbD_ones (by omega), getLsbD_shiftRight _ (by omega)]
  by_cases kept : i < store.ucNBits.toNat
  · have place : 8 * (store.usBitOffset / 8).toNat +
        ((store.usBitOffset - store.usBitOffset / 8 * 8).toNat + i) =
          store.usBitOffset.toNat + i := by
      rw [pre, byteOffset_toNat]
      omega
    have byte : i < 8 := by omega
    rw [getLsbD_pair _ touched (by omega), place]
    simp [kept, byte]
  · simp [kept]

theorem reads_back (narrow : store.ucNBits ≤ 8) (inside : store.Touches n)
    {after : Vector UInt8 n}
    (bits : ∀ p, bitAt after p =
      (bitAt ucByteBuf p && !decide (store.Has p) || store.lands p)) :
    xMBUtilGetBits after store.usBitOffset store.ucNBits =
      some (.ofNat (store.ucValue.toNat % 2 ^ store.ucNBits.toNat)) := by
  rcases getBits_bits after narrow inside with ⟨value, loads, read⟩
  rw [loads]
  congr 1
  apply UInt8.toBitVec_inj.mp
  apply BitVec.eq_of_getLsbD_eq
  intro i low
  have small : store.ucValue.toNat % 2 ^ store.ucNBits.toNat < 2 ^ 8 :=
    (Nat.mod_le _ _).trans_lt store.ucValue.toNat_lt
  have cut : (UInt8.ofNat (store.ucValue.toNat % 2 ^ store.ucNBits.toNat)).toBitVec.getLsbD i =
      (decide (i < store.ucNBits.toNat) && store.ucValue.toBitVec.getLsbD i) := by
    rw [← BitVec.testBit_toNat, UInt8.toNat_toBitVec, UInt8.toNat_ofNat_of_lt' small,
      Nat.testBit_mod_two_pow]
    rfl
  rw [read, cut, bits]
  by_cases kept : i < store.ucNBits.toNat
  · have field : store.Has (store.usBitOffset.toNat + i) := ⟨by omega, by omega⟩
    simp [kept, field, lands]
  · simp [kept]

/-- The neighbours of a field are kept if and only if what spills over them changes nothing. -/
theorem exact_iff (narrow : store.ucNBits ≤ 8) (inside : store.Touches n) :
    store.Exact ucByteBuf ↔ store.Covered ucByteBuf := by
  rcases run_bits ucByteBuf narrow inside with ⟨after, runs, bits⟩
  constructor
  · rintro ⟨other, again, _, kept⟩ p ⟨one, outside⟩
    obtain rfl : other = after := Option.some.inj (again.symm.trans runs)
    rw [← kept p outside, bits p, one, Bool.or_true]
  · intro covered
    refine ⟨after, runs, reads_back narrow inside bits, fun p outside => ?_⟩
    rw [bits p, decide_eq_false outside, Bool.not_false, Bool.and_true]
    cases one : store.lands p with
    | false => exact Bool.or_false _
    | true => rw [covered p ⟨one, outside⟩, Bool.true_or]

theorem commute_iff (narrow : store.ucNBits ≤ 8) (inside : store.Touches n)
    (narrow' : other.ucNBits ≤ 8) (inside' : other.Touches n) (disjoint : store.Disjoint other) :
    store.Commute other ucByteBuf ↔ store.Yields other ∧ other.Yields store := by
  rcases run_bits ucByteBuf narrow inside with ⟨first, runs, bits⟩
  rcases run_bits ucByteBuf narrow' inside' with ⟨second, runs', bits'⟩
  rcases run_bits first narrow' inside' with ⟨left, runsLeft, bitsLeft⟩
  rcases run_bits second narrow inside with ⟨right, runsRight, bitsRight⟩
  have same : store.Commute other ucByteBuf ↔ ∀ p, bitAt left p = bitAt right p := by
    rw [Commute, runs, runs', Option.bind_some, Option.bind_some, runsLeft, runsRight]
    constructor
    · intro equal p
      rw [Option.some.inj equal]
    · intro equal
      rw [ext_bits equal]
  rw [same]
  constructor
  · intro equal
    constructor
    · rintro p ⟨one, outside⟩ field
      have bit := equal p
      rw [bitsLeft, bitsRight, bits, bits'] at bit
      simpa [one, outside, field] using bit
    · rintro p ⟨one, outside⟩ field
      have bit := equal p
      rw [bitsLeft, bitsRight, bits, bits'] at bit
      simpa [one, outside, field] using bit
  · rintro ⟨forward, backward⟩ p
    rw [bitsLeft, bitsRight, bits, bits']
    by_cases field : store.Has p
    · have outside := disjoint p field
      cases one : other.lands p with
      | false => simp [field, outside]
      | true => simp [field, outside, backward p ⟨one, outside⟩ field]
    · by_cases field' : other.Has p
      · cases one : store.lands p with
        | false => simp [field, field']
        | true => simp [field, field', forward p ⟨one, field⟩ field']
      · simp [field, field', Bool.or_right_comm]

end BitStore

/-- A store puts the value into its field and keeps the neighbours, and commutes with a store
to another field, if and only if the ones of the value that do not fit fall on ones, both in the
buffer and in the value of the other field. -/
theorem bit_fields_stored (ucByteBuf : Vector UInt8 n) (store other : BitStore)
    (narrow : store.ucNBits ≤ 8) (inside : store.Touches n) (narrow' : other.ucNBits ≤ 8)
    (inside' : other.Touches n) :
    (store.Exact ucByteBuf ∧ (store.Disjoint other → store.Commute other ucByteBuf)) ↔
      store.Covered ucByteBuf ∧ (store.Disjoint other → store.Yields other ∧ other.Yields store) := by
  have commute (disjoint : store.Disjoint other) :
      store.Commute other ucByteBuf ↔ store.Yields other ∧ other.Yields store :=
    BitStore.commute_iff narrow inside narrow' inside' disjoint
  rw [BitStore.exact_iff narrow inside]
  exact and_congr_right fun _ => forall_congr' commute

/-- Three ones for a field of three bits that ends in the next byte, and its neighbour. -/
theorem bit_fields_stored_across :
    (BitStore.mk 6 3 7).Touches 3 ∧ (BitStore.mk 9 1 1).Touches 3 ∧
      ((BitStore.mk 6 3 7).Exact #v[0, 0, 0] ∧
        ((BitStore.mk 6 3 7).Disjoint ⟨9, 1, 1⟩ →
          (BitStore.mk 6 3 7).Commute ⟨9, 1, 1⟩ #v[0, 0, 0]) ↔
        (BitStore.mk 6 3 7).Covered #v[0, 0, 0] ∧
          ((BitStore.mk 6 3 7).Disjoint ⟨9, 1, 1⟩ →
            (BitStore.mk 6 3 7).Yields ⟨9, 1, 1⟩ ∧ (BitStore.mk 9 1 1).Yields ⟨6, 3, 7⟩)) :=
  ⟨by decide, by decide, bit_fields_stored #v[0, 0, 0] ⟨6, 3, 7⟩ ⟨9, 1, 1⟩ (by decide) (by decide)
    (by decide) (by decide)⟩

/-- A two in a field of one bit sets the neighbour of the field. -/
theorem bit_field_spills : ¬ (BitStore.mk 0 1 2).Exact #v[0, 0] := by
  rintro ⟨after, runs, _, kept⟩
  obtain rfl : #v[2, 0] = after := Option.some.inj runs
  have bit := kept 1 (by decide)
  exact absurd bit (by decide)

section Bounds

inductive BitAccess
  | setBits (usBitOffset : UInt16) (ucNBits ucValue : UInt8)
  | getBits (usBitOffset : UInt16) (ucNBits : UInt8)

namespace BitAccess

def usBitOffset : BitAccess → UInt16
  | setBits usBitOffset _ _ => usBitOffset
  | getBits usBitOffset _ => usBitOffset

def ucNBits : BitAccess → UInt8
  | setBits _ ucNBits _ => ucNBits
  | getBits _ ucNBits => ucNBits

def run (ucByteBuf : Vector UInt8 n) : BitAccess → Option (Vector UInt8 n)
  | setBits usBitOffset ucNBits ucValue =>
      xMBUtilSetBits ucByteBuf usBitOffset ucNBits ucValue
  | getBits usBitOffset ucNBits =>
      (xMBUtilGetBits ucByteBuf usBitOffset ucNBits).map fun _ => ucByteBuf

/-- A field of one to eight bits that lies in a buffer of `n` bytes. -/
structure Inside (access : BitAccess) (n : Nat) : Prop where
  some : 1 ≤ access.ucNBits
  narrow : access.ucNBits ≤ 8
  fits : access.usBitOffset.toNat + access.ucNBits.toNat ≤ 8 * n

/-- The byte behind the one the field begins in is always touched. -/
theorem run_isSome {access : BitAccess} (narrow : access.ucNBits ≤ 8)
    (ucByteBuf : Vector UInt8 n) :
    (access.run ucByteBuf).isSome ↔ access.usBitOffset.toNat / 8 + 1 < n := by
  rw [← byteOffset_toNat]
  cases access with
  | setBits usBitOffset ucNBits ucValue =>
      have width : ucNBits ≤ 8 := narrow
      simp [run, xMBUtilSetBits, width, BitAccess.usBitOffset]
  | getBits usBitOffset ucNBits =>
      have width : ucNBits ≤ 30 := UInt8.le_trans narrow (by decide)
      simp [run, xMBUtilGetBits, width, BitAccess.usBitOffset]

end BitAccess

def accesses (ucByteBuf : Vector UInt8 n) (fields : List BitAccess) : Option (Vector UInt8 n) :=
  fields.foldlM BitAccess.run ucByteBuf

theorem accesses_isSome {fields : List BitAccess}
    (narrow : ∀ access ∈ fields, access.ucNBits ≤ 8) (ucByteBuf : Vector UInt8 n) :
    (accesses ucByteBuf fields).isSome ↔
      ∀ access ∈ fields, access.usBitOffset.toNat / 8 + 1 < n :=
  Run.foldlM_isSome (fun access member => BitAccess.run_isSome (narrow access member)) ucByteBuf

/-- Accesses to fields of a buffer stay inside it if and only if none of the fields begins in
its last byte. -/
theorem bit_accesses_inside (ucByteBuf : Vector UInt8 n) (fields : List BitAccess)
    (inside : ∀ access ∈ fields, access.Inside n) :
    (accesses ucByteBuf fields).isSome ↔
      ∀ access ∈ fields, access.usBitOffset.toNat / 8 + 1 < n := by
  apply accesses_isSome
  intro access member
  exact (inside access member).narrow

/-- Twelve coils in fields of six. -/
theorem bit_accesses_inside_twelve :
    (accesses #v[0, 0] [.setBits 0 6 33, .setBits 6 6 33, .getBits 6 6]).isSome :=
  (bit_accesses_inside #v[0, 0] [.setBits 0 6 33, .setBits 6 6 33, .getBits 6 6]
    (by simp only [List.forall_mem_cons]
        exact ⟨⟨by decide, by decide, by decide⟩, ⟨by decide, by decide, by decide⟩,
          ⟨by decide, by decide, by decide⟩, fun _ none => nomatch none⟩)).mpr (by
      simp only [List.forall_mem_cons]
      exact ⟨by decide, by decide, by decide, fun _ none => nomatch none⟩)

/-- Eight coils in their one byte. -/
theorem bit_access_outside :
    (BitAccess.setBits 0 8 255).Inside 1 ∧ (BitAccess.setBits 0 8 255).run #v[0] = none :=
  ⟨⟨by decide, by decide, by decide⟩, rfl⟩

/-- Coils that are packed one by one into as few bytes as hold them always leave the buffer. -/
theorem coils_one_by_one (coil : UInt16 → UInt8) {count : UInt16} (some : 0 < count)
    (ucByteBuf : Vector UInt8 ((count.toNat + 7) / 8)) :
    accesses ucByteBuf ((List.range count.toNat).map fun i =>
      .setBits (.ofNat i) 1 (coil (.ofNat i))) = none := by
  have positive : 0 < count.toNat := UInt16.lt_iff_toNat_lt.mp some
  have bound : count.toNat < 2 ^ 16 := count.toNat_lt
  rw [← Option.not_isSome_iff_eq_none, accesses_isSome]
  · intro all
    have last := all _ (List.mem_map_of_mem (List.mem_range.mpr (Nat.sub_one_lt_of_lt positive)))
    rw [BitAccess.usBitOffset, UInt16.toNat_ofNat_of_lt' (by simp [UInt16.size]; omega)] at last
    omega
  · intro access member
    obtain ⟨i, _, rfl⟩ := List.mem_map.mp member
    exact (by decide : (1 : UInt8) ≤ 8)

end Bounds

end KongjaExpress.Modbus
