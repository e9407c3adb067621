import KongjaExpress.Library.CrcRegister
import KongjaExpress.Modbus.RtuSlave

/-! What the tables of `modbus_crc.c` compute, and the errors on a serial line that its
checksum finds. -/

namespace KongjaExpress.Modbus

open BigEndian CrcRegister Memory Transport

variable {σ : Type}

/-- x¹⁶ + x¹⁵ + x² + 1, the highest coefficient lowest. -/
def crcPoly : BitVec 16 := 0xA001

theorem word_toBitVec (high low : UInt8) :
    (word high low).toBitVec = high.toBitVec.setWidth 16 <<< 8 ^^^ low.toBitVec.setWidth 16 := by
  have joined : (word high low).toBitVec =
      high.toBitVec.setWidth 16 <<< 8 ||| low.toBitVec.setWidth 16 := by
    rw [word, UInt16.toBitVec_or, UInt16.toBitVec_shiftLeft, UInt8.toBitVec_toUInt16,
      UInt8.toBitVec_toUInt16]
    rfl
  rw [joined]
  apply BitVec.eq_of_getLsbD_eq
  intro i inside
  rw [BitVec.getLsbD_or, BitVec.getLsbD_xor, BitVec.getLsbD_shiftLeft]
  by_cases low' : i < 8
  · simp [low']
  · rw [BitVec.getLsbD_setWidth, BitVec.getLsbD_setWidth, BitVec.getLsbD_of_ge low.toBitVec i
      (Nat.not_lt.mp low'), Bool.and_false, Bool.or_false, Bool.xor_false]

theorem entry_of_tables {high low : Vector UInt8 256} {table : Nat → BitVec 16}
    (checked : List.zipWith (fun high low => (word high low).toBitVec) high.toList low.toList =
      (List.range 256).map table) (index : UInt8) :
    (word (high.get index.toFin) (low.get index.toFin)).toBitVec = table index.toNat := by
  have inside : index.toNat < 256 := index.toNat_lt
  have entry := congrArg (fun entries => entries[index.toNat]?) checked
  simp only [List.getElem?_zipWith, List.getElem?_map, List.getElem?_range inside,
    Option.map_some] at entry
  rw [List.getElem?_eq_getElem (by rwa [Vector.length_toList]),
    List.getElem?_eq_getElem (by rwa [Vector.length_toList])] at entry
  exact Option.some.inj entry

theorem tables_checked :
    List.zipWith (fun high low => (word high low).toBitVec) aucCRCLo.toList aucCRCHi.toList =
      (List.range 256).map fun i => (shift crcPoly)^[8] (BitVec.ofNat 16 i) := by
  decide +kernel

/-- Every entry of the tables is what its index makes of an empty register. -/
theorem table_entry (index : UInt8) :
    (word (aucCRCLo.get index.toFin) (aucCRCHi.get index.toFin)).toBitVec =
      (shift crcPoly)^[8] (index.toBitVec.setWidth 16) := by
  rw [← BitVec.ofNat_toNat]
  exact entry_of_tables tables_checked index

theorem crcStep_feedByte (crc : UInt8 × UInt8) (data : UInt8) :
    (word (crcStep crc data).1 (crcStep crc data).2).toBitVec =
      feedByte crcPoly (word crc.1 crc.2).toBitVec data := by
  rcases crc with ⟨high, low⟩
  let index : UInt8 := low ^^^ data
  have moves : (shift crcPoly)^[8] (high.toBitVec.setWidth 16 <<< 8) =
      high.toBitVec.setWidth 16 := by
    apply iterate_double
    intro i above
    rw [BitVec.getLsbD_setWidth, BitVec.getLsbD_of_ge _ _ above, Bool.and_false]
  have joins : index.toBitVec.setWidth 16 =
      low.toBitVec.setWidth 16 ^^^ data.toBitVec.setWidth 16 := by
    rw [UInt8.toBitVec_xor, BitVec.setWidth_xor]
  calc (word (aucCRCLo.get index.toFin) (high ^^^ aucCRCHi.get index.toFin)).toBitVec
      = high.toBitVec.setWidth 16 ^^^
          (word (aucCRCLo.get index.toFin) (aucCRCHi.get index.toFin)).toBitVec := by
        rw [word_toBitVec, word_toBitVec, UInt8.toBitVec_xor, BitVec.setWidth_xor]
        ac_rfl
    _ = (shift crcPoly)^[8] (high.toBitVec.setWidth 16 <<< 8 ^^^ index.toBitVec.setWidth 16) := by
        rw [table_entry, iterate_xor, moves]
    _ = feedByte crcPoly (word high low).toBitVec data := by
        rw [feedByte, word_toBitVec, joins, BitVec.xor_assoc]

theorem modbusCalcCrc_register (pucFrame : List UInt8) :
    (modbusCalcCrc pucFrame).toBitVec = feed crcPoly 0xFFFF (bitsOf pucFrame) := by
  have run (crc : UInt8 × UInt8) :
      (word (pucFrame.foldl crcStep crc).1 (pucFrame.foldl crcStep crc).2).toBitVec =
        checksum crcPoly (word crc.1 crc.2).toBitVec pucFrame := by
    induction pucFrame generalizing crc with
    | nil => rfl
    | cons data pucFrame ih =>
        rw [List.foldl_cons, ih, crcStep_feedByte]
        rfl
  rw [feed_bitsOf crcPoly (by decide)]
  exact run (0xFF, 0xFF)

/-- For every frame the tables give the reflected checksum with polynomial 0xA001 and initial
value 0xFFFF, bit by bit, and the byte that is sent first is its low half. -/
theorem crc16_modbus (pucFrame : List UInt8) :
    (modbusCalcCrc pucFrame).toBitVec = feed 0xA001#16 0xFFFF#16 (bitsOf pucFrame) ∧
      (lowByte (modbusCalcCrc pucFrame)).toBitVec =
        (feed 0xA001#16 0xFFFF#16 (bitsOf pucFrame)).setWidth 8 := by
  have same := modbusCalcCrc_register pucFrame
  refine ⟨same, ?_⟩
  change _ = (feed crcPoly 0xFFFF (bitsOf pucFrame)).setWidth 8
  rw [← same, lowByte, UInt16.toBitVec_toUInt8, UInt16.toBitVec_and]
  apply BitVec.eq_of_toNat_eq
  simp only [BitVec.toNat_setWidth, BitVec.toNat_and, Nat.reducePow]
  have masked := Nat.and_two_pow_sub_one_eq_mod (modbusCalcCrc pucFrame).toBitVec.toNat 8
  exact (congrArg (· % 256) masked).trans (Nat.mod_mod _ _)

example : modbusCalcCrc [0x31, 0x32, 0x33, 0x34, 0x35, 0x36, 0x37, 0x38, 0x39] = 0x4B37 := by
  decide +kernel

/-- The bits in which two messages differ, in the order they are sent. -/
def errorBits (sent received : List UInt8) : List Bool :=
  List.zipWith xor (bitsOf sent) (bitsOf received)

/-- What a frame with a wrong checksum leaves of a slave: it waits for the next frame, and
neither the application nor the line has seen anything. -/
structure Dropped (slave after : ModbusRTUSlave σ) : Prop where
  waits : after.dataNdx = 0
  calls : after.calls = slave.calls
  store : after.store = slave.store
  sent : after.sent = slave.sent

theorem wrong_checksum_dropped (ctx : ModbusSlaveCTX σ) (kernel : List UInt8 → WriteResult)
    {slave : ModbusRTUSlave σ} {held : List UInt8} (long : 4 ≤ held.length)
    (ndx : slave.dataNdx.toNat = held.length) (holds : front slave.dataBuffer held.length = held)
    (wrong : modbusCalcCrc held ≠ 0) :
    ∃ after, mbRtuStartHandlingRxFrame ctx kernel slave = some after ∧ Dropped slave after := by
  have nonempty : slave.dataNdx ≠ 0 := by
    intro zero
    rw [zero] at ndx
    simp at ndx
    omega
  have enough : ¬ slave.dataNdx < 4 := by
    rw [UInt16.lt_iff_toNat_lt]
    simp
    omega
  simp only [mbRtuStartHandlingRxFrame, nonempty, enough, if_false, ndx, holds, ne_eq, wrong,
    not_false_eq_true, if_true]
  exact ⟨_, rfl, rfl, rfl, rfl, rfl⟩

theorem crcPoly_order {d : Nat} (positive : 0 < d) (below : d < 2048) :
    (shift crcPoly)^[d] 1#16 ≠ 1#16 := by
  have leaves : leavesOne crcPoly 2047 1#16 = true := by decide +kernel
  exact iterate_ne_one leaves positive below

/-- One or two wrong bits, an odd number of them or a burst of at most sixteen are found in
every frame that was accepted, and the slave drops what it received. -/
theorem crc_detects (sent received : List UInt8) (long : 4 ≤ sent.length)
    (short : sent.length ≤ 256) (accepted : modbusCalcCrc sent = 0)
    (same : received.length = sent.length) (detectable : Detectable 16 (errorBits sent received)) :
    modbusCalcCrc received ≠ 0 ∧
      ∀ {σ : Type} (ctx : ModbusSlaveCTX σ) (kernel : List UInt8 → WriteResult)
        (slave : ModbusRTUSlave σ), slave.dataNdx.toNat = received.length →
        front slave.dataBuffer received.length = received →
        ∃ after, mbRtuStartHandlingRxFrame ctx kernel slave = some after ∧ Dropped slave after := by
  have wrong : modbusCalcCrc received ≠ 0 := by
    intro zero
    have left := modbusCalcCrc_register sent
    have right := modbusCalcCrc_register received
    rw [accepted] at left
    rw [zero] at right
    refine not_both_zero (by decide) (by decide) (by decide) (fun d => crcPoly_order)
      0xFFFF#16 ?_ ?_ detectable left.symm right.symm
    · rw [bitsOf_length, bitsOf_length, same]
    · rw [bitsOf_length]
      omega
  refine ⟨wrong, fun ctx kernel slave ndx holds => ?_⟩
  exact wrong_checksum_dropped ctx kernel (by omega) ndx holds wrong

/-- A request to write a register with two bits wrong, one in its address and one in its
value. -/
theorem crc_detects_two : modbusCalcCrc [1, 6, 0, 2, 0, 3, 200, 8] ≠ 0 :=
  (crc_detects [1, 6, 0, 0, 0, 7, 200, 8] [1, 6, 0, 2, 0, 3, 200, 8] (by decide) (by decide)
    (by decide +kernel) rfl (.inr (.inl (by decide)))).1

end KongjaExpress.Modbus
