import Mathlib.Tactic

/-! The shift register of a reflected cyclic redundancy check: what it makes of a message bit
by bit, and which errors it cannot miss. -/

namespace KongjaExpress.CrcRegister

variable {w : Nat}

def unit (bit : Bool) : BitVec w := if bit then 1#w else 0#w

/-- One step of the register; `poly` holds the polynomial, its highest coefficient lowest. -/
def shift (poly r : BitVec w) : BitVec w := if r.getLsbD 0 then (r >>> 1) ^^^ poly else r >>> 1

def feedBit (poly r : BitVec w) (bit : Bool) : BitVec w := shift poly (r ^^^ unit bit)

def feed (poly r : BitVec w) (bits : List Bool) : BitVec w := bits.foldl (feedBit poly) r

/-- The bits of a byte in the order they are sent, the least significant first. -/
def byteBits (byte : UInt8) : List Bool := (List.range 8).map byte.toBitVec.getLsbD

def bitsOf (bytes : List UInt8) : List Bool := bytes.flatMap byteBits

/-- A byte enters the register as a whole, and is shifted out of it. -/
def feedByte (poly r : BitVec w) (byte : UInt8) : BitVec w :=
  (shift poly)^[8] (r ^^^ byte.toBitVec.setWidth w)

def checksum (poly init : BitVec w) (bytes : List UInt8) : BitVec w :=
  bytes.foldl (feedByte poly) init

def ofBits : List Bool → BitVec w
  | [] => 0#w
  | bit :: bits => unit bit ^^^ (ofBits bits <<< 1)

section Linear

variable (poly : BitVec w)

theorem shift_xor (a b : BitVec w) : shift poly (a ^^^ b) = shift poly a ^^^ shift poly b := by
  simp only [shift, BitVec.getLsbD_xor, BitVec.ushiftRight_xor_distrib]
  cases a.getLsbD 0 <;> cases b.getLsbD 0
  · rfl
  · exact BitVec.xor_assoc _ _ _
  · calc
      a >>> 1 ^^^ b >>> 1 ^^^ poly = a >>> 1 ^^^ (poly ^^^ b >>> 1) := by
        rw [BitVec.xor_assoc, BitVec.xor_comm (b >>> 1)]
      _ = a >>> 1 ^^^ poly ^^^ b >>> 1 := (BitVec.xor_assoc _ _ _).symm
  · calc
      a >>> 1 ^^^ b >>> 1 = a >>> 1 ^^^ (poly ^^^ poly) ^^^ b >>> 1 := by simp
      _ = (a >>> 1 ^^^ poly) ^^^ (b >>> 1 ^^^ poly) := by
        rw [← BitVec.xor_assoc, BitVec.xor_assoc, BitVec.xor_comm poly (b >>> 1)]

theorem shift_zero : shift poly 0#w = 0#w := by simp [shift]

theorem iterate_xor (n : Nat) (a b : BitVec w) :
    (shift poly)^[n] (a ^^^ b) = (shift poly)^[n] a ^^^ (shift poly)^[n] b := by
  induction n generalizing a b with
  | zero => rfl
  | succ n ih =>
      rw [Function.iterate_succ_apply, Function.iterate_succ_apply, Function.iterate_succ_apply,
        shift_xor]
      exact ih _ _

theorem unit_xor (a b : Bool) : unit (w := w) (a ^^ b) = unit a ^^^ unit b := by
  cases a <;> cases b <;> simp [unit]

/-- Two messages into two registers are their difference into the registers' difference. -/
theorem feed_xor (a b : BitVec w) {left right : List Bool} (same : left.length = right.length) :
    feed poly (a ^^^ b) (List.zipWith xor left right) = feed poly a left ^^^ feed poly b right := by
  induction left generalizing a b right with
  | nil =>
      obtain rfl := List.length_eq_zero_iff.mp same.symm
      rfl
  | cons bit left ih =>
      cases right with
      | nil => cases same
      | cons other right =>
          have step : feedBit poly (a ^^^ b) (bit ^^ other) =
              feedBit poly a bit ^^^ feedBit poly b other := by
            calc feedBit poly (a ^^^ b) (bit ^^ other)
                = shift poly ((a ^^^ unit bit) ^^^ (b ^^^ unit other)) := by
                  rw [feedBit, unit_xor]
                  congr 1
                  ac_rfl
              _ = feedBit poly a bit ^^^ feedBit poly b other := shift_xor poly _ _
          simp only [List.zipWith_cons_cons, feed, List.foldl_cons, step]
          exact ih _ _ (Nat.succ.inj same)

theorem feed_quiet (r : BitVec w) (n : Nat) :
    feed poly r (List.replicate n false) = (shift poly)^[n] r := by
  induction n generalizing r with
  | zero => rfl
  | succ n ih =>
      have step : feedBit poly r false = shift poly r := by simp [feedBit, unit]
      rw [List.replicate_succ, feed, List.foldl_cons, step]
      exact ih _

theorem iterate_zero (n : Nat) : (shift poly)^[n] 0#w = 0#w := by
  induction n with
  | zero => rfl
  | succ n ih => rw [Function.iterate_succ_apply, shift_zero, ih]

theorem feed_append (r : BitVec w) (front back : List Bool) :
    feed poly r (front ++ back) = feed poly (feed poly r front) back := List.foldl_append

end Linear

section Bits

theorem getLsbD_unit (bit : Bool) {i : Nat} (inside : i < w) :
    (unit (w := w) bit).getLsbD i = (decide (i = 0) && bit) := by
  cases bit <;> simp [unit, inside]

theorem getLsbD_ofBits (bits : List Bool) {i : Nat} (inside : i < w) :
    (ofBits (w := w) bits).getLsbD i = bits.getD i false := by
  induction bits generalizing i with
  | nil => simp [ofBits]
  | cons bit bits ih =>
      rw [ofBits, BitVec.getLsbD_xor, getLsbD_unit bit inside, BitVec.getLsbD_shiftLeft]
      cases i with
      | zero => simp
      | succ i => simp [inside, ih (i := i) (by omega)]

theorem ofBits_zero {bits : List Bool} (short : bits.length ≤ w) (zero : ofBits bits = 0#w) :
    true ∉ bits := by
  intro member
  rcases List.getElem_of_mem member with ⟨i, inside, set⟩
  have clear := getLsbD_ofBits (w := w) bits (i := i) (by omega)
  rw [zero, List.getD_eq_getElem?_getD, List.getElem?_eq_getElem inside, set] at clear
  simp at clear

variable (poly : BitVec w)

theorem shift_double {x : BitVec w} (free : x.getLsbD (w - 1) = false) :
    shift poly (x <<< 1) = x := by
  have even : (x <<< 1).getLsbD 0 = false := by simp
  rw [shift, even, if_neg Bool.false_ne_true]
  apply BitVec.eq_of_getLsbD_eq
  intro i inside
  rw [BitVec.getLsbD_ushiftRight, BitVec.getLsbD_shiftLeft]
  by_cases top : i + 1 < w
  · have place : 1 + i - 1 = i := by omega
    have low : ¬ 1 + i < 1 := by omega
    have fits : 1 + i < w := by omega
    simp [place, low, fits]
  · obtain rfl : i = w - 1 := by omega
    have full : ¬ 1 + (w - 1) < w := by omega
    simp [full, free]

theorem iterate_double {x : BitVec w} {n : Nat} (free : ∀ i, w - n ≤ i → x.getLsbD i = false) :
    (shift poly)^[n] (x <<< n) = x := by
  induction n with
  | zero => simp
  | succ n ih =>
      have top : (x <<< n).getLsbD (w - 1) = false := by
        rw [BitVec.getLsbD_shiftLeft]
        by_cases inside : w - 1 < n
        · simp [inside]
        · rw [free (w - 1 - n) (by omega), Bool.and_false]
      rw [BitVec.shiftLeft_add, Function.iterate_succ_apply, shift_double poly top]
      exact ih fun i above => free i (by omega)

theorem feed_ofBits (r : BitVec w) {bits : List Bool} (short : bits.length ≤ w) :
    feed poly r bits = (shift poly)^[bits.length] (r ^^^ ofBits bits) := by
  induction bits generalizing r with
  | nil => simp [feed, ofBits]
  | cons bit bits ih =>
      rw [List.length_cons] at short
      have free : (ofBits (w := w) bits).getLsbD (w - 1) = false := by
        rw [getLsbD_ofBits bits (by omega), List.getD_eq_getElem?_getD,
          List.getElem?_eq_none (by omega)]
        rfl
      have step : shift poly (r ^^^ ofBits (bit :: bits)) = feedBit poly r bit ^^^ ofBits bits := by
        rw [ofBits, ← BitVec.xor_assoc, shift_xor, shift_double poly free]
        rfl
      rw [List.length_cons, Function.iterate_succ_apply, step]
      exact ih _ (by omega)

theorem byteBits_length (byte : UInt8) : (byteBits byte).length = 8 := by simp [byteBits]

theorem bitsOf_length (bytes : List UInt8) : (bitsOf bytes).length = 8 * bytes.length := by
  induction bytes with
  | nil => rfl
  | cons byte bytes ih =>
      rw [bitsOf, List.flatMap_cons, List.length_append, byteBits_length, List.length_cons]
      change 8 + (bitsOf bytes).length = _
      omega

theorem ofBits_byteBits (byte : UInt8) : ofBits (byteBits byte) = byte.toBitVec.setWidth w := by
  apply BitVec.eq_of_getLsbD_eq
  intro i inside
  rw [getLsbD_ofBits _ inside, BitVec.getLsbD_setWidth]
  by_cases low : i < 8
  · simp [byteBits, List.getD_eq_getElem?_getD, low, inside]
  · have outside : (byteBits byte).length ≤ i := by
      rw [byteBits_length]
      omega
    rw [List.getD_eq_getElem?_getD, List.getElem?_eq_none outside,
      BitVec.getLsbD_of_ge _ _ (Nat.not_lt.mp low), Bool.and_false]
    rfl

theorem feed_bitsOf (wide : 8 ≤ w) (r : BitVec w) (bytes : List UInt8) :
    feed poly r (bitsOf bytes) = checksum poly r bytes := by
  induction bytes generalizing r with
  | nil => rfl
  | cons byte bytes ih =>
      have first : feed poly r (byteBits byte) = feedByte poly r byte := by
        have fits : (byteBits byte).length ≤ w := by rwa [byteBits_length]
        have enters := feed_ofBits poly r fits
        rw [byteBits_length, ofBits_byteBits] at enters
        exact enters
      rw [bitsOf, List.flatMap_cons, feed_append, first]
      exact ih _

end Bits

section Detection

variable {poly : BitVec w}

theorem shift_kernel (top : poly.msb = true) {r : BitVec w} (gone : shift poly r = 0#w) :
    r = 0#w := by
  cases low : r.getLsbD 0 with
  | true =>
      rw [shift, if_pos low, BitVec.xor_eq_zero_iff] at gone
      rw [← gone, BitVec.msb_ushiftRight] at top
      simp at top
  | false =>
      rw [shift, low, if_neg Bool.false_ne_true] at gone
      apply BitVec.eq_of_getLsbD_eq
      intro i inside
      cases i with
      | zero => simpa using low
      | succ i =>
          have above := congrArg (fun x => BitVec.getLsbD x i) gone
          simpa [Nat.add_comm] using above

theorem iterate_kernel (top : poly.msb = true) {n : Nat} {r : BitVec w}
    (gone : (shift poly)^[n] r = 0#w) : r = 0#w := by
  induction n generalizing r with
  | zero => exact gone
  | succ n ih => exact shift_kernel top (ih gone)

/-- Zeros before an error and behind it do not matter. -/
theorem feed_padded (top : poly.msb = true) (before after : Nat) {errors : List Bool}
    (missed : feed poly 0#w (List.replicate before false ++ errors ++
      List.replicate after false) = 0#w) : feed poly 0#w errors = 0#w := by
  rw [feed_append, feed_append, feed_quiet, feed_quiet, iterate_zero] at missed
  exact iterate_kernel top missed

/-- An error that is no longer than the register is not missed. -/
theorem detects_burst (top : poly.msb = true) (before after : Nat) {burst : List Bool}
    (short : burst.length ≤ w) (wrong : true ∈ burst) :
    feed poly 0#w (List.replicate before false ++ burst ++ List.replicate after false) ≠ 0#w := by
  intro missed
  have alone := feed_padded top before after missed
  rw [feed_ofBits poly _ short, BitVec.zero_xor] at alone
  exact ofBits_zero short (iterate_kernel top alone) wrong

/-- Two errors are not missed if the register does not come back to one in as many steps as
they are apart. -/
theorem detects_pair (top : poly.msb = true) (before between after : Nat)
    (apart : (shift poly)^[between + 1] 1#w ≠ 1#w) :
    feed poly 0#w (List.replicate before false ++
      (true :: (List.replicate between false ++ [true])) ++ List.replicate after false) ≠ 0#w := by
  intro missed
  have alone := feed_padded top before after missed
  have first : feedBit poly 0#w true = shift poly 1#w := by simp [feedBit, unit]
  rw [feed, List.foldl_cons, first] at alone
  change feed poly (shift poly 1#w) (List.replicate between false ++ [true]) = 0#w at alone
  rw [feed_append, feed_quiet, ← Function.iterate_succ_apply] at alone
  have last := shift_kernel top alone
  exact apart (BitVec.xor_eq_zero_iff.mp last)

def parityBelow (r : BitVec w) : Nat → Bool
  | 0 => false
  | n + 1 => parityBelow r n ^^ r.getLsbD n

def parity (r : BitVec w) : Bool := parityBelow r w

theorem parityBelow_xor (a b : BitVec w) (n : Nat) :
    parityBelow (a ^^^ b) n = (parityBelow a n ^^ parityBelow b n) := by
  induction n with
  | zero => rfl
  | succ n ih =>
      rw [parityBelow, parityBelow, parityBelow, ih, BitVec.getLsbD_xor]
      cases parityBelow a n <;> cases parityBelow b n <;> cases a.getLsbD n <;>
        cases b.getLsbD n <;> rfl

theorem parityBelow_ushiftRight (r : BitVec w) (n : Nat) :
    parityBelow (r >>> 1) n = (parityBelow r (n + 1) ^^ r.getLsbD 0) := by
  induction n with
  | zero => cases low : r.getLsbD 0 <;> simp [parityBelow, low]
  | succ n ih =>
      calc parityBelow (r >>> 1) (n + 1)
          = (parityBelow r (n + 1) ^^ r.getLsbD 0 ^^ r.getLsbD (n + 1)) := by
            rw [parityBelow, ih, BitVec.getLsbD_ushiftRight, Nat.add_comm 1 n]
        _ = (parityBelow r (n + 1) ^^ r.getLsbD (n + 1) ^^ r.getLsbD 0) := Bool.xor_right_comm _ _ _

/-- What falls out of the register is made up for by a polynomial of odd weight. -/
theorem parity_shift (odd : parity poly = true) (r : BitVec w) :
    parity (shift poly r) = parity r := by
  have down : parity (r >>> 1) = (parity r ^^ r.getLsbD 0) := by
    have above : r.getLsbD w = false := BitVec.getLsbD_of_ge r w le_rfl
    rw [parity, parityBelow_ushiftRight, parityBelow, above, Bool.xor_false]
    rfl
  cases low : r.getLsbD 0 with
  | true =>
      rw [shift, if_pos low]
      calc parity (r >>> 1 ^^^ poly) = (parity (r >>> 1) ^^ parity poly) := parityBelow_xor _ _ _
        _ = parity r := by rw [down, low, odd]; simp
  | false =>
      rw [shift, low, if_neg Bool.false_ne_true, down, low, Bool.xor_false]

theorem parity_zero : parity (0#w) = false := by
  have below (n : Nat) : parityBelow (0#w) n = false := by
    induction n with
    | zero => rfl
    | succ n ih => rw [parityBelow, ih, BitVec.getLsbD_zero, Bool.xor_false]
  exact below w

theorem parity_one (wide : 0 < w) : parity (1#w) = true := by
  have below (n : Nat) : parityBelow (1#w) (n + 1) = true := by
    induction n with
    | zero => simp [parityBelow, wide]
    | succ n ih => rw [parityBelow, ih]; simp
  obtain ⟨n, rfl⟩ := Nat.exists_eq_succ_of_ne_zero wide.ne'
  exact below n

theorem parity_feed (odd : parity poly = true) (wide : 0 < w) (r : BitVec w) (bits : List Bool) :
    parity (feed poly r bits) = (parity r ^^ decide (bits.count true % 2 = 1)) := by
  induction bits generalizing r with
  | nil => simp [feed]
  | cons bit bits ih =>
      have one : parity (unit (w := w) bit) = bit := by
        cases bit
        · exact parity_zero
        · exact parity_one wide
      have step : parity (feedBit poly r bit) = (parity r ^^ bit) := by
        calc parity (feedBit poly r bit) = parity (r ^^^ unit bit) := parity_shift odd _
          _ = (parity r ^^ parity (unit (w := w) bit)) := parityBelow_xor _ _ _
          _ = (parity r ^^ bit) := by rw [one]
      calc parity (feed poly r (bit :: bits))
          = (parity (feedBit poly r bit) ^^ decide (bits.count true % 2 = 1)) := ih _
        _ = (parity r ^^ decide ((bit :: bits).count true % 2 = 1)) := by
          rw [step, Bool.xor_assoc]
          congr 1
          cases bit
          · simp
          · rcases Nat.mod_two_eq_zero_or_one (bits.count true) with even | odd
            · simp [Nat.add_mod, even]
            · simp [Nat.add_mod, odd]

/-- An odd number of errors is not missed. -/
theorem detects_odd (odd : parity poly = true) (wide : 0 < w) {errors : List Bool}
    (wrong : errors.count true % 2 = 1) : feed poly 0#w errors ≠ 0#w := by
  intro missed
  have sum := parity_feed odd wide 0#w errors
  rw [missed, parity_zero, Bool.false_xor, decide_eq_true wrong] at sum
  exact Bool.false_ne_true sum

/-- One or two errors, an odd number of them, or errors in a window as long as the register. -/
def Detectable (w : Nat) (errors : List Bool) : Prop :=
  errors.count true = 1 ∨ errors.count true = 2 ∨ errors.count true % 2 = 1 ∨
    true ∈ errors ∧
      ∃ start, ∀ p, errors[p]? = some true → start ≤ p ∧ p < start + w

theorem quiet_of_not_mem {errors : List Bool} (quiet : true ∉ errors) :
    errors = List.replicate errors.length false := by
  apply List.eq_replicate_of_mem
  intro bit member
  cases bit with
  | false => rfl
  | true => exact absurd member quiet

theorem split_first {errors : List Bool} (wrong : true ∈ errors) :
    ∃ before rest, errors = List.replicate before false ++ true :: rest := by
  induction errors with
  | nil => cases wrong
  | cons bit errors ih =>
      cases bit with
      | true => exact ⟨0, errors, rfl⟩
      | false =>
          have later : true ∈ errors := by simpa using wrong
          rcases ih later with ⟨before, rest, split⟩
          exact ⟨before + 1, rest, by rw [split]; rfl⟩

theorem split_pair {errors : List Bool} (two : errors.count true = 2) :
    ∃ before between after, errors = List.replicate before false ++
      (true :: (List.replicate between false ++ [true])) ++ List.replicate after false := by
  have some : true ∈ errors := List.count_pos_iff.mp (by omega)
  rcases split_first some with ⟨before, rest, rfl⟩
  simp only [List.count_append, List.count_replicate, List.count_cons_self] at two
  have one : rest.count true = 1 := by simpa using two
  have more : true ∈ rest := List.count_pos_iff.mp (by omega)
  rcases split_first more with ⟨between, last, rfl⟩
  simp only [List.count_append, List.count_replicate, List.count_cons_self] at one
  have none : last.count true = 0 := by simpa using one
  have quiet := quiet_of_not_mem (List.count_eq_zero.mp none)
  refine ⟨before, between, last.length, ?_⟩
  rw [← quiet]
  simp

theorem split_window {errors : List Bool} {start width : Nat}
    (window : ∀ p, errors[p]? = some true → start ≤ p ∧ p < start + width) :
    ∃ before burst after,
      errors = List.replicate before false ++ burst ++ List.replicate after false ∧
        burst.length ≤ width := by
  have front : true ∉ errors.take start := by
    intro member
    rcases List.getElem?_of_mem member with ⟨p, found⟩
    rw [List.getElem?_take] at found
    split_ifs at found with inside
    have := (window p found).1
    omega
  have back : true ∉ (errors.drop start).drop width := by
    intro member
    rcases List.getElem?_of_mem member with ⟨p, found⟩
    rw [List.getElem?_drop, List.getElem?_drop] at found
    have := (window _ found).2
    omega
  have split : errors = errors.take start ++ (errors.drop start).take width ++
      (errors.drop start).drop width := by
    rw [List.append_assoc, List.take_append_drop, List.take_append_drop]
  rw [quiet_of_not_mem front, quiet_of_not_mem back] at split
  exact ⟨_, (errors.drop start).take width, _, split, by rw [List.length_take]; omega⟩

/-- The errors a register cannot miss, in messages shorter than its order. -/
theorem detects (top : poly.msb = true) (odd : parity poly = true) (wide : 0 < w) {range : Nat}
    (order : ∀ d, 0 < d → d < range → (shift poly)^[d] 1#w ≠ 1#w) {errors : List Bool}
    (short : errors.length ≤ range) (detectable : Detectable w errors) :
    feed poly 0#w errors ≠ 0#w := by
  rcases detectable with single | pair | many | ⟨wrong, start, window⟩
  · exact detects_odd odd wide (by rw [single])
  · rcases split_pair pair with ⟨before, between, after, rfl⟩
    simp only [List.length_append, List.length_replicate, List.length_cons] at short
    exact detects_pair top before between after (order _ (by omega) (by omega))
  · exact detects_odd odd wide many
  · rcases split_window window with ⟨before, burst, after, rfl, fits⟩
    have inside : true ∈ burst := by simpa using wrong
    exact detects_burst top before after fits inside

theorem not_both_zero (top : poly.msb = true) (odd : parity poly = true) (wide : 0 < w)
    {range : Nat} (order : ∀ d, 0 < d → d < range → (shift poly)^[d] 1#w ≠ 1#w) (r : BitVec w)
    {left right : List Bool} (same : left.length = right.length) (short : left.length ≤ range)
    (detectable : Detectable w (List.zipWith xor left right)) (accepted : feed poly r left = 0#w) :
    feed poly r right ≠ 0#w := by
  intro missed
  have difference := feed_xor poly r r same
  rw [accepted, missed, BitVec.xor_self, BitVec.xor_self] at difference
  refine detects top odd wide order ?_ detectable difference
  rw [List.length_zipWith]
  omega

/-- The register does not come to one in the next `n` steps. -/
def leavesOne (poly : BitVec w) : Nat → BitVec w → Bool
  | 0, _ => true
  | n + 1, r => decide (shift poly r ≠ 1#w) && leavesOne poly n (shift poly r)

theorem iterate_ne_one {n : Nat} {r : BitVec w} (leaves : leavesOne poly n r = true) {d : Nat}
    (positive : 0 < d) (below : d < n + 1) : (shift poly)^[d] r ≠ 1#w := by
  induction n generalizing r d with
  | zero => omega
  | succ n ih =>
      rw [leavesOne, Bool.and_eq_true, decide_eq_true_eq] at leaves
      obtain ⟨d, rfl⟩ := Nat.exists_eq_succ_of_ne_zero positive.ne'
      rw [Function.iterate_succ_apply]
      rcases Nat.eq_zero_or_pos d with rfl | more
      · exact leaves.1
      · exact ih leaves.2 more (by omega)

end Detection

end KongjaExpress.CrcRegister
