import KongjaExpress.Utils.JsonPrint

/-! What `cJSON.c` prints, it parses back to the same tree, with and without formatting. -/

namespace KongjaExpress.Json

open Utils

variable {D : Type} {f : Doubles D}

/-- A text that no number before it goes on into. -/
def Stops : List UInt8 → Prop
  | [] => False
  | b :: _ => isDigit b = false ∧ b ≠ point ∧ b ≠ 0x65 ∧ b ≠ 0x45

/-- A byte that `skip` passes. -/
def Blank (b : UInt8) : Prop := b ≠ 0 ∧ b ≤ 32

theorem skip_append {front : List UInt8} (blank : ∀ b ∈ front, Blank b) (p : List UInt8) :
    skip (front ++ p) = skip p := by
  induction front with
  | nil => rfl
  | cons b front ih =>
      have first : b ≠ 0 ∧ b ≤ 32 := blank b List.mem_cons_self
      rw [List.cons_append, skip, if_pos first]
      exact ih fun other member => blank other (List.mem_cons_of_mem b member)

theorem skip_cons {b : UInt8} (solid : ¬ Blank b) (p : List UInt8) : skip (b :: p) = .ok (b :: p) :=
  if_neg solid

theorem skip_suffix {p q : List UInt8} (skipped : skip p = .ok q) : q <:+ p := by
  induction p with
  | nil => cases skipped
  | cons b p ih =>
      rw [skip] at skipped
      split_ifs at skipped
      · exact (ih skipped).trans (List.suffix_cons b p)
      · rw [← Except.ok.inj skipped]

theorem tabs_blank (fmt : Bool) (count : Nat) : ∀ b ∈ tabs fmt count, Blank b := by
  intro b member
  cases fmt with
  | false => simp [tabs] at member
  | true =>
      rw [List.eq_of_mem_replicate member]
      exact ⟨by decide, by decide⟩

theorem lineEnd_blank (fmt : Bool) : ∀ b ∈ lineEnd fmt, Blank b := by
  intro b member
  cases fmt with
  | false => simp [lineEnd] at member
  | true =>
      rw [List.mem_singleton.mp member]
      exact ⟨by decide, by decide⟩

/-! Strings. -/

inductive EscapeShape (b : UInt8) : List UInt8 → Prop
  | copied (plain : 31 < b ∧ b ≠ quote ∧ b ≠ backslash) : EscapeShape b [b]
  | letter (c : UInt8) (known : ∀ p, unescape (c :: p) = .ok ([b], p)) :
      EscapeShape b [backslash, c]
  | code (control : b < 32) :
      EscapeShape b [backslash, 0x75, 0x30, 0x30, hexChar (b / 16), hexChar (b % 16)]

theorem escapeByte_shape (b : UInt8) : EscapeShape b (escapeByte b) := by
  by_cases plain : 31 < b ∧ b ≠ quote ∧ b ≠ backslash
  · rw [escapeByte, if_pos plain]
    exact .copied plain
  rw [escapeByte, if_neg plain]
  split_ifs with slash single bs ff nl cr ht
  · exact .letter backslash (fun p => by rw [slash]; rfl)
  · exact .letter quote (fun p => by rw [single]; rfl)
  · exact .letter 0x62 (fun p => by rw [bs]; rfl)
  · exact .letter 0x66 (fun p => by rw [ff]; rfl)
  · exact .letter 0x6e (fun p => by rw [nl]; rfl)
  · exact .letter 0x72 (fun p => by rw [cr]; rfl)
  · exact .letter 0x74 (fun p => by rw [ht]; rfl)
  · apply EscapeShape.code
    have low : ¬ 31 < b.toNat := fun high => plain ⟨high, single, slash⟩
    exact (by omega : b.toNat < 32)

theorem hexDigit_hexChar {n : UInt8} (small : n < 16) : hexDigit (hexChar n) = some n.toUInt32 := by
  have all : ∀ n < 16, hexDigit (hexChar (UInt8.ofNat n)) = some (UInt8.ofNat n).toUInt32 := by
    decide
  have here := all n.toNat small
  rwa [UInt8.ofNat_toNat] at here

theorem hexChar_plain {n : UInt8} (small : n < 16) :
    hexChar n ≠ quote ∧ hexChar n ≠ 0 ∧ hexChar n ≠ backslash := by
  have digit := hexDigit_hexChar small
  refine ⟨?_, ?_, ?_⟩
  all_goals
    intro same
    rw [same] at digit
    contradiction

theorem high_small (b : UInt8) : b / 16 < 16 := by
  rw [UInt8.lt_iff_toNat_lt, UInt8.toNat_div]
  have := b.toNat_lt
  change b.toNat / 16 < 16
  omega

theorem low_small (b : UInt8) : b % 16 < 16 := by
  rw [UInt8.lt_iff_toNat_lt, UInt8.toNat_mod]
  exact Nat.mod_lt _ (by decide)

theorem unescape_code {b : UInt8} (nonzero : b ≠ 0) (control : b < 32) (p : List UInt8) :
    unescape (0x75 :: 0x30 :: 0x30 :: hexChar (b / 16) :: hexChar (b % 16) :: p) =
      .ok ([b], p) := by
  have value : ((0 : UInt32) <<< 4 + (b / 16).toUInt32) <<< (4 : UInt32) + (b % 16).toUInt32 =
      b.toUInt32 := by
    have all : ∀ n < 32, ((0 : UInt32) <<< 4 + (UInt8.ofNat n / 16).toUInt32) <<< (4 : UInt32) +
        (UInt8.ofNat n % 16).toUInt32 = (UInt8.ofNat n).toUInt32 := by decide
    have here := all b.toNat control
    rwa [UInt8.ofNat_toNat] at here
  have digits : parseHex4 (0x30 :: 0x30 :: hexChar (b / 16) :: hexChar (b % 16) :: p) =
      .ok b.toUInt32 := by
    rw [← value]
    simp only [parseHex4, parseHexDigits, peek, hexDigit_hexChar (high_small b),
      hexDigit_hexChar (low_small b), List.tail_cons, bind, Except.bind]
    rfl
  have plain : ¬ ((0xdc00 ≤ b.toUInt32 ∧ b.toUInt32 ≤ 0xdfff) ∨ b.toUInt32 = 0) ∧
      ¬ (0xd800 ≤ b.toUInt32 ∧ b.toUInt32 ≤ 0xdbff) ∧ utf8 b.toUInt32 = [b] := by
    have all : ∀ n < 32, UInt8.ofNat n ≠ 0 →
        ¬ ((0xdc00 ≤ (UInt8.ofNat n).toUInt32 ∧ (UInt8.ofNat n).toUInt32 ≤ 0xdfff) ∨
          (UInt8.ofNat n).toUInt32 = 0) ∧
        ¬ (0xd800 ≤ (UInt8.ofNat n).toUInt32 ∧ (UInt8.ofNat n).toUInt32 ≤ 0xdbff) ∧
        utf8 (UInt8.ofNat n).toUInt32 = [UInt8.ofNat n] := by decide
    have here := all b.toNat control
    rw [UInt8.ofNat_toNat] at here
    exact here nonzero
  have unicode : unescapeUnicode
      (0x75 :: 0x30 :: 0x30 :: hexChar (b / 16) :: hexChar (b % 16) :: p) =
        .ok ([b], hexChar (b % 16) :: p) := by
    change (parseHex4 _).bind _ = _
    rw [List.tail_cons, digits]
    change (if _ then _ else if _ then _ else _) = _
    rw [if_neg plain.1, if_neg plain.2.1, plain.2.2]
    rfl
  change (unescapeUnicode _).bind _ = _
  rw [unicode]
  rfl

theorem stringLen_quote (len : Nat) (p : List UInt8) : stringLen len (quote :: p) = .ok len := by
  cases p <;> rfl

theorem stringLen_plain {b : UInt8} (plain : b ≠ quote ∧ b ≠ 0 ∧ b ≠ backslash) (len : Nat)
    (p : List UInt8) : stringLen len (b :: p) = stringLen (len + 1) p := by
  cases p <;> simp [stringLen, plain.1, plain.2.1, plain.2.2]

/-- `len` grows with every byte, whatever it is printed as. -/
theorem stringLen_escapeByte {b : UInt8} (nonzero : b ≠ 0) :
    ∃ k, (1 ≤ k ∧ k ≤ (escapeByte b).length) ∧ ∀ len p, stringLen len (escapeByte b ++ p) = stringLen (len + k) p := by
  have shape := escapeByte_shape b
  generalize escapeByte b = text at shape
  cases shape with
  | copied plain =>
      exact ⟨1, ⟨le_rfl, le_rfl⟩, stringLen_plain ⟨plain.2.1, nonzero, plain.2.2⟩⟩
  | letter c known => exact ⟨1, ⟨le_rfl, Nat.le_succ 1⟩, fun len p => rfl⟩
  | code control =>
      refine ⟨5, ⟨by decide, Nat.le_succ 5⟩, fun len p => ?_⟩
      change stringLen (len + 1 + 1 + 1) (hexChar (b / 16) :: hexChar (b % 16) :: p) = _
      rw [stringLen_plain (hexChar_plain (high_small b)),
        stringLen_plain (hexChar_plain (low_small b))]

theorem stringLen_escaped {str : List UInt8} (nonzero : 0 ∉ str) (len : Nat) (p : List UInt8) :
    ∃ total, len + str.length ≤ total ∧ total ≤ len + (str.flatMap escapeByte).length ∧
      stringLen len (str.flatMap escapeByte ++ quote :: p) = .ok total := by
  induction str generalizing len with
  | nil => exact ⟨len, le_rfl, le_rfl, stringLen_quote len p⟩
  | cons b str ih =>
      rcases not_or.mp (mt List.mem_cons.mpr nonzero) with ⟨first, rest⟩
      rcases stringLen_escapeByte (Ne.symm first) with ⟨k, positive, counts⟩
      rcases ih rest (len + k) with ⟨total, enough, least, ends⟩
      refine ⟨total, ?_, ?_, ?_⟩
      · rw [List.length_cons]
        omega
      · rw [List.flatMap_cons, List.length_append]
        omega
      · rw [List.flatMap_cons, List.append_assoc, counts, ends]

theorem copyString_escapeByte {b : UInt8} (nonzero : b ≠ 0) (size fuel : Nat)
    (out p : List UInt8) : copyString size (fuel + 1) out (escapeByte b ++ p) =
      (store size out [b]).bind fun out => copyString size fuel out p := by
  have shape := escapeByte_shape b
  generalize escapeByte b = text at shape
  cases shape with
  | copied plain =>
      have ends : ¬ (b = quote ∨ b = 0) := by simp [plain.2.1, nonzero]
      change (if b = quote ∨ b = 0 then _ else if b ≠ backslash then _ else _) = _
      rw [if_neg ends, if_pos plain.2.2]
      rfl
  | letter c known =>
      change (unescape (c :: p)).bind _ = _
      rw [known]
      rfl
  | code control =>
      change (unescape (0x75 :: 0x30 :: 0x30 :: _ :: _ :: p)).bind _ = _
      rw [unescape_code nonzero control]
      rfl

theorem copyString_escaped {str : List UInt8} (nonzero : 0 ∉ str) {size fuel : Nat}
    {out : List UInt8} (room : out.length + str.length ≤ size) (enough : str.length < fuel)
    (p : List UInt8) : copyString size fuel out (str.flatMap escapeByte ++ quote :: p) =
      .ok (out ++ str, quote :: p) := by
  induction str generalizing fuel out with
  | nil =>
      cases fuel with
      | zero => omega
      | succ fuel =>
          rw [List.append_nil]
          rfl
  | cons b str ih =>
      rcases not_or.mp (mt List.mem_cons.mpr nonzero) with ⟨first, rest⟩
      rw [List.length_cons] at room enough
      cases fuel with
      | zero => omega
      | succ fuel =>
          have fits : store size out [b] = .ok (out ++ [b]) := if_pos (by simp; omega)
          rw [List.flatMap_cons, List.append_assoc, copyString_escapeByte (Ne.symm first), fits]
          change copyString size fuel (out ++ [b]) _ = _
          rw [ih rest (by simp; omega) (by omega), List.append_assoc, List.singleton_append]

/-- Without a byte to escape the text is the string, which is what escaping gives as well. -/
theorem stringText_eq (str : List UInt8) (nonzero : 0 ∉ str) :
    (stringText str).2 = quote :: str.flatMap escapeByte ++ [quote] := by
  rw [stringText]
  split_ifs with found
  · rfl
  · have plain : ∀ b ∈ str, escapeByte b = [b] := by
      intro b member
      have copied : ¬ needsEscape b := fun needs => found (List.any_eq_true.mpr ⟨b, member, needs⟩)
      have positive : 0 < b := UInt8.pos_iff_ne_zero.mpr fun zero => nonzero (zero ▸ member)
      simp only [needsEscape, Bool.or_eq_true, Bool.and_eq_true, decide_eq_true_eq, not_or,
        not_and] at copied
      have high : ¬ b.toNat < 32 := copied.1.1 positive
      exact if_pos ⟨(by omega : 31 < b.toNat), copied.1.2, copied.2⟩
    rw [List.flatMap_congr plain, List.flatMap_singleton']

theorem length_le_escaped (str : List UInt8) : str.length ≤ (str.flatMap escapeByte).length := by
  rw [flatMap_escapeByte_length]
  have each : ∀ len ∈ str.map escapeLen, 1 ≤ len := by
    intro len member
    rcases List.mem_map.mp member with ⟨b, -, rfl⟩
    rw [escapeLen]
    split_ifs <;> decide
  simpa using List.length_le_sum_of_one_le (str.map escapeLen) each

theorem parseString_text (s : CString) (small : (stringText s.bytes).2.length < 2 ^ 31)
    (p : List UInt8) : parseString ((stringText s.bytes).2 ++ p) = .ok (s, p) := by
  rcases stringLen_escaped s.nonzero 0 p with ⟨len, enough, least, counted⟩
  have shape : (stringText s.bytes).2 ++ p =
      quote :: (s.bytes.flatMap escapeByte ++ quote :: p) := by
    rw [stringText_eq s.bytes s.nonzero]
    simp
  have longer : s.bytes.length < (quote :: (s.bytes.flatMap escapeByte ++ quote :: p)).length := by
    have grows := length_le_escaped s.bytes
    simp only [List.length_cons, List.length_append]
    omega
  have copied := @copyString_escaped s.bytes s.nonzero (len + 1) _ [] (by simp; omega) longer p
  have stored : store (len + 1) s.bytes [0] = .ok (s.bytes ++ [0]) := if_pos (by simp; omega)
  have int : ¬ 2 ^ 31 ≤ len + 1 := by
    rw [stringText_eq s.bytes s.nonzero, List.length_append, List.length_cons,
      List.length_singleton] at small
    omega
  rw [shape]
  simp only [parseString, peek, List.tail_cons, counted, if_neg int, copied, List.nil_append,
    stored, bind, Except.bind]
  simp [CString.ofMemory_bytes, pure, Except.pure]

/-! Numbers. -/

theorem digitsWhile_run {A : Type} (update : A → Int → A) {digits : List UInt8}
    (all : ∀ b ∈ digits, isDigit b = true) {rest : List UInt8} (stops : Stops rest) (a : A) :
    digitsWhile update a (digits ++ rest) =
      .ok (digits.foldl (fun a b => update a (digitOf b)) a, rest) := by
  induction digits generalizing a with
  | nil =>
      cases rest with
      | nil => exact stops.elim
      | cons b rest => exact if_neg (by simp [stops.1])
  | cons b digits ih =>
      rw [List.cons_append, digitsWhile, if_pos (all b List.mem_cons_self)]
      exact ih (fun other member => all other (List.mem_cons_of_mem b member)) _

theorem digitByte_facts {digit : Nat} (small : digit < 10) :
    isDigit (digitByte digit) = true ∧ digitOf (digitByte digit) = digit := by
  revert digit
  decide

theorem decimalDigits_isDigit (n : Nat) :
    ∀ b ∈ (Nat.digits 10 n).reverse.map digitByte, isDigit b = true := by
  intro b member
  rcases List.mem_map.mp member with ⟨digit, digits, rfl⟩
  exact (digitByte_facts (Nat.digits_lt_base (by decide) (List.mem_reverse.mp digits))).1

theorem decimalDigits_value (exact : Exact f) {n : Nat} (small : n ≤ 2 ^ 31) :
    ((Nat.digits 10 n).reverse.map digitByte).foldl
      (fun n b => f.add (f.mul n (f.ofInt 10)) (f.ofInt (digitOf b))) (f.ofInt 0) = f.ofInt n := by
  induction n using Nat.strong_induction_on with
  | _ n ih =>
      rcases Nat.eq_zero_or_pos n with rfl | positive
      · rfl
      · have below : n / 10 < n := Nat.div_lt_self positive (by decide)
        have last : n % 10 < 10 := Nat.mod_lt n (by decide)
        rw [Nat.digits_def' (by decide) positive, List.reverse_cons, List.map_append,
          List.foldl_append, ih (n / 10) below (by omega)]
        simp only [List.map_cons, List.map_nil, List.foldl_cons, List.foldl_nil,
          (digitByte_facts last).2]
        rw [exact.mul _ _ (by rw [abs_le]; omega) (by decide) (by rw [abs_le]; omega)
          (Or.inr ⟨by omega, by decide⟩), exact.add _ _ (by rw [abs_le]; omega)
          (by rw [abs_le]; omega) (by rw [abs_le]; omega)]
        congr 1
        omega

theorem parseFraction_stops (f : Doubles D) (n : D) {rest : List UInt8} (stops : Stops rest) :
    parseFraction f n rest = .ok ((n, f.ofInt 0), rest) := by
  cases rest with
  | nil => exact stops.elim
  | cons b rest => exact if_neg stops.2.1

theorem parseExponent_stops {rest : List UInt8} (stops : Stops rest) :
    parseExponent rest = .ok (0, rest) := by
  cases rest with
  | nil => exact stops.elim
  | cons b rest => exact if_neg (by simp [stops.2.2.1, stops.2.2.2])

theorem isDigit_of_le {b : UInt8} (lower : 0x31 ≤ b) (upper : b ≤ 0x39) : isDigit b = true := by
  rw [isDigit, Bool.and_eq_true, decide_eq_true_eq, decide_eq_true_eq]
  exact ⟨UInt8.le_trans (by decide) lower, upper⟩

/-- A number larger than zero has a first digit larger than zero. -/
theorem natural_head {n : Nat} (positive : n ≠ 0) :
    ∃ b bytes, natural n = b :: bytes ∧ 0x31 ≤ b ∧ b ≤ 0x39 := by
  have full : Nat.digits 10 n ≠ [] := Nat.digits_ne_nil_iff_ne_zero.mpr positive
  have first := Nat.getLast_digit_ne_zero 10 positive
  have small : (Nat.digits 10 n).getLast full < 10 :=
    Nat.digits_lt_base (by decide) (List.getLast_mem full)
  refine ⟨digitByte ((Nat.digits 10 n).getLast full),
    (Nat.digits 10 n).dropLast.reverse.map digitByte, ?_, ?_⟩
  · rw [natural, if_neg positive]
    conv_lhs => rw [← List.dropLast_append_getLast full]
    simp
  · generalize (Nat.digits 10 n).getLast full = digit at first small
    interval_cases digit
    · exact absurd rfl first
    all_goals decide

theorem natural_digit (n : Nat) : ∃ b bytes, natural n = b :: bytes ∧ isDigit b = true := by
  by_cases zero : n = 0
  · exact ⟨0x30, [], if_pos zero, by decide⟩
  · rcases natural_head zero with ⟨b, bytes, shape, lower, upper⟩
    exact ⟨b, bytes, shape, isDigit_of_le lower upper⟩

theorem parseInteger_natural (exact : Exact f) {n : Nat} (small : n ≤ 2 ^ 31)
    {rest : List UInt8} (stops : Stops rest) :
    parseInteger f (natural n ++ rest) = .ok (f.ofInt n, rest) := by
  by_cases zero : n = 0
  · subst zero
    cases rest with
    | nil => exact stops.elim
    | cons b rest =>
        have other : ¬ (0x31 ≤ b ∧ b ≤ 0x39) := by
          rintro ⟨lower, upper⟩
          have digit := isDigit_of_le lower upper
          rw [stops.1] at digit
          contradiction
        exact if_neg other
  · rcases natural_head zero with ⟨b, bytes, shape, lower, upper⟩
    have solid : b ≠ 0x30 := by
      rintro rfl
      exact absurd lower (by decide)
    have run := digitsWhile_run
      (fun n digit => f.add (f.mul n (f.ofInt 10)) (f.ofInt digit)) (decimalDigits_isDigit n)
      stops (f.ofInt 0)
    rw [decimalDigits_value exact small] at run
    rw [natural, if_neg zero] at shape
    rw [shape] at run
    rw [natural, if_neg zero, shape, ← run]
    simp only [parseInteger, List.cons_append, peek, bind, Except.bind, if_neg solid]
    exact if_pos ⟨lower, upper⟩

theorem decimal_minus {n : Int} (negative : n < 0) (rest : List UInt8) :
    decimal n ++ rest = minus :: (natural n.natAbs ++ rest) := by
  rw [decimal, if_pos negative, List.cons_append]

/-- A number that is printed with `%d` is read back. -/
theorem parseNumber_decimal (exact : Exact f) (n : BitVec 32) {rest : List UInt8}
    (stops : Stops rest) : parseNumber f (decimal n.toInt ++ rest) = .ok (.int f n, rest) := by
  have lower := BitVec.le_toInt n
  have upper := @BitVec.toInt_lt 32 n
  have integer := parseInteger_natural exact (n := n.toInt.natAbs) (by omega) stops
  have scale : f.add (f.ofInt 0) (f.ofInt (0 : BitVec 32).toInt) = f.ofInt 0 :=
    exact.add 0 0 (by decide) (by decide) (by decide)
  have unit : ∀ m : Int, |m| ≤ 2 ^ 31 → m ≠ 0 ∨ 0 ≤ m →
      f.mul (f.ofInt m) (f.pow (f.ofInt 10) (f.ofInt 0)) = f.ofInt m := by
    intro m small sign
    rw [exact.pow, exact.mul m 1 (by omega) (by decide) (by rw [mul_one]; omega) (by omega), mul_one]
  by_cases negative : n.toInt < 0
  · rw [decimal_minus negative]
    have value : f.mul (f.ofInt (-1)) (f.ofInt n.toInt.natAbs) = f.ofInt n.toInt := by
      rw [exact.mul (-1) n.toInt.natAbs (by decide) (by rw [abs_le]; omega)
        (by rw [abs_le]; omega) (Or.inl (by omega))]
      congr 1
      omega
    simp only [parseNumber, numberSign, peek, bind, Except.bind, pure, Except.pure, if_pos,
      List.tail_cons, integer, parseFraction_stops f _ stops, parseExponent_stops stops, scale, value]
    rw [unit n.toInt (by rw [abs_le]; omega) (Or.inl (by omega)), exact.toInt]
    rfl
  · have value : f.mul (f.ofInt 1) (f.ofInt n.toInt.natAbs) = f.ofInt n.toInt := by
      rw [exact.mul 1 n.toInt.natAbs (by decide) (by rw [abs_le]; omega)
        (by rw [abs_le]; omega) (Or.inr ⟨by decide, by omega⟩)]
      congr 1
      omega
    rcases natural_digit n.toInt.natAbs with ⟨b, bytes, shape, digit⟩
    have unsigned : b ≠ minus := by
      rintro rfl
      contradiction
    rw [decimal, if_neg negative, shape, List.cons_append]
    rw [shape, List.cons_append] at integer
    simp only [parseNumber, numberSign, peek, bind, Except.bind, pure, Except.pure,
      if_neg unsigned, integer, parseFraction_stops f _ stops, parseExponent_stops stops, scale, value]
    rw [unit n.toInt (by rw [abs_le]; omega) (Or.inr (by omega)), exact.toInt]
    rfl

/-- `print_number` prints an integer with `%d`. -/
theorem numberText_int (exact : Exact f) (n : BitVec 32) :
    (numberText f n (f.ofInt n.toInt)).2 = decimal n.toInt := by
  have lower := BitVec.le_toInt n
  have upper := @BitVec.toInt_lt 32 n
  have small : |n.toInt| ≤ 2 ^ 53 := by
    rw [abs_le]
    omega
  rw [numberText, exact.eq _ 0 small (by decide)]
  split_ifs with zero within
  · rw [of_decide_eq_true zero]
    rfl
  · rfl
  · rw [exact.sub _ _ small small (by simp), sub_self, exact.fabs 0 (by decide), abs_zero,
      exact.epsilon, exact.le _ _ small (by decide), exact.le _ _ (by decide) small] at within
    simp at within
    omega

/-! Arrays and objects. -/

def Begins : List UInt8 → Prop
  | [] => False
  | b :: _ => ¬ Blank b ∧ b ≠ rightBracket ∧ b ≠ rightBrace

theorem Begins.append {text : List UInt8} (begins : Begins text) (rest : List UInt8) :
    Begins (text ++ rest) := by
  cases text with
  | nil => exact begins.elim
  | cons b text => exact begins

theorem Begins.head {text : List UInt8} (begins : Begins text) :
    ∃ b p, text = b :: p ∧ b ≠ rightBracket ∧ b ≠ rightBrace := by
  cases text with
  | nil => exact begins.elim
  | cons b text => exact ⟨b, text, rfl, begins.2⟩

theorem Begins.skip {text : List UInt8} (begins : Begins text) : skip text = .ok text := by
  cases text with
  | nil => exact begins.elim
  | cons b text => exact skip_cons begins.1 text

theorem skip_solid {b : UInt8} (solid : 32 < b) (p : List UInt8) : skip (b :: p) = .ok (b :: p) :=
  skip_cons (fun blank => absurd blank.2 (UInt8.not_le.mpr solid)) p

/-- `value` reads the text of an item, whatever stands behind it. -/
def Reads (value : List UInt8 → Except Failure (Item D × List UInt8)) (text : List UInt8)
    (item : Item D) : Prop :=
  Begins text ∧ ∀ rest, Stops rest → value (text ++ rest) = .ok (item, rest)

def entryTail (fmt : Bool) (entries : List (List UInt8)) : List UInt8 :=
  (if entries.isEmpty then [] else separator fmt) ++ entryLoop fmt entries

theorem entryTail_cons (fmt : Bool) (entry : List UInt8) (entries : List (List UInt8)) :
    entryTail fmt (entry :: entries) = separator fmt ++ (entry ++ entryTail fmt entries) := by
  simp [entryTail, entryLoop]

theorem separator_eq (fmt : Bool) :
    ∃ blanks, separator fmt = comma :: blanks ∧ ∀ b ∈ blanks, Blank b := by
  cases fmt with
  | false => exact ⟨[], rfl, nofun⟩
  | true =>
      refine ⟨[space], rfl, fun b member => ?_⟩
      rw [List.mem_singleton.mp member]
      exact ⟨by decide, by decide⟩

theorem entryTail_length (fmt : Bool) (entries : List (List UInt8)) :
    entries.length ≤ (entryTail fmt entries).length := by
  induction entries with
  | nil => exact Nat.zero_le _
  | cons entry entries ih =>
      have := separator_length fmt
      rw [entryTail_cons, List.length_append, List.length_append, List.length_cons]
      omega

theorem entryTail_stops (fmt : Bool) (entries : List (List UInt8)) (rest : List UInt8) :
    Stops (entryTail fmt entries ++ rightBracket :: rest) ∧
      skip (entryTail fmt entries ++ rightBracket :: rest) =
        .ok (entryTail fmt entries ++ rightBracket :: rest) := by
  cases entries with
  | nil => exact ⟨⟨by decide, by decide, by decide, by decide⟩, skip_solid (by decide) rest⟩
  | cons entry entries =>
      rcases separator_eq fmt with ⟨blanks, shape, -⟩
      rw [entryTail_cons, shape]
      exact ⟨⟨by decide, by decide, by decide, by decide⟩, skip_solid (by decide) _⟩

theorem arrayItems_reads {value : List UInt8 → Except Failure (Item D × List UInt8)}
    {entries : List (List UInt8)} {items : List (Item D)}
    (reads : List.Forall₂ (Reads value) entries items) (fmt : Bool) (rest : List UInt8)
    (fuel : Nat) (enough : entries.length < fuel) :
    arrayItems value fuel (entryTail fmt entries ++ rightBracket :: rest) =
      .ok (items, rightBracket :: rest) := by
  induction reads generalizing fuel with
  | nil =>
      cases fuel with
      | zero => exact absurd enough (Nat.not_lt_zero _)
      | succ fuel => rfl
  | @cons entry item entries items first _ ih =>
      rcases separator_eq fmt with ⟨blanks, shape, blank⟩
      rcases entryTail_stops fmt entries rest with ⟨stops, stays⟩
      cases fuel with
      | zero => exact absurd enough (Nat.not_lt_zero _)
      | succ fuel =>
          have later := ih fuel (Nat.lt_of_succ_lt_succ enough)
          rw [entryTail_cons, shape, List.append_assoc, List.cons_append, List.append_assoc]
          simp only [arrayItems, peek, bind, Except.bind, if_pos, List.tail_cons,
            skip_append blank, (first.1.append _).skip, first.2 _ stops, stays, later]
          rfl

theorem parseArray_reads {value : List UInt8 → Except Failure (Item D × List UInt8)}
    {entries : List (List UInt8)} {items : List (Item D)}
    (reads : List.Forall₂ (Reads value) entries items) (fmt : Bool) (rest : List UInt8) :
    parseArray value (arrayText fmt entries ++ rest) = .ok (.array items, rest) := by
  cases reads with
  | nil => rfl
  | @cons entry item entries items first others =>
      rcases entryTail_stops fmt entries rest with ⟨stops, stays⟩
      have shape : arrayText fmt (entry :: entries) ++ rest =
          leftBracket :: (entry ++ (entryTail fmt entries ++ rightBracket :: rest)) := by
        simp [arrayText, entryLoop, entryTail]
      have later := arrayItems_reads others fmt rest
        (entryTail fmt entries ++ rightBracket :: rest).length (by
          have := entryTail_length fmt entries
          rw [List.length_append, List.length_cons]
          omega)
      have begins := first.1.append (entryTail fmt entries ++ rightBracket :: rest)
      rcases begins.head with ⟨b, p, front, inside, -⟩
      rw [shape]
      have here := first.2 _ stops
      rw [front] at begins here ⊢
      simp only [parseArray, peek, bind, Except.bind, ne_eq, not_true_eq_false, if_false,
        List.tail_cons, begins.skip, inside, here, stays, later]
      rfl

def ReadsMember (value : List UInt8 → Except Failure (Item D × List UInt8))
    (texts : List UInt8 × List UInt8) (member : CString × Item D) : Prop :=
  (texts.1 = (stringText member.1.bytes).2 ∧ texts.1.length < 2 ^ 31) ∧
    Reads value texts.2 member.2

def closing (fmt : Bool) (depth : Nat) (rest : List UInt8) : List UInt8 :=
  tabs fmt (depth - 1) ++ rightBrace :: rest

def memberTail (fmt : Bool) (depth : Nat) (members : List (List UInt8 × List UInt8))
    (rest : List UInt8) : List UInt8 :=
  (if members.isEmpty then [] else [comma]) ++ (lineEnd fmt ++ (memberLoop fmt depth members ++
    closing fmt depth rest))

theorem memberLoop_cons (fmt : Bool) (depth : Nat) (texts : List UInt8 × List UInt8)
    (members : List (List UInt8 × List UInt8)) (rest : List UInt8) :
    memberLoop fmt depth (texts :: members) ++ closing fmt depth rest =
      tabs fmt depth ++ (texts.1 ++ (colon :: (tabs fmt 1 ++ (texts.2 ++
        memberTail fmt depth members rest)))) := by
  simp [memberLoop, memberTail]

theorem skip_memberTail_nil (fmt : Bool) (depth : Nat) (rest : List UInt8) :
    skip (memberTail fmt depth [] rest) = .ok (rightBrace :: rest) := by
  change skip (lineEnd fmt ++ ([] ++ closing fmt depth rest)) = _
  rw [skip_append (lineEnd_blank fmt), List.nil_append, closing, skip_append (tabs_blank fmt _),
    skip_solid (by decide)]

theorem memberTail_cons (fmt : Bool) (depth : Nat) (texts : List UInt8 × List UInt8)
    (members : List (List UInt8 × List UInt8)) (rest : List UInt8) :
    memberTail fmt depth (texts :: members) rest =
      comma :: (lineEnd fmt ++ (tabs fmt depth ++ (texts.1 ++ (colon :: (tabs fmt 1 ++ (texts.2 ++
        memberTail fmt depth members rest)))))) := by
  rw [← memberLoop_cons]
  rfl

theorem memberTail_stops (fmt : Bool) (depth : Nat) (members : List (List UInt8 × List UInt8))
    (rest : List UInt8) : Stops (memberTail fmt depth members rest) := by
  cases members with
  | nil =>
      cases fmt with
      | false => exact ⟨by decide, by decide, by decide, by decide⟩
      | true => exact ⟨by decide, by decide, by decide, by decide⟩
  | cons texts members => exact ⟨by decide, by decide, by decide, by decide⟩

theorem quoted (s : CString) (p : List UInt8) :
    skip ((stringText s.bytes).2 ++ p) = .ok ((stringText s.bytes).2 ++ p) := by
  rw [stringText_eq s.bytes s.nonzero]
  exact skip_solid (by decide) _

theorem parseMember_reads {value : List UInt8 → Except Failure (Item D × List UInt8)}
    {texts : List UInt8 × List UInt8} {member : CString × Item D}
    (reads : ReadsMember value texts member) (blanks : List UInt8)
    (blank : ∀ b ∈ blanks, Blank b) (fmt : Bool) {behind next : List UInt8}
    (stops : Stops behind) (stands : skip behind = .ok next) :
    parseMember value (blanks ++ (texts.1 ++ (colon :: (tabs fmt 1 ++ (texts.2 ++ behind))))) =
      .ok (member, next) := by
  rcases reads with ⟨⟨name, small⟩, begins, known⟩
  have colon_stays := skip_solid (b := colon) (by decide) (tabs fmt 1 ++ (texts.2 ++ behind))
  rw [name] at small ⊢
  simp only [parseMember, peek, bind, Except.bind, skip_append blank, quoted,
    parseString_text member.1 small, colon_stays, ne_eq, not_true_eq_false, if_false, List.tail_cons, skip_append (tabs_blank fmt 1),
    (begins.append behind).skip, known behind stops, stands]
  rfl

theorem blanks_append {front back : List UInt8} (first : ∀ b ∈ front, Blank b)
    (second : ∀ b ∈ back, Blank b) : ∀ b ∈ front ++ back, Blank b := by
  intro b member
  rcases List.mem_append.mp member with before | behind
  · exact first b before
  · exact second b behind

theorem objectItems_reads {value : List UInt8 → Except Failure (Item D × List UInt8)}
    {members : List (List UInt8 × List UInt8)} {items : List (CString × Item D)}
    (reads : List.Forall₂ (ReadsMember value) members items) (fmt : Bool) (depth : Nat)
    (rest : List UInt8) : ∃ p, skip (memberTail fmt depth members rest) = .ok p ∧
      members.length < p.length ∧ ∀ fuel, members.length < fuel →
        objectItems value fuel p = .ok (items, rightBrace :: rest) := by
  induction reads with
  | nil =>
      refine ⟨_, skip_memberTail_nil fmt depth rest, Nat.succ_pos _, fun fuel enough => ?_⟩
      cases fuel with
      | zero => exact absurd enough (Nat.not_lt_zero _)
      | succ fuel => rfl
  | @cons texts item members items first _ ih =>
      rcases ih with ⟨next, stands, longer, later⟩
      have step := parseMember_reads first _
        (blanks_append (lineEnd_blank fmt) (tabs_blank fmt depth)) fmt
        (memberTail_stops fmt depth members rest) stands
      rw [List.append_assoc] at step
      rw [memberTail_cons]
      refine ⟨_, skip_solid (by decide) _, ?_, fun fuel enough => ?_⟩
      · have shorter := (skip_suffix stands).length_le
        simp only [List.length_cons, List.length_append]
        omega
      · cases fuel with
        | zero => exact absurd enough (Nat.not_lt_zero _)
        | succ fuel =>
            simp only [objectItems, peek, bind, Except.bind, if_pos, List.tail_cons, step,
              later fuel (Nat.lt_of_succ_lt_succ enough)]
            rfl

theorem parseObject_reads {value : List UInt8 → Except Failure (Item D × List UInt8)}
    {members : List (List UInt8 × List UInt8)} {items : List (CString × Item D)}
    (reads : List.Forall₂ (ReadsMember value) members items) (full : members ≠ []) (fmt : Bool)
    (depth : Nat) (rest : List UInt8) :
    parseObject value (objectText fmt depth members ++ rest) = .ok (.object items, rest) := by
  cases reads with
  | nil => exact absurd rfl full
  | @cons texts item members items first others =>
      rcases objectItems_reads others fmt depth rest with ⟨next, stands, longer, later⟩
      have step := parseMember_reads first [] nofun fmt
        (memberTail_stops fmt depth members rest) stands
      have shape : objectText fmt depth (texts :: members) ++ rest =
          leftBrace :: (lineEnd fmt ++ (tabs fmt depth ++ (texts.1 ++ (colon :: (tabs fmt 1 ++
            (texts.2 ++ memberTail fmt depth members rest)))))) := by
        rw [← memberLoop_cons]
        simp [objectText, closing]
      rw [shape]
      have inside : ∃ p, texts.1 ++ (colon :: (tabs fmt 1 ++ (texts.2 ++
          memberTail fmt depth members rest))) = quote :: p := by
        rw [first.1.1, stringText_eq _ item.1.nonzero]
        exact ⟨_, rfl⟩
      rcases inside with ⟨p, front⟩
      rw [front, List.nil_append] at step
      rw [front]
      simp only [parseObject, peek, bind, Except.bind, ne_eq, not_true_eq_false, if_false,
        List.tail_cons, skip_append (lineEnd_blank fmt), skip_append (tabs_blank fmt depth),
        skip_solid (b := quote) (by decide), step, later _ longer]
      rfl

theorem parseObject_empty (value : List UInt8 → Except Failure (Item D × List UInt8)) (fmt : Bool)
    (depth : Nat) (rest : List UInt8) :
    parseObject value (emptyObjectText fmt depth ++ rest) = .ok (.object [], rest) := by
  have shape : emptyObjectText fmt depth ++ rest =
      leftBrace :: (lineEnd fmt ++ (tabs fmt (depth - 1) ++ rightBrace :: rest)) := by
    simp [emptyObjectText]
  rw [shape]
  simp only [parseObject, peek, bind, Except.bind, ne_eq, not_true_eq_false, if_false,
    List.tail_cons, skip_append (lineEnd_blank fmt), skip_append (tabs_blank fmt (depth - 1)),
    skip_solid (b := rightBrace) (by decide), if_true]
  rfl

theorem startsWith_other {w b : UInt8} (differs : b ≠ w) (word p : List UInt8) :
    startsWith (w :: word) (b :: p) = .ok false :=
  if_neg differs

theorem parseValue_number {b : UInt8} (numeral : b = minus ∨ isDigit b = true) (fuel : Nat)
    (p : List UInt8) : parseValue f (fuel + 1) (b :: p) = parseNumber f (b :: p) := by
  have low : b.toNat ≤ 0x39 := by
    rcases numeral with rfl | digit
    · decide
    · rw [isDigit, Bool.and_eq_true, decide_eq_true_eq, decide_eq_true_eq] at digit
      exact digit.2
  have differs : ∀ c : UInt8, 0x39 < c.toNat → b ≠ c := by
    intro c high same
    rw [same] at low
    omega
  have single : b ≠ quote := by
    rintro rfl
    exact absurd numeral (by decide)
  simp only [parseValue, nullWord, falseWord, trueWord, peek, bind, Except.bind,
    startsWith_other (differs 0x6e (by decide)), startsWith_other (differs 0x66 (by decide)),
    startsWith_other (differs 0x74 (by decide)), Bool.false_eq_true, if_false, if_neg single,
    if_pos numeral]

theorem decimal_head (n : Int) :
    ∃ b p, decimal n = b :: p ∧ (b = minus ∨ isDigit b = true) := by
  rw [decimal]
  split_ifs with negative
  · exact ⟨minus, _, rfl, Or.inl rfl⟩
  · rcases natural_digit n.natAbs with ⟨b, p, shape, digit⟩
    exact ⟨b, p, shape, Or.inr digit⟩

theorem begins_of_numeral {b : UInt8} (numeral : b = minus ∨ isDigit b = true) (p : List UInt8) :
    Begins (b :: p) := by
  rcases numeral with rfl | digit
  · exact ⟨by unfold Blank; decide, by decide, by decide⟩
  · rw [isDigit, Bool.and_eq_true, decide_eq_true_eq, decide_eq_true_eq] at digit
    refine ⟨?_, ?_, ?_⟩
    · intro blank
      exact absurd (UInt8.le_trans digit.1 blank.2) (by decide)
    · rintro rfl
      exact absurd digit.2 (by decide)
    · rintro rfl
      exact absurd digit.2 (by decide)

theorem render_begins (exact' : Exact f) {item : Item D} (integral : Integral f item) (fmt : Bool)
    (depth : Nat) : Begins (render f fmt depth item) := by
  cases integral with
  | literal type =>
      cases type
      all_goals exact ⟨by unfold Blank; decide, by decide, by decide⟩
  | int n =>
      rw [Item.int, render, numberText_int exact']
      rcases decimal_head n.toInt with ⟨b, p, shape, numeral⟩
      rw [shape]
      exact begins_of_numeral numeral p
  | text s =>
      rw [render, stringText_eq s.bytes s.nonzero]
      exact ⟨by unfold Blank; decide, by decide, by decide⟩
  | array all =>
      rw [render]
      exact ⟨by unfold Blank; decide, by decide, by decide⟩
  | object all =>
      rw [render]
      split_ifs
      all_goals exact ⟨by unfold Blank; decide, by decide, by decide⟩

theorem entryLoop_mem {entries : List (List UInt8)} {entry : List UInt8} (fmt : Bool)
    (member : entry ∈ entries) : entry.length ≤ (entryLoop fmt entries).length := by
  induction entries with
  | nil => cases member
  | cons head entries ih =>
      rw [entryLoop, List.length_append, List.length_append]
      rcases List.mem_cons.mp member with rfl | later
      · omega
      · have := ih later
        omega

theorem memberLoop_mem {members : List (List UInt8 × List UInt8)} {texts : List UInt8 × List UInt8}
    (fmt : Bool) (depth : Nat) (member : texts ∈ members) :
    texts.1.length + texts.2.length ≤ (memberLoop fmt depth members).length := by
  induction members with
  | nil => cases member
  | cons head members ih =>
      simp only [memberLoop, List.length_append, List.length_cons]
      rcases List.mem_cons.mp member with rfl | later
      · omega
      · have := ih later
        omega

theorem renderEntries_forall {items : List (Item D)} {fmt : Bool} {depth : Nat}
    {R : List UInt8 → Item D → Prop} (all : ∀ item ∈ items, R (render f fmt depth item) item) :
    List.Forall₂ R (renderEntries f fmt depth items) items := by
  rw [renderEntries_eq]
  exact List.forall₂_map_left_iff.mpr (List.forall₂_same.mpr all)

theorem renderMembers_forall {items : List (CString × Item D)} {fmt : Bool} {depth : Nat}
    {R : List UInt8 × List UInt8 → CString × Item D → Prop} (all : ∀ item ∈ items,
      R ((stringText item.1.bytes).2, render f fmt depth item.2) item) :
    List.Forall₂ R (renderMembers f fmt depth items) items := by
  rw [renderMembers_eq]
  exact List.forall₂_map_left_iff.mpr (List.forall₂_same.mpr all)

theorem parseValue_int (exact' : Exact f) (n : BitVec 32) (fmt : Bool) (fuel depth : Nat)
    {rest : List UInt8} (stops : Stops rest) :
    parseValue f (fuel + 1) (render f fmt depth (.int f n) ++ rest) = .ok (.int f n, rest) := by
  have read := parseNumber_decimal exact' n stops
  rw [Item.int, render, numberText_int exact']
  rcases decimal_head n.toInt with ⟨b, p, shape, numeral⟩
  rw [shape, List.cons_append] at read ⊢
  rw [parseValue_number numeral]
  exact read

theorem parseValue_text (s : CString) (fmt : Bool) (fuel depth : Nat)
    (small : (render f fmt depth (.text s)).length < 2 ^ 31) (rest : List UInt8) :
    parseValue f (fuel + 1) (render f fmt depth (.text s) ++ rest) = .ok (.text s, rest) := by
  rw [render] at small
  have read := parseString_text s small rest
  rw [render]
  rw [stringText_eq s.bytes s.nonzero] at read ⊢
  change (parseString (quote :: _ ++ [quote] ++ rest)).bind _ = _
  rw [read]
  rfl

theorem parseValue_array {items : List (Item D)} {fmt : Bool} {fuel depth : Nat}
    (reads : ∀ item ∈ items, (render f fmt (depth + 1) item).length < fuel →
      (render f fmt (depth + 1) item).length < 2 ^ 31 →
      Reads (parseValue f fuel) (render f fmt (depth + 1) item) item)
    (enough : (render f fmt depth (.array items)).length < fuel + 1)
    (small : (render f fmt depth (.array items)).length < 2 ^ 31) (rest : List UInt8) :
    parseValue f (fuel + 1) (render f fmt depth (.array items) ++ rest) =
      .ok (.array items, rest) := by
  rw [render] at enough small ⊢
  have each : ∀ item ∈ items, Reads (parseValue f fuel) (render f fmt (depth + 1) item) item := by
    intro item member
    have text : render f fmt (depth + 1) item ∈ renderEntries f fmt (depth + 1) items := by
      rw [renderEntries_eq]
      exact List.mem_map_of_mem member
    have short := entryLoop_mem fmt text
    rw [arrayText, List.length_append, List.length_cons] at enough small
    exact reads item member (by omega) (by omega)
  exact parseArray_reads (renderEntries_forall each) fmt rest

theorem parseValue_object {items : List (CString × Item D)} {fmt : Bool} {fuel depth : Nat}
    (reads : ∀ item ∈ items, (render f fmt (depth + 1) item.2).length < fuel →
      (render f fmt (depth + 1) item.2).length < 2 ^ 31 →
      Reads (parseValue f fuel) (render f fmt (depth + 1) item.2) item.2)
    (enough : (render f fmt depth (.object items)).length < fuel + 1)
    (small : (render f fmt depth (.object items)).length < 2 ^ 31) (rest : List UInt8) :
    parseValue f (fuel + 1) (render f fmt depth (.object items) ++ rest) =
      .ok (.object items, rest) := by
  rw [render] at enough small ⊢
  by_cases empty : items.isEmpty
  · obtain rfl := List.isEmpty_iff.mp empty
    rw [if_pos empty]
    exact parseObject_empty (parseValue f fuel) fmt depth rest
  · rw [if_neg empty] at enough small ⊢
    simp only [objectText, List.length_append, List.length_cons] at enough small
    have each : ∀ item ∈ items, ReadsMember (parseValue f fuel)
        ((stringText item.1.bytes).2, render f fmt (depth + 1) item.2) item := by
      intro item member
      have texts : ((stringText item.1.bytes).2, render f fmt (depth + 1) item.2) ∈
          renderMembers f fmt (depth + 1) items := by
        rw [renderMembers_eq]
        exact List.mem_map_of_mem member
      have both : (stringText item.1.bytes).2.length +
          (render f fmt (depth + 1) item.2).length ≤ _ :=
        memberLoop_mem fmt (depth + 1) texts
      have name : (stringText item.1.bytes).2.length < 2 ^ 31 := by omega
      exact ⟨⟨rfl, name⟩, reads item member (by omega) (by omega)⟩
    have full : renderMembers f fmt (depth + 1) items ≠ [] := by
      cases items with
      | nil => exact absurd rfl empty
      | cons item items =>
          rw [renderMembers]
          exact List.cons_ne_nil _ _
    exact parseObject_reads (renderMembers_forall each) full fmt (depth + 1) rest

/-- The parser reads the text of an item, whatever stands behind it. The fuel that bounds the
nesting lasts, because the text of an item is shorter than that of what it is in. -/
theorem parseValue_render (exact' : Exact f) {item : Item D} (integral : Integral f item)
    (fmt : Bool) (fuel depth : Nat) (enough : (render f fmt depth item).length < fuel)
    (small : (render f fmt depth item).length < 2 ^ 31) (rest : List UInt8) (stops : Stops rest) :
    parseValue f fuel (render f fmt depth item ++ rest) = .ok (item, rest) := by
  induction integral generalizing fuel depth rest with
  | literal type =>
      cases fuel with
      | zero => exact absurd enough (Nat.not_lt_zero _)
      | succ fuel => cases type <;> rfl
  | int n =>
      cases fuel with
      | zero => exact absurd enough (Nat.not_lt_zero _)
      | succ fuel => exact parseValue_int exact' n fmt fuel depth stops
  | text s =>
      cases fuel with
      | zero => exact absurd enough (Nat.not_lt_zero _)
      | succ fuel => exact parseValue_text s fmt fuel depth small rest
  | @array items all ih =>
      cases fuel with
      | zero => exact absurd enough (Nat.not_lt_zero _)
      | succ fuel =>
          apply parseValue_array _ enough small rest
          intro item member short short'
          exact ⟨render_begins exact' (all item member) fmt (depth + 1),
            ih item member fuel (depth + 1) short short'⟩
  | @object items all ih =>
      cases fuel with
      | zero => exact absurd enough (Nat.not_lt_zero _)
      | succ fuel =>
          apply parseValue_object _ enough small rest
          intro item member short short'
          exact ⟨render_begins exact' (all item member) fmt (depth + 1),
            ih item member fuel (depth + 1) short short'⟩

/-! No text has a zero in it. -/

theorem escapeByte_nonzero {b : UInt8} (nonzero : b ≠ 0) : 0 ∉ escapeByte b := by
  have shape := escapeByte_shape b
  generalize escapeByte b = text at shape
  cases shape with
  | copied plain => simpa using Ne.symm nonzero
  | letter c known =>
      have letter : c ≠ 0 := by
        rintro rfl
        have stored : [0] = [b] := (Prod.mk.inj (Except.ok.inj (known []))).1
        exact nonzero (List.cons.inj stored).1.symm
      simpa [backslash] using Ne.symm letter
  | code control =>
      have high := (hexChar_plain (high_small b)).2.1
      have low := (hexChar_plain (low_small b)).2.1
      simpa [backslash] using ⟨Ne.symm high, Ne.symm low⟩

theorem stringText_nonzero (s : CString) : 0 ∉ (stringText s.bytes).2 := by
  rw [stringText_eq s.bytes s.nonzero]
  intro member
  rcases List.mem_append.mp member with inside | ends
  · rcases List.mem_cons.mp inside with first | escaped
    · exact absurd first (by decide)
    · rcases List.mem_flatMap.mp escaped with ⟨b, listed, zero⟩
      exact escapeByte_nonzero (fun same => s.nonzero (same ▸ listed)) zero
  · exact absurd (List.mem_singleton.mp ends) (by decide)

theorem isDigit_nonzero {b : UInt8} (digit : isDigit b = true) : b ≠ 0 := by
  rintro rfl
  contradiction

theorem natural_isDigit (n : Nat) : ∀ b ∈ natural n, isDigit b = true := by
  intro b member
  rw [natural] at member
  split_ifs at member
  · rw [List.mem_singleton.mp member]
    decide
  · exact decimalDigits_isDigit n b member

theorem numberText_nonzero (f : Doubles D) (valueint : BitVec 32) (d : D) :
    0 ∉ (numberText f valueint d).2 := by
  rw [numberText]
  split_ifs
  · decide
  · intro member
    rw [decimal] at member
    split_ifs at member
    · rcases List.mem_cons.mp member with sign | digit
      · exact absurd sign (by decide)
      · exact isDigit_nonzero (natural_isDigit _ 0 digit) rfl
    · exact isDigit_nonzero (natural_isDigit _ 0 member) rfl
  · exact (f.sprintf _ _).nonzero

theorem tabs_nonzero (fmt : Bool) (count : Nat) : 0 ∉ tabs fmt count :=
  fun member => (tabs_blank fmt count 0 member).1 rfl

theorem lineEnd_nonzero (fmt : Bool) : 0 ∉ lineEnd fmt :=
  fun member => (lineEnd_blank fmt 0 member).1 rfl

theorem entryLoop_nonzero (fmt : Bool) {entries : List (List UInt8)}
    (all : ∀ entry ∈ entries, 0 ∉ entry) : 0 ∉ entryLoop fmt entries := by
  induction entries with
  | nil => exact List.not_mem_nil
  | cons entry entries ih =>
      have separated : 0 ∉ if entries.isEmpty then [] else separator fmt := by
        split_ifs
        · exact List.not_mem_nil
        · cases fmt <;> decide
      have later := ih fun other member => all other (List.mem_cons_of_mem entry member)
      simp only [entryLoop, List.mem_append, not_or]
      exact ⟨⟨all entry List.mem_cons_self, separated⟩, later⟩

theorem memberLoop_nonzero (fmt : Bool) (depth : Nat) {members : List (List UInt8 × List UInt8)}
    (all : ∀ texts ∈ members, 0 ∉ texts.1 ∧ 0 ∉ texts.2) : 0 ∉ memberLoop fmt depth members := by
  induction members with
  | nil => exact List.not_mem_nil
  | cons texts members ih =>
      have separated : 0 ∉ if members.isEmpty then [] else [comma] := by
        split_ifs <;> decide
      have here := all texts List.mem_cons_self
      have later := ih fun other member => all other (List.mem_cons_of_mem texts member)
      simp only [memberLoop, List.mem_append, List.mem_cons, not_or]
      exact ⟨⟨⟨⟨⟨⟨tabs_nonzero fmt depth, here.1⟩, by decide, tabs_nonzero fmt 1⟩, here.2⟩,
        separated⟩, lineEnd_nonzero fmt⟩, later⟩

theorem render_nonzero (fmt : Bool) (depth : Nat) (item : Item D) :
    0 ∉ render f fmt depth item := by
  induction item generalizing depth with
  | literal type =>
      rw [render]
      cases type <;> decide
  | number valueint valuedouble =>
      rw [render]
      exact numberText_nonzero f valueint valuedouble
  | text valuestring =>
      rw [render]
      exact stringText_nonzero valuestring
  | array child all =>
      have inside := entryLoop_nonzero fmt
        (List.forall_mem_map.mpr fun item member => all item member (depth + 1))
      rw [← renderEntries_eq] at inside
      simp only [render, arrayText, List.mem_append, List.mem_cons, List.not_mem_nil, not_or,
        or_false]
      exact ⟨⟨by decide, inside⟩, by decide⟩
  | object child all =>
      have texts : ∀ texts ∈ renderMembers f fmt (depth + 1) child,
          0 ∉ texts.1 ∧ 0 ∉ texts.2 := by
        rw [renderMembers_eq]
        intro texts listed
        rcases List.mem_map.mp listed with ⟨item, member, rfl⟩
        exact ⟨stringText_nonzero item.1, all item member (depth + 1)⟩
      have inside := memberLoop_nonzero fmt (depth + 1) texts
      rw [render]
      split_ifs
      · simp only [emptyObjectText, List.mem_append, List.mem_cons, List.not_mem_nil, not_or,
          or_false]
        exact ⟨⟨⟨by decide, lineEnd_nonzero fmt⟩, tabs_nonzero fmt _⟩, by decide⟩
      · simp only [objectText, List.mem_append, List.mem_cons, List.not_mem_nil, not_or, or_false]
        exact ⟨⟨⟨⟨by decide, lineEnd_nonzero fmt⟩, inside⟩, tabs_nonzero fmt _⟩, by decide⟩

theorem parse_render (exact' : Exact f) {item : Item D} (integral : Integral f item) (fmt : Bool)
    (small : (render f fmt 0 item).length < 2 ^ 31) (behind : List UInt8) (strict : Bool) :
    cJSONParseWithOpts f (render f fmt 0 item ++ 0 :: behind) strict =
      .ok (item, 0 :: behind) := by
  have begins := (render_begins exact' integral fmt 0).append (0 :: behind)
  have read := parseValue_render exact' integral fmt
    ((render f fmt 0 item ++ 0 :: behind).length + 1) 0 (by rw [List.length_append]; omega)
    small (0 :: behind)
    ⟨by decide, by decide, by decide, by decide⟩
  have ends : skip (0 :: behind) = .ok (0 :: behind) := skip_cons (fun blank => blank.1 rfl) behind
  simp only [cJSONParseWithOpts, begins.skip, bind, Except.bind, read]
  cases strict with
  | false => rfl
  | true =>
      simp only [if_true, ends, peek]
      rfl

/-- What is printed is parsed back to the same tree, up to the zero that ends the text. -/
theorem cJSONParse_cJSONPrint {f : Doubles D} (exact' : Exact f) (numbers : ShortNumbers f)
    {item : Item D} (integral : Integral f item) (short : Short f item) (behind : List UInt8)
    (strict : Bool) :
    ∃ formatted plain, cJSONPrint f item = some formatted ∧
      cJSONPrintUnformatted f item = some plain ∧
      cJSONParseWithOpts f (formatted ++ 0 :: behind) strict = .ok (item, 0 :: behind) ∧
      cJSONParseWithOpts f (plain ++ 0 :: behind) strict = .ok (item, 0 :: behind) := by
  have read : ∀ fmt, cJSONParseWithOpts f (render f fmt 0 item ++ 0 :: behind) strict =
      .ok (item, 0 :: behind) := by
    intro fmt
    have bound := short fmt
    exact parse_render exact' integral fmt (by omega) behind strict
  exact ⟨render f true 0 item, render f false 0 item, printText_eq numbers short true,
    printText_eq numbers short false, read true, read false⟩

/-- Doubles that hold whole numbers only; on those of 32 bits `sprintf` is not called. -/
def wholeDoubles : Doubles Int where
  ofInt n := n
  toInt n := BitVec.ofInt 32 n
  add := (· + ·)
  sub := (· - ·)
  mul := (· * ·)
  pow a b := a ^ b.toNat
  fabs a := |a|
  floor a := a
  eq a b := decide (a = b)
  le a b := decide (a ≤ b)
  lt a b := decide (a < b)
  dblEpsilon := 0
  tenTo n := 10 ^ n.toNat
  sprintf _ _ := ⟨[0x30], by decide⟩

theorem wholeDoubles_exact : Exact wholeDoubles where
  add _ _ _ _ _ := rfl
  sub _ _ _ _ _ := rfl
  mul _ _ _ _ _ _ := rfl
  pow := by decide
  fabs _ _ := rfl
  eq _ _ _ _ := rfl
  le _ _ _ _ := rfl
  epsilon := by decide
  toInt n := BitVec.ofInt_toInt

theorem wholeDoubles_short : ShortNumbers wholeDoubles := fun _ => (by decide : 1 < 64)

/-- The tree `{"a": [1, -23], "b": "\n"}`. -/
def sampleItem : Item Int :=
  .object [(⟨[0x61], by decide⟩, .array [.int wholeDoubles 1, .int wholeDoubles (-23)]),
    (⟨[0x62], by decide⟩, .text ⟨[0x0a], by decide⟩)]

theorem sampleItem_integral : Integral wholeDoubles sampleItem := by
  apply Integral.object
  intro member listed
  simp only [List.mem_cons, List.not_mem_nil, or_false] at listed
  rcases listed with rfl | rfl
  · apply Integral.array
    intro item listed
    simp only [List.mem_cons, List.not_mem_nil, or_false] at listed
    rcases listed with rfl | rfl
    · exact .int 1
    · exact .int (-23)
  · exact .text _

theorem sampleItem_short : Short wholeDoubles sampleItem := by
  intro fmt
  cases fmt <;> decide

theorem sampleItem_round_trip : ∃ formatted plain,
    cJSONPrint wholeDoubles sampleItem = some formatted ∧
      cJSONPrintUnformatted wholeDoubles sampleItem = some plain ∧
      cJSONParseWithOpts wholeDoubles (formatted ++ [0]) true = .ok (sampleItem, [0]) ∧
      cJSONParseWithOpts wholeDoubles (plain ++ [0]) true = .ok (sampleItem, [0]) :=
  cJSONParse_cJSONPrint wholeDoubles_exact wholeDoubles_short sampleItem_integral sampleItem_short
    [] true

end KongjaExpress.Json
