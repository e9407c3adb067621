import KongjaExpress.Utils.JsonRoundTrip

/-! The parser of `cJSON.c` on texts whose escapes are complete: whatever the text, no byte
outside of it is read, and no byte outside of the memory for a string is written. -/

namespace KongjaExpress.Json

open Utils

section Outcome

variable {ε α β : Type} {E : ε → Prop} {P Q : α → Prop} {R : β → Prop}

/-- The results satisfy `Q`, and the errors `E`. -/
def Ends (E : ε → Prop) (Q : α → Prop) : Except ε α → Prop
  | .ok a => Q a
  | .error e => E e

theorem Ends.pure {a : α} (holds : Q a) : Ends E Q (pure a) := holds

theorem Ends.bind {x : Except ε α} {next : α → Except ε β} (first : Ends E Q x)
    (second : ∀ a, Q a → Ends E R (next a)) : Ends E R (x >>= next) := by
  cases x with
  | ok a => exact second a first
  | error e => exact first

theorem Ends.imp {x : Except ε α} (ends : Ends E P x) (implies : ∀ a, P a → Q a) : Ends E Q x := by
  cases x with
  | ok a => exact implies a ends
  | error e => exact ends

end Outcome

variable {D : Type} {f : Doubles D}

/-- A text up to the zero that ends its buffer, with a byte behind each backslash, and four
hexadecimal digits behind `\u`. -/
inductive Terminated : List UInt8 → Prop
  | zero : Terminated [0]
  | byte {b : UInt8} {p : List UInt8} (plain : b ≠ 0 ∧ b ≠ backslash) (rest : Terminated p) :
      Terminated (b :: p)
  | escape {c : UInt8} {p : List UInt8} (letter : c ≠ 0 ∧ c ≠ 0x75) (rest : Terminated p) :
      Terminated (backslash :: c :: p)
  | code {a b c d : UInt8} {p : List UInt8} (digits : ∀ x ∈ [a, b, c, d], (hexDigit x).isSome)
      (rest : Terminated p) : Terminated (backslash :: 0x75 :: a :: b :: c :: d :: p)

/-- A pointer into the text, whose bytes an `int` counts. -/
structure Into (text p : List UInt8) : Prop where
  terminated : Terminated p
  suffix : p <:+ text
  small : text.length < 2 ^ 31

/-- The only errors are refusals with `ep` in the text. -/
def RefusedIn (text : List UInt8) (failure : Failure) : Prop :=
  ∃ ep, failure = .refused ep ∧ ep <:+ text

theorem Terminated.cons {b : UInt8} {p : List UInt8} (terminated : Terminated (b :: p))
    (plain : b ≠ 0 ∧ b ≠ backslash) : Terminated p := by
  cases terminated with
  | zero => exact absurd rfl plain.1
  | byte _ rest => exact rest
  | escape _ _ => exact absurd rfl plain.2
  | code _ _ => exact absurd rfl plain.2

theorem Terminated.head {p : List UInt8} (terminated : Terminated p) : ∃ b q, p = b :: q := by
  cases terminated with
  | zero => exact ⟨_, _, rfl⟩
  | byte _ _ => exact ⟨_, _, rfl⟩
  | escape _ _ => exact ⟨_, _, rfl⟩
  | code _ _ => exact ⟨_, _, rfl⟩

variable {text p : List UInt8}

theorem Into.next {b : UInt8} (into : Into text (b :: p)) (plain : b ≠ 0 ∧ b ≠ backslash) :
    Into text p :=
  ⟨into.terminated.cons plain, (List.suffix_cons b p).trans into.suffix, into.small⟩

def Further (text p : List UInt8) (q : List UInt8) : Prop := Into text q ∧ q.length ≤ p.length

def Beyond (text p : List UInt8) (q : List UInt8) : Prop := Into text q ∧ q.length < p.length

theorem skip_ends (into : Into text p) :
    Ends (RefusedIn text) (fun q => Further text p q) (skip p) := by
  induction p with
  | nil => exact absurd into.terminated (by rintro ⟨⟩)
  | cons b p ih =>
      rw [skip]
      split_ifs with blank
      · have solid : b ≠ 0 ∧ b ≠ backslash := by
          refine ⟨blank.1, ?_⟩
          rintro rfl
          exact absurd blank.2 (by decide)
        apply (ih (into.next solid)).imp
        intro q further
        exact ⟨further.1, Nat.le_succ_of_le further.2⟩
      · exact ⟨into, le_rfl⟩

theorem digit_plain {b : UInt8} (digit : isDigit b = true) : b ≠ 0 ∧ b ≠ backslash := by
  refine ⟨isDigit_nonzero digit, ?_⟩
  rintro rfl
  contradiction

theorem digitsWhile_ends {A : Type} (update : A → Int → A) (a : A) (into : Into text p) :
    Ends (RefusedIn text) (fun r => Further text p r.2) (digitsWhile update a p) := by
  induction p generalizing a with
  | nil => exact absurd into.terminated (by rintro ⟨⟩)
  | cons b p ih =>
      rw [digitsWhile]
      split_ifs with digit
      · apply (ih (update a (digitOf b)) (into.next (digit_plain digit))).imp
        intro r further
        exact ⟨further.1, Nat.le_succ_of_le further.2⟩
      · exact ⟨into, le_rfl⟩

theorem parseFraction_ends (f : Doubles D) (n : D) (into : Into text p) :
    Ends (RefusedIn text) (fun r => Further text p r.2) (parseFraction f n p) := by
  rcases into.terminated.head with ⟨b, p, rfl⟩
  have stays : Further text (b :: p) (b :: p) := ⟨into, le_rfl⟩
  change Ends _ _ (if b = point then _ else _)
  split_ifs with dot
  · have later := into.next (b := b) (by rw [dot]; decide)
    rcases later.terminated.head with ⟨c, p, rfl⟩
    change Ends _ _ (if isDigit c then _ else _)
    split_ifs
    · apply (digitsWhile_ends _ _ later).imp
      intro r further
      exact ⟨further.1, Nat.le_succ_of_le further.2⟩
    · exact stays
  · exact stays

theorem exponentSign_ends (into : Into text p) :
    Ends (RefusedIn text) (fun r => Further text p r.2) (exponentSign p) := by
  rcases into.terminated.head with ⟨b, p, rfl⟩
  change Ends _ _ (if b = 0x2b then _ else if b = minus then _ else _)
  split_ifs with plus sign
  · exact ⟨into.next (by rw [plus]; decide), Nat.le_succ _⟩
  · exact ⟨into.next (by rw [sign]; decide), Nat.le_succ _⟩
  · exact ⟨into, le_rfl⟩

theorem parseExponent_ends (into : Into text p) :
    Ends (RefusedIn text) (fun r => Further text p r.2) (parseExponent p) := by
  rcases into.terminated.head with ⟨b, p, rfl⟩
  change Ends _ _ (if b = 0x65 ∨ b = 0x45 then _ else _)
  split_ifs with letter
  · have plain : b ≠ 0 ∧ b ≠ backslash := by
      rcases letter with rfl | rfl <;> decide
    apply (exponentSign_ends (into.next plain)).bind
    rintro ⟨sign, q⟩ ⟨later, short⟩
    apply (digitsWhile_ends _ _ later).bind
    rintro ⟨subscale, r⟩ ⟨last, shorter⟩
    exact ⟨last, Nat.le_succ_of_le (Nat.le_trans shorter short)⟩
  · exact ⟨into, le_rfl⟩

theorem Further.trans {q r : List UInt8} (first : Further text p q) (second : Further text q r) :
    Further text p r :=
  ⟨second.1, Nat.le_trans second.2 first.2⟩

theorem Beyond.trans {q r : List UInt8} (first : Beyond text p q) (second : Further text q r) :
    Beyond text p r :=
  ⟨second.1, Nat.lt_of_le_of_lt second.2 first.2⟩

theorem Further.beyond {q r : List UInt8} (first : Further text p q) (second : Beyond text q r) :
    Beyond text p r :=
  ⟨second.1, Nat.lt_of_lt_of_le second.2 first.2⟩

theorem Further.cons {q : List UInt8} {b : UInt8} (further : Further text p q) :
    Beyond text (b :: p) q :=
  ⟨further.1, Nat.lt_succ_of_le further.2⟩

theorem Beyond.further {q : List UInt8} (beyond : Beyond text p q) : Further text p q :=
  ⟨beyond.1, Nat.le_of_lt beyond.2⟩

theorem Into.stays (into : Into text p) : Further text p p := ⟨into, le_rfl⟩

/-- The digits of `parse_integer`, the first of which is taken. -/
theorem parseInteger_digits (f : Doubles D) (into : Into text p) :
    Ends (RefusedIn text) (fun r => Further text p r.2)
      (do
        let b ← peek p
        if 0x31 ≤ b ∧ b ≤ 0x39 then
          digitsWhile (fun n digit => f.add (f.mul n (f.ofInt 10)) (f.ofInt digit)) (f.ofInt 0) p
        else return (f.ofInt 0, p)) := by
  rcases into.terminated.head with ⟨b, p, rfl⟩
  change Ends _ _ (if 0x31 ≤ b ∧ b ≤ 0x39 then _ else _)
  split_ifs
  · exact digitsWhile_ends _ _ into
  · exact into.stays

theorem parseInteger_ends (f : Doubles D) {b : UInt8} (into : Into text (b :: p)) :
    Ends (RefusedIn text)
      (fun r => Further text (b :: p) r.2 ∧ (isDigit b = true → Beyond text (b :: p) r.2))
      (parseInteger f (b :: p)) := by
  by_cases zero : b = 0x30
  · have later := into.next (b := b) (by rw [zero]; decide)
    have digits := parseInteger_digits f later
    simp only [parseInteger, peek, bind, Except.bind, if_pos zero, List.tail_cons]
    apply digits.imp
    intro r further
    exact ⟨further.cons.further, fun _ => further.cons⟩
  · simp only [parseInteger, peek, bind, Except.bind, if_neg zero]
    split_ifs with first
    · have digit := isDigit_of_le first.1 first.2
      rw [digitsWhile, if_pos digit]
      apply (digitsWhile_ends _ _ (into.next (digit_plain digit))).imp
      intro r further
      exact ⟨further.cons.further, fun _ => further.cons⟩
    · refine ⟨into.stays, fun digit => absurd ?_ first⟩
      rw [isDigit, Bool.and_eq_true, decide_eq_true_eq, decide_eq_true_eq] at digit
      have other : b.toNat ≠ 0x30 := fun same => zero (UInt8.toNat_inj.mp same)
      have lower : 0x30 ≤ b.toNat := digit.1
      exact ⟨(by omega : 0x31 ≤ b.toNat), digit.2⟩

theorem parseNumber_ends (f : Doubles D) {b : UInt8} (numeral : b = minus ∨ isDigit b = true)
    (into : Into text (b :: p)) :
    Ends (RefusedIn text) (fun r => Beyond text (b :: p) r.2) (parseNumber f (b :: p)) := by
  have rest : ∀ sign : D, ∀ q, numberSign f (b :: p) = .ok (sign, q) →
      Ends (RefusedIn text) (fun r => Beyond text (b :: p) r.2) (parseInteger f q) →
        Ends (RefusedIn text) (fun r => Beyond text (b :: p) r.2) (parseNumber f (b :: p)) := by
    intro sign q signed digits
    rw [parseNumber, signed]
    apply digits.bind
    rintro ⟨n, num⟩ beyond
    apply (parseFraction_ends f n beyond.1).bind
    rintro ⟨⟨n, scale⟩, num'⟩ further
    apply (parseExponent_ends further.1).bind
    rintro ⟨subscale, num''⟩ further'
    exact beyond.trans (Further.trans further further')
  by_cases sign : b = minus
  · have later := into.next (b := b) (by rw [sign]; decide)
    rcases later.terminated.head with ⟨c, p, rfl⟩
    apply rest (f.ofInt (-1)) (c :: p) (if_pos sign)
    apply (parseInteger_ends f later).imp
    intro r further
    exact further.1.cons
  · have digit := numeral.resolve_left sign
    apply rest (f.ofInt 1) (b :: p) (if_neg sign)
    apply (parseInteger_ends f into).imp
    intro r further
    exact further.2 digit

/-! Strings. -/

theorem hexDigit_plain {b : UInt8} (digit : (hexDigit b).isSome) :
    b ≠ quote ∧ b ≠ 0 ∧ b ≠ backslash := by
  refine ⟨?_, ?_, ?_⟩
  all_goals
    rintro rfl
    contradiction

theorem parseHexDigits_some {front : List UInt8} (digits : ∀ x ∈ front, (hexDigit x).isSome)
    (h : UInt32) (p : List UInt8) :
    ∃ uc, parseHexDigits front.length h (front ++ p) = .ok uc := by
  induction front generalizing h with
  | nil => exact ⟨h, rfl⟩
  | cons x front ih =>
      rcases Option.isSome_iff_exists.mp (digits x List.mem_cons_self) with ⟨digit, known⟩
      have rest := ih (fun other member => digits other (List.mem_cons_of_mem x member))
        (h <<< (4 : UInt32) + digit)
      simp only [List.length_cons, List.cons_append, parseHexDigits, peek, bind, Except.bind, known,
        List.tail_cons]
      exact rest

theorem parseHex4_some {a b c d : UInt8} (digits : ∀ x ∈ [a, b, c, d], (hexDigit x).isSome)
    (p : List UInt8) : ∃ uc, parseHex4 (a :: b :: c :: d :: p) = .ok uc :=
  parseHexDigits_some digits 0 p

theorem utf8_length (uc : UInt32) : (utf8 uc).length ≤ 4 := by
  rw [utf8]
  split_ifs <;> simp

inductive CodeRest (p : List UInt8) : List UInt8 → Prop
  | single : CodeRest p p
  | pair {a b c d : UInt8} {q : List UInt8} (digits : ∀ x ∈ [a, b, c, d], (hexDigit x).isSome)
      (rest : Terminated q) (shape : p = backslash :: 0x75 :: a :: b :: c :: d :: q) : CodeRest p q

theorem unescapePair_some (uc : UInt32) (d : UInt8) {p : List UInt8} (rest : Terminated p) :
    ∃ stored e q, unescapePair uc (d :: p) = .ok (stored, e :: q) ∧ stored.length ≤ 4 ∧
      CodeRest p q := by
  cases rest with
  | zero => exact ⟨[], d, _, rfl, Nat.zero_le _, .single⟩
  | byte plain _ => exact ⟨[], d, _, if_pos plain.2, Nat.zero_le _, .single⟩
  | escape letter _ => exact ⟨[], d, _, if_pos letter.2, Nat.zero_le _, .single⟩
  | @code a b c e q digits later =>
      rcases parseHex4_some digits q with ⟨uc2, code⟩
      have body : unescapePair uc (d :: backslash :: 0x75 :: a :: b :: c :: e :: q) =
          (parseHex4 (a :: b :: c :: e :: q)).bind fun uc2 =>
            if uc2 < 0xdc00 ∨ 0xdfff < uc2 then .ok ([], e :: q)
            else .ok (utf8 (0x10000 + ((uc &&& 0x3ff) <<< (10 : UInt32) ||| (uc2 &&& 0x3ff))),
              e :: q) := rfl
      rw [body, code]
      by_cases invalid : uc2 < 0xdc00 ∨ 0xdfff < uc2
      · exact ⟨[], e, q, if_pos invalid, Nat.zero_le _, .pair digits later rfl⟩
      · exact ⟨_, e, q, if_neg invalid, utf8_length _, .pair digits later rfl⟩

theorem unescape_unicode {a b c d : UInt8} (digits : ∀ x ∈ [a, b, c, d], (hexDigit x).isSome)
    {p : List UInt8} (rest : Terminated p) :
    ∃ stored q, unescape (0x75 :: a :: b :: c :: d :: p) = .ok (stored, q) ∧
      stored.length ≤ 4 ∧ CodeRest p q := by
  rcases parseHex4_some digits p with ⟨uc, code⟩
  rcases unescapePair_some uc d rest with ⟨stored, e, q, paired, short, behind⟩
  have body : unescape (0x75 :: a :: b :: c :: d :: p) =
      ((parseHex4 (a :: b :: c :: d :: p)).bind fun uc =>
        if (0xdc00 ≤ uc ∧ uc ≤ 0xdfff) ∨ uc = 0 then .ok ([], d :: p)
        else if 0xd800 ≤ uc ∧ uc ≤ 0xdbff then unescapePair uc (d :: p)
        else .ok (utf8 uc, d :: p)).bind fun r => .ok (r.1, r.2.tail) := rfl
  rw [body, code]
  simp only [Except.bind]
  split_ifs
  · exact ⟨[], p, rfl, Nat.zero_le _, .single⟩
  · exact ⟨stored, q, by rw [paired]; rfl, short, behind⟩
  · exact ⟨utf8 uc, p, rfl, utf8_length uc, .single⟩

/-- Of the two loops over a string the second stores no more than the first has counted. -/
def StringLoops (text p : List UInt8) : Prop :=
  ∃ n, (∀ len, stringLen len p = .ok (len + n)) ∧
    ∀ size fuel out, out.length + n ≤ size → p.length ≤ fuel →
      Ends (RefusedIn text) (fun r => Further text p r.2 ∧ r.1.length ≤ out.length + n)
        (copyString size fuel out p)

/-- The loops go on behind what they count by `k` and store no more than that for. -/
theorem StringLoops.step {q stored : List UInt8} {k : Nat} (loops : StringLoops text q)
    (counts : ∀ len, stringLen len p = stringLen (len + k) q)
    (copies : ∀ size fuel out, copyString size (fuel + 1) out p =
      (store size out stored).bind fun out => copyString size fuel out q)
    (short : stored.length ≤ k) (shorter : q.length < p.length) : StringLoops text p := by
  rcases loops with ⟨n, counted, copied⟩
  refine ⟨k + n, fun len => ?_, fun size fuel out room enough => ?_⟩
  · rw [counts, counted, Nat.add_assoc]
  · cases fuel with
    | zero => omega
    | succ fuel =>
        have stores : store size out stored = .ok (out ++ stored) := if_pos (by omega)
        rw [copies, stores]
        apply (copied size fuel (out ++ stored) (by rw [List.length_append]; omega)
          (by omega)).imp
        rintro r ⟨further, written⟩
        rw [List.length_append] at written
        exact ⟨⟨further.1, Nat.le_trans further.2 (Nat.le_of_lt shorter)⟩, by omega⟩

theorem StringLoops.stop {b : UInt8} (into : Into text (b :: p)) (ends : b = quote ∨ b = 0) :
    StringLoops text (b :: p) := by
  refine ⟨0, fun len => ?_, fun size fuel out room enough => ?_⟩
  · cases p <;> simp [stringLen, ends]
  · cases fuel with
    | zero => exact absurd enough (Nat.not_succ_le_zero _)
    | succ fuel =>
        change Ends _ _ (if b = quote ∨ b = 0 then _ else _)
        rw [if_pos ends]
        exact ⟨into.stays, le_rfl⟩

theorem copyString_escape {c : UInt8} {p q stored : List UInt8}
    (known : unescape (c :: p) = .ok (stored, q)) (size fuel : Nat) (out : List UInt8) :
    copyString size (fuel + 1) out (backslash :: c :: p) =
      (store size out stored).bind fun out => copyString size fuel out q := by
  change (unescape (c :: p)).bind _ = _
  rw [known]
  rfl

theorem unescape_letter {c : UInt8} (letter : c ≠ 0x75) (p : List UInt8) :
    ∃ b, unescape (c :: p) = .ok ([b], p) := by
  simp only [unescape, peek, bind, Except.bind, if_neg letter]
  split_ifs <;> exact ⟨_, rfl⟩

theorem stringLen_code {a b c d : UInt8} (digits : ∀ x ∈ [a, b, c, d], (hexDigit x).isSome)
    (len : Nat) (p : List UInt8) :
    stringLen len (backslash :: 0x75 :: a :: b :: c :: d :: p) = stringLen (len + 5) p := by
  change stringLen (len + 1) (a :: b :: c :: d :: p) = _
  rw [stringLen_plain (hexDigit_plain (digits a (by simp))),
    stringLen_plain (hexDigit_plain (digits b (by simp))),
    stringLen_plain (hexDigit_plain (digits c (by simp))),
    stringLen_plain (hexDigit_plain (digits d (by simp)))]

theorem stringLen_lt {len n : Nat} (counted : stringLen len p = .ok n) : n < len + p.length := by
  induction len, p using stringLen.induct with
  | case1 len => cases counted
  | case2 len b p ends =>
      rw [stringLen.eq_def] at counted
      simp only [if_pos ends, Except.ok.injEq] at counted
      rw [List.length_cons]
      omega
  | case3 len ends => cases counted
  | case4 len ends other p ih =>
      have later := ih counted
      rw [List.length_cons, List.length_cons]
      omega
  | case5 len b p ends other ih =>
      rw [stringLen.eq_def] at counted
      simp only [if_neg ends, if_neg other] at counted
      have later := ih counted
      rw [List.length_cons]
      omega

theorem string_loops (into : Into text p) : StringLoops text p := by
  induction bound : p.length using Nat.strong_induction_on generalizing p with
  | _ bound ih =>
      subst bound
      have behind : ∀ (front : List UInt8) {q}, p = front ++ q → front ≠ [] → Terminated q →
          StringLoops text q ∧ q.length < p.length := by
        intro front q shape full rest
        have shorter : q.length < p.length := by
          rw [shape, List.length_append]
          exact Nat.lt_add_of_pos_left (List.length_pos_iff.mpr full)
        have inside : q <:+ p := ⟨front, shape.symm⟩
        exact ⟨ih q.length shorter ⟨rest, inside.trans into.suffix, into.small⟩ rfl, shorter⟩
      cases into.terminated with
      | zero => exact .stop into (Or.inr rfl)
      | @byte b q plain rest =>
          by_cases single : b = quote
          · exact .stop into (Or.inl single)
          · rcases behind [b] rfl (List.cons_ne_nil _ _) rest with ⟨loops, shorter⟩
            apply loops.step (k := 1) ?_ ?_ (le_refl [b].length) shorter
            · exact fun len => stringLen_plain ⟨single, plain⟩ len q
            · intro size fuel out
              have ends : ¬ (b = quote ∨ b = 0) := by simp [single, plain.1]
              change (if b = quote ∨ b = 0 then _ else if b ≠ backslash then _ else _) = _
              rw [if_neg ends, if_pos plain.2]
              rfl
      | @escape c q letter rest =>
          rcases unescape_letter letter.2 q with ⟨b, known⟩
          rcases behind [backslash, c] rfl (List.cons_ne_nil _ _) rest with
            ⟨loops, shorter⟩
          exact loops.step (k := 1) (fun len => rfl) (copyString_escape known) le_rfl shorter
      | @code a b c d q digits rest =>
          rcases unescape_unicode digits rest with ⟨stored, r, known, short, after⟩
          cases after with
          | single =>
              rcases behind [backslash, 0x75, a, b, c, d] rfl (List.cons_ne_nil _ _) rest with
                ⟨loops, shorter⟩
              exact loops.step (k := 5) (fun len => stringLen_code digits len q)
                (copyString_escape known) (by omega) shorter
          | @pair a' b' c' d' _ digits' rest' shape =>
              subst shape
              rcases behind [backslash, 0x75, a, b, c, d, backslash, 0x75, a', b', c', d']
                rfl (List.cons_ne_nil _ _) rest' with ⟨loops, shorter⟩
              apply loops.step (k := 10) ?_ (copyString_escape known) (by omega) shorter
              intro len
              rw [stringLen_code digits, stringLen_code digits']

theorem refuse {α : Type} {Q : α → Prop} (into : Into text p) :
    Ends (RefusedIn text) Q (throw (.refused p)) :=
  ⟨p, rfl, into.suffix⟩

theorem parseString_ends (into : Into text p) :
    Ends (RefusedIn text) (fun r => Beyond text p r.2) (parseString p) := by
  rcases into.terminated.head with ⟨b, p, rfl⟩
  change Ends _ _ (if b ≠ quote then _ else _)
  split_ifs with other
  · exact refuse into
  · have single : b = quote := not_not.mp other
    have later := into.next (b := b) (by rw [single]; decide)
    rcases string_loops later with ⟨n, counted, copied⟩
    have int : ¬ 2 ^ 31 ≤ 0 + n + 1 := by
      have count := stringLen_lt (counted 0)
      have inside := into.suffix.length_le
      have small := into.small
      rw [List.length_cons] at inside
      omega
    have copy := copied (0 + n + 1) (b :: p).length [] (by simp) (Nat.le_succ _)
    change Ends _ _ ((stringLen 0 p).bind _)
    rw [counted]
    change Ends _ _ (if 2 ^ 31 ≤ 0 + n + 1 then _ else _)
    rw [if_neg int]
    apply copy.bind
    rintro ⟨out, q⟩ ⟨further, written⟩
    have room : out.length + [(0 : UInt8)].length ≤ 0 + n + 1 := by
      simp only [List.length_nil, List.length_cons] at written ⊢
      omega
    have stores : store (0 + n + 1) out [0] = .ok (out ++ [0]) := if_pos room
    change Further text p q at further
    rcases further.1.terminated.head with ⟨c, q, rfl⟩
    change Ends _ _ ((store (0 + n + 1) out [0]).bind _)
    rw [stores]
    change Beyond text (b :: p) (if c = quote then q else c :: q)
    split_ifs with ends
    · have after := further.1.next (b := c) (by rw [ends]; decide)
      exact Beyond.trans further.cons ⟨after, Nat.le_succ _⟩
    · exact further.cons

/-! Arrays and objects. -/

def ValueEnds (text : List UInt8) (bound : Nat)
    (value : List UInt8 → Except Failure (Item D × List UInt8)) : Prop :=
  ∀ p, Into text p → p.length ≤ bound →
    Ends (RefusedIn text) (fun r => Beyond text p r.2) (value p)

variable {bound : Nat} {value : List UInt8 → Except Failure (Item D × List UInt8)}

theorem arrayItems_ends (ends : ValueEnds text bound value) {fuel : Nat} (into : Into text p)
    (near : p.length ≤ bound) (enough : p.length ≤ fuel) :
    Ends (RefusedIn text) (fun r => Further text p r.2) (arrayItems value fuel p) := by
  induction fuel generalizing p with
  | zero =>
      rcases into.terminated.head with ⟨b, p, rfl⟩
      exact absurd enough (Nat.not_succ_le_zero _)
  | succ fuel ih =>
      rcases into.terminated.head with ⟨b, p, rfl⟩
      rw [List.length_cons] at near enough
      change Ends _ _ (if b = comma then _ else _)
      split_ifs with separated
      · apply (skip_ends (into.next (b := b) (by rw [separated]; decide))).bind
        intro q first
        apply (ends q first.1 (by have := first.2; omega)).bind
        rintro ⟨item, r⟩ second
        apply (skip_ends second.1).bind
        intro s third
        have after := Beyond.trans (Further.beyond first second) third
        have shorter := after.2
        apply (ih after.1 (by omega) (by omega)).bind
        rintro ⟨items, t⟩ last
        exact (Beyond.trans after last).further.cons.further
      · exact into.stays

theorem parseArray_ends (ends : ValueEnds text bound value) (into : Into text p)
    (near : p.length ≤ bound + 1) :
    Ends (RefusedIn text) (fun r => Beyond text p r.2) (parseArray value p) := by
  rcases into.terminated.head with ⟨b, p, rfl⟩
  rw [List.length_cons] at near
  change Ends _ _ (if b ≠ leftBracket then _ else _)
  split_ifs with other
  · exact refuse into
  have opening : b = leftBracket := not_not.mp other
  apply (skip_ends (into.next (b := b) (by rw [opening]; decide))).bind
  intro q first
  rcases first.1.terminated.head with ⟨c, q, rfl⟩
  change Ends _ _ (if c = rightBracket then _ else _)
  split_ifs with empty
  · have after := first.1.next (b := c) (by rw [empty]; decide)
    exact (first.trans ⟨after, Nat.le_succ _⟩).cons
  apply (skip_ends first.1).bind
  intro r second
  have start := first.trans second
  apply (ends r second.1 (by have := start.2; omega)).bind
  rintro ⟨item, s⟩ third
  apply (skip_ends third.1).bind
  intro t fourth
  have after := start.beyond (third.trans fourth)
  apply (arrayItems_ends ends after.1 (by have := after.2; omega) (by have := fourth.2; omega)).bind
  rintro ⟨items, u⟩ last
  have whole := after.trans last
  rcases last.1.terminated.head with ⟨d, u, rfl⟩
  change Ends _ _ (if d = rightBracket then _ else _)
  split_ifs with closed
  · have ended := last.1.next (b := d) (by rw [closed]; decide)
    exact (whole.further.trans ⟨ended, Nat.le_succ _⟩).cons
  · exact refuse last.1

theorem parseMember_ends (ends : ValueEnds text bound value) (into : Into text p)
    (near : p.length ≤ bound) :
    Ends (RefusedIn text) (fun r => Beyond text p r.2) (parseMember value p) := by
  apply (skip_ends into).bind
  intro q first
  apply (parseString_ends first.1).bind
  rintro ⟨string, r⟩ second
  apply (skip_ends second.1).bind
  intro s third
  have named := first.beyond (second.trans third)
  rcases third.1.terminated.head with ⟨b, s, rfl⟩
  change Ends _ _ (if b ≠ colon then _ else _)
  split_ifs with other
  · exact refuse third.1
  have separated : b = colon := not_not.mp other
  have after := third.1.next (b := b) (by rw [separated]; decide)
  have passed : Beyond text p s := named.trans ⟨after, Nat.le_succ _⟩
  apply (skip_ends after).bind
  intro t fourth
  have start := passed.trans fourth
  apply (ends t fourth.1 (by have := start.2; omega)).bind
  rintro ⟨item, u⟩ fifth
  apply (skip_ends fifth.1).bind
  intro v last
  exact start.trans (fifth.trans last).further

theorem objectItems_ends (ends : ValueEnds text bound value) {fuel : Nat} (into : Into text p)
    (near : p.length ≤ bound) (enough : p.length ≤ fuel) :
    Ends (RefusedIn text) (fun r => Further text p r.2) (objectItems value fuel p) := by
  induction fuel generalizing p with
  | zero =>
      rcases into.terminated.head with ⟨b, p, rfl⟩
      exact absurd enough (Nat.not_succ_le_zero _)
  | succ fuel ih =>
      rcases into.terminated.head with ⟨b, p, rfl⟩
      rw [List.length_cons] at near enough
      change Ends _ _ (if b = comma then _ else _)
      split_ifs with separated
      · have after := into.next (b := b) (by rw [separated]; decide)
        apply (parseMember_ends ends after (by omega)).bind
        rintro ⟨item, q⟩ member
        have shorter := member.2
        apply (ih member.1 (by omega) (by omega)).bind
        rintro ⟨items, r⟩ last
        exact (member.trans last).further.cons.further
      · exact into.stays

theorem parseObject_ends (ends : ValueEnds text bound value) (into : Into text p)
    (near : p.length ≤ bound + 1) :
    Ends (RefusedIn text) (fun r => Beyond text p r.2) (parseObject value p) := by
  rcases into.terminated.head with ⟨b, p, rfl⟩
  rw [List.length_cons] at near
  change Ends _ _ (if b ≠ leftBrace then _ else _)
  split_ifs with other
  · exact refuse into
  have opening : b = leftBrace := not_not.mp other
  apply (skip_ends (into.next (b := b) (by rw [opening]; decide))).bind
  intro q first
  rcases first.1.terminated.head with ⟨c, q, rfl⟩
  change Ends _ _ (if c = rightBrace then _ else _)
  split_ifs with empty
  · have after := first.1.next (b := c) (by rw [empty]; decide)
    exact (first.trans ⟨after, Nat.le_succ _⟩).cons
  apply (parseMember_ends ends first.1 (by have := first.2; omega)).bind
  rintro ⟨item, r⟩ second
  have after := first.beyond second
  apply (objectItems_ends ends second.1 (by have := after.2; omega) le_rfl).bind
  rintro ⟨items, s⟩ last
  have whole := after.trans last
  rcases last.1.terminated.head with ⟨d, s, rfl⟩
  change Ends _ _ (if d = rightBrace then _ else _)
  split_ifs with closed
  · have ended := last.1.next (b := d) (by rw [closed]; decide)
    exact (whole.further.trans ⟨ended, Nat.le_succ _⟩).cons
  · exact refuse last.1

theorem startsWith_ends {word : List UInt8} (plain : ∀ w ∈ word, w ≠ 0 ∧ w ≠ backslash)
    (into : Into text p) : Ends (RefusedIn text)
      (fun found => found = true → Into text (p.drop word.length) ∧ word.length ≤ p.length)
      (startsWith word p) := by
  induction word generalizing p with
  | nil => exact fun _ => ⟨into, Nat.zero_le _⟩
  | cons w word ih =>
      rcases into.terminated.head with ⟨b, p, rfl⟩
      rw [startsWith]
      split_ifs with same
      · have later := into.next (b := b) (by rw [same]; exact plain w List.mem_cons_self)
        apply (ih (fun other member => plain other (List.mem_cons_of_mem w member)) later).imp
        intro found ends here
        exact ⟨(ends here).1, Nat.succ_le_succ (ends here).2⟩
      · exact fun impossible => absurd impossible Bool.false_ne_true

theorem word_plain : ∀ word ∈ [nullWord, falseWord, trueWord], word ≠ [] ∧
    ∀ w ∈ word, w ≠ 0 ∧ w ≠ backslash := by
  simp [nullWord, falseWord, trueWord, backslash]

theorem parseValue_ends (f : Doubles D) {fuel : Nat} (into : Into text p) (enough : p.length ≤ fuel) :
    Ends (RefusedIn text) (fun r => Beyond text p r.2) (parseValue f fuel p) := by
  induction fuel generalizing p with
  | zero =>
      rcases into.terminated.head with ⟨b, p, rfl⟩
      exact absurd enough (Nat.not_succ_le_zero _)
  | succ fuel ih =>
      have values : ValueEnds text fuel (parseValue f fuel) := fun q here near => ih here near
      have passed : ∀ word ∈ [nullWord, falseWord, trueWord], Into text (p.drop word.length) ∧
          word.length ≤ p.length → Beyond text p (p.drop word.length) := by
        intro word member found
        have longer := List.length_pos_iff.mpr (word_plain word member).1
        refine ⟨found.1, ?_⟩
        rw [List.length_drop]
        omega
      have matched : ∀ word ∈ [nullWord, falseWord, trueWord], Ends (RefusedIn text)
          (fun found => found = true → Beyond text p (p.drop word.length)) (startsWith word p) := by
        intro word member
        apply (startsWith_ends (word_plain word member).2 into).imp
        exact fun found ends here => passed word member (ends here)
      rcases into.terminated.head with ⟨b, q, shape⟩
      rw [parseValue]
      apply (matched nullWord (by decide)).bind
      intro isNull null
      split_ifs with here
      · exact null here
      apply (matched falseWord (by decide)).bind
      intro isFalse no
      split_ifs with here
      · exact no here
      apply (matched trueWord (by decide)).bind
      intro isTrue yes
      split_ifs with here
      · exact yes here
      subst shape
      change Ends _ _ (if b = quote then _ else _)
      split_ifs with string number array object
      · apply (parseString_ends into).bind
        exact fun r beyond => beyond
      · exact parseNumber_ends f number into
      · exact parseArray_ends values into enough
      · exact parseObject_ends values into enough
      · exact refuse into

/-- Whatever a text with complete escapes says, `cJSON_ParseWithOpts` reads no byte outside of
it, stores no byte outside of the memory for a string, and reports a pointer into the text. -/
theorem cJSONParse_safe (f : Doubles D) (strict : Bool) {value : List UInt8}
    (terminated : Terminated value) (small : value.length < 2 ^ 31) :
    (∃ item ending, cJSONParseWithOpts f value strict = .ok (item, ending) ∧ ending <:+ value ∧
      (strict = true → ∃ rest, ending = 0 :: rest)) ∨
    ∃ ep, cJSONParseWithOpts f value strict = .error (.refused ep) ∧ ep <:+ value := by
  have ends : Ends (RefusedIn value) (fun r => r.2 <:+ value ∧
      (strict = true → ∃ rest, r.2 = 0 :: rest)) (cJSONParseWithOpts f value strict) := by
    have start : Into value value := ⟨terminated, List.suffix_rfl, small⟩
    apply (skip_ends start).bind
    intro p first
    apply (parseValue_ends f first.1 (Nat.le_succ_of_le first.2)).bind
    rintro ⟨item, ending⟩ second
    cases strict with
    | false => exact ⟨second.1.suffix, fun impossible => absurd impossible Bool.false_ne_true⟩
    | true =>
        apply (skip_ends second.1).bind
        intro q third
        rcases third.1.terminated.head with ⟨b, q, rfl⟩
        change Ends _ _ (if b ≠ 0 then _ else _)
        split_ifs with more
        · exact refuse third.1
        · exact ⟨third.1.suffix, fun _ => ⟨q, congrArg (· :: q) (not_not.mp more)⟩⟩
  cases result : cJSONParseWithOpts f value strict with
  | ok r =>
      rw [result] at ends
      exact Or.inl ⟨r.1, r.2, rfl, ends.1, ends.2⟩
  | error failure =>
      rw [result] at ends
      rcases ends with ⟨ep, rfl, inside⟩
      exact Or.inr ⟨ep, rfl, inside⟩

/-- The text `["\u0041\n"]` and its zero. -/
def escapedText : List UInt8 :=
  [leftBracket, quote, backslash, 0x75, 0x30, 0x30, 0x34, 0x31, backslash, 0x6e, quote,
    rightBracket, 0]

theorem escapedText_terminated : Terminated escapedText :=
  .byte (by decide) (.byte (by decide) (.code (List.all_eq_true.mp rfl) (.escape (by decide)
    (.byte (by decide) (.byte (by decide) .zero)))))

theorem escapedText_safe :
    (∃ item ending, cJSONParseWithOpts wholeDoubles escapedText true = .ok (item, ending) ∧
      ending <:+ escapedText ∧ (true = true → ∃ rest, ending = 0 :: rest)) ∨
    ∃ ep, cJSONParseWithOpts wholeDoubles escapedText true = .error (.refused ep) ∧
      ep <:+ escapedText :=
  cJSONParse_safe wholeDoubles true escapedText_terminated (by decide)

-- without the four digits the parser leaves the text
example : cJSONParse wholeDoubles [quote, backslash, 0x75, quote, 0] = .error .overrun := by rfl

end KongjaExpress.Json
