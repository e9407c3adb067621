import Mathlib.Tactic

/-! Strings that end with a zero byte, and the words the C library takes out of them. -/

namespace KongjaExpress.Tokens

/-- A call of `strtok_r` on a string: the word it returns, the bytes it went past, the
delimiter behind the word overwritten, and the bytes the next call begins with. -/
structure Token where
  word : List UInt8
  passed : List UInt8
  rest : List UInt8
  deriving DecidableEq, Repr

variable (delim : UInt8 → Bool)

def inWord (byte : UInt8) : Bool := byte ≠ 0 && !delim byte

def strtokR (s : List UInt8) : Option Token :=
  let skipped := s.takeWhile delim
  let s := s.dropWhile delim
  let word := s.takeWhile (inWord delim)
  let behind := s.dropWhile (inWord delim)
  if word = [] then none
  else
    match behind with
    | [] => some ⟨word, skipped ++ word, []⟩
    | byte :: rest =>
        if byte = 0 then some ⟨word, skipped ++ word, behind⟩
        else some ⟨word, skipped ++ word ++ [0], rest⟩

/-- The maximal runs of bytes that are no delimiters. -/
def words (line : List UInt8) : List (List UInt8) :=
  (line.splitOnP delim).filter (· ≠ [])

variable {delim}

theorem takeWhile_stop {α : Type} {p : α → Bool} {a : α} (stop : p a = false) (front back : List α) :
    (front ++ a :: back).takeWhile p = front.takeWhile p := by
  induction front with
  | nil => simp [stop]
  | cons b front ih =>
      by_cases taken : p b
      · simp [taken, ih]
      · simp [taken]

theorem dropWhile_stop {α : Type} {p : α → Bool} {a : α} (stop : p a = false) (front back : List α) :
    (front ++ a :: back).dropWhile p = front.dropWhile p ++ a :: back := by
  induction front with
  | nil => simp [stop]
  | cons b front ih =>
      by_cases dropped : p b
      · simp [dropped, ih]
      · simp [dropped]

theorem words_delim {front back : List UInt8} {byte : UInt8} (ends : delim byte = true) :
    words delim (front ++ byte :: back) = words delim front ++ words delim back := by
  rw [words, List.splitOnP_append_cons front back ends, List.filter_append]
  rfl

theorem words_skip {front : List UInt8} (skipped : ∀ byte ∈ front, delim byte = true)
    (back : List UInt8) : words delim (front ++ back) = words delim back := by
  induction front with
  | nil => rfl
  | cons byte front ih =>
      have first := @words_delim delim [] (front ++ back) byte (skipped byte List.mem_cons_self)
      rw [List.nil_append] at first
      rw [List.cons_append, first, ih fun other member => skipped other (List.mem_cons_of_mem _ member)]
      simp [words]

theorem words_single {word : List UInt8} (full : word ≠ [])
    (inside : ∀ byte ∈ word, delim byte = false) : words delim word = [word] := by
  rw [words, List.splitOnP_eq_singleton fun byte member => by simp [inside byte member]]
  simp [full]

theorem words_length {line word : List UInt8} (member : word ∈ words delim line) :
    word.length ≤ line.length := by
  induction size : line.length using Nat.strong_induction_on generalizing line with
  | _ size ih =>
      by_cases plain : ∀ byte ∈ line, delim byte = false
      · by_cases empty : line = []
        · subst empty
          simp [words] at member
        · rw [words_single empty plain, List.mem_singleton] at member
          subst member
          exact size.le
      · push Not at plain
        rcases plain with ⟨byte, inside, ends⟩
        rcases List.append_of_mem inside with ⟨front, back, rfl⟩
        rw [words_delim (by simpa using ends), List.mem_append] at member
        rw [List.length_append, List.length_cons] at size
        rcases member with first | second
        · have bound := ih front.length (by omega) first rfl
          omega
        · have bound := ih back.length (by omega) second rfl
          omega

theorem strtokR_words (nul : delim 0 = false) {line : List UInt8} (clean : 0 ∉ line)
    (tail : List UInt8) :
    (strtokR delim (line ++ 0 :: tail) = none ∧ words delim line = []) ∨
      ∃ word passed rest, strtokR delim (line ++ 0 :: tail) = some ⟨word, passed, rest ++ 0 :: tail⟩ ∧
        words delim line = word :: words delim rest ∧ 0 ∉ rest := by
  have outside : inWord delim 0 = false := by simp [inWord]
  have skip := words_skip (List.all_eq_true.mp (List.all_takeWhile : (line.takeWhile delim).all delim))
    (line.dropWhile delim)
  have plain := List.head?_dropWhile_not delim line
  have cleanAfter : 0 ∉ line.dropWhile delim :=
    fun member => clean ((List.dropWhile_sublist _).mem member)
  rw [List.takeWhile_append_dropWhile] at skip
  rw [strtokR, takeWhile_stop nul, dropWhile_stop nul, takeWhile_stop outside,
    dropWhile_stop outside]
  generalize line.takeWhile delim = skipped
  generalize line.dropWhile delim = after at *
  have split := List.takeWhile_append_dropWhile (p := inWord delim) (l := after)
  have inside := List.all_eq_true.mp (List.all_takeWhile : (after.takeWhile (inWord delim)).all _)
  have stopped := List.head?_dropWhile_not (inWord delim) after
  by_cases empty : after.takeWhile (inWord delim) = []
  · -- nothing but delimiters is left
    refine Or.inl ⟨by rw [if_pos empty], ?_⟩
    cases after with
    | nil => exact skip
    | cons byte after =>
        have nonzero : byte ≠ 0 := by
          rintro rfl
          exact cleanAfter List.mem_cons_self
        have starts : inWord delim byte = true := by
          simp only [List.head?_cons] at plain
          simp [inWord, plain, nonzero]
        rw [List.takeWhile_cons_of_pos starts] at empty
        contradiction
  · rw [if_neg empty]
    generalize after.takeWhile (inWord delim) = word at *
    have letters : ∀ byte ∈ word, delim byte = false := by
      intro byte member
      simpa using (Bool.and_eq_true_iff.mp (inside byte member)).2
    cases behind : after.dropWhile (inWord delim) with
    | nil =>
        rw [behind, List.append_nil] at split
        refine Or.inr ⟨word, skipped ++ word, [], rfl, ?_, List.not_mem_nil⟩
        rw [skip, ← split, words_single empty letters]
        rfl
    | cons byte rest =>
        rw [behind] at split stopped
        have nonzero : byte ≠ 0 := by
          rintro rfl
          apply cleanAfter
          simp [← split]
        have ends : delim byte = true := by
          simpa [inWord, nonzero] using stopped
        refine Or.inr ⟨word, skipped ++ word ++ [0], rest, ?_, ?_, ?_⟩
        · simp only [List.cons_append, if_neg nonzero]
        · rw [skip, ← split, words_delim ends, words_single empty letters]
          rfl
        · intro member
          apply cleanAfter
          simp [← split, member]

/-- A call overwrites a delimiter and moves nothing. -/
theorem strtokR_length {s : List UInt8} {token : Token} (found : strtokR delim s = some token) :
    token.passed.length + token.rest.length = s.length := by
  have skip := congrArg List.length (List.takeWhile_append_dropWhile (p := delim) (l := s))
  have split := congrArg List.length
    (List.takeWhile_append_dropWhile (p := inWord delim) (l := s.dropWhile delim))
  rw [List.length_append] at skip split
  rw [strtokR] at found
  split_ifs at found
  cases behind : (s.dropWhile delim).dropWhile (inWord delim) with
  | nil =>
      simp only [behind] at found
      obtain rfl := Option.some.inj found
      rw [behind, List.length_nil] at split
      simp only [List.length_append, List.length_nil]
      omega
  | cons byte rest =>
      simp only [behind] at found
      rw [behind, List.length_cons] at split
      split_ifs at found
      · obtain rfl := Option.some.inj found
        simp only [List.length_append, List.length_cons]
        omega
      · obtain rfl := Option.some.inj found
        simp only [List.length_append, List.length_cons, List.length_nil]
        omega

theorem strtokR_shorter {s : List UInt8} {token : Token} (found : strtokR delim s = some token) :
    token.rest.length < s.length := by
  have moved := strtokR_length found
  have nonempty : token.passed ≠ [] := by
    rw [strtokR] at found
    split_ifs at found with full
    cases behind : (s.dropWhile delim).dropWhile (inWord delim) with
    | nil =>
        simp only [behind] at found
        obtain rfl := Option.some.inj found
        exact List.append_ne_nil_of_right_ne_nil _ full
    | cons byte rest =>
        simp only [behind] at found
        split_ifs at found
        · obtain rfl := Option.some.inj found
          exact List.append_ne_nil_of_right_ne_nil _ full
        · obtain rfl := Option.some.inj found
          exact List.append_ne_nil_of_right_ne_nil _ (List.cons_ne_nil _ _)
  have positive := List.length_pos_iff.mpr nonempty
  omega

end KongjaExpress.Tokens
