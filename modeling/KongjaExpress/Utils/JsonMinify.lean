import Mathlib.Data.Bool.AllAny
import KongjaExpress.Utils.JsonRoundTrip

/-! `cJSON_Minify`, which turns the formatted text of a tree into the unformatted one. The text
is rewritten in place, and no byte is written before it is read. -/

namespace KongjaExpress.Json

open Utils

variable {D : Type} {f : Doubles D}

def slash : UInt8 := 0x2f
def star : UInt8 := 0x2a

def minifySpaces : List UInt8 := [space, tab, 0x0d, newline]

def skipLine : List UInt8 → Except Failure (List UInt8)
  | [] => .error .overrun
  | b :: json => if b ≠ 0 ∧ b ≠ newline then skipLine json else .ok (b :: json)

def skipComment : List UInt8 → Except Failure (List UInt8)
  | [] => .error .overrun
  | b :: json => do
      if b = 0 then return b :: json
      else if b = star then
        if (← peek json) = slash then return b :: json else skipComment json
      else skipComment json

def copyLiteral : List UInt8 → Except Failure (List UInt8 × List UInt8)
  | [] => .error .overrun
  | b :: json => do
      if b = 0 ∨ b = quote then return ([b], json)
      else if b = backslash then
        match json with
        | [] => .error .overrun
        | c :: json =>
            let (out, json) ← copyLiteral json
            return (b :: c :: out, json)
      else
        let (out, json) ← copyLiteral json
        return (b :: out, json)

def minifyLoop : Nat → List UInt8 → Except Failure (List UInt8)
  | 0, _ => .error .unfinished
  | fuel + 1, json => do
      let b ← peek json
      if b = 0 then return []
      else if b ∈ minifySpaces then minifyLoop fuel json.tail
      else if b = slash then
        let next ← peek json.tail
        if next = slash then minifyLoop fuel (← skipLine json)
        else if next = star then minifyLoop fuel ((← skipComment json).drop 2)
        else return b :: (← minifyLoop fuel json.tail)
      else if b = quote then
        let (out, json) ← copyLiteral json.tail
        return b :: (out ++ (← minifyLoop fuel json))
      else return b :: (← minifyLoop fuel json.tail)

def cJSONMinify (json : List UInt8) : Except Failure CString :=
  CString.ofMemory <$> minifyLoop (json.length + 1) json

/-- With fuel enough `json` is shortened to `out`. -/
def Shortens (json out : List UInt8) : Prop :=
  ∀ fuel, json.length < fuel → minifyLoop fuel json = .ok out

/-- In front of any text, `text` turns into `out`. -/
def Becomes (text out : List UInt8) : Prop :=
  ∀ json short, Shortens json short → Shortens (text ++ json) (out ++ short)

theorem Becomes.nil : Becomes [] [] := fun _ _ shortens => shortens

theorem Becomes.append {front front' back back' : List UInt8} (first : Becomes front front')
    (second : Becomes back back') : Becomes (front ++ back) (front' ++ back') := by
  intro json short shortens
  rw [List.append_assoc, List.append_assoc]
  exact first _ _ (second json short shortens)

theorem becomes_space {b : UInt8} (blank : b ∈ minifySpaces) : Becomes [b] [] := by
  intro json short shortens fuel enough
  cases fuel with
  | zero => exact absurd enough (Nat.not_lt_zero _)
  | succ fuel =>
      have solid : b ≠ 0 := by
        rintro rfl
        exact absurd blank (by decide)
      change (if b = 0 then _ else if b ∈ minifySpaces then _ else _) = _
      rw [if_neg solid, if_pos blank]
      exact shortens fuel (Nat.lt_of_succ_lt_succ enough)

def Kept (b : UInt8) : Prop := b ≠ 0 ∧ b ∉ minifySpaces ∧ b ≠ slash ∧ b ≠ quote

instance (b : UInt8) : Decidable (Kept b) := inferInstanceAs (Decidable (_ ∧ _))

theorem becomes_kept {b : UInt8} (kept : Kept b) : Becomes [b] [b] := by
  intro json short shortens fuel enough
  cases fuel with
  | zero => exact absurd enough (Nat.not_lt_zero _)
  | succ fuel =>
      have later := shortens fuel (Nat.lt_of_succ_lt_succ enough)
      simp only [List.singleton_append, minifyLoop, peek, bind, Except.bind, if_neg kept.1,
        if_neg kept.2.1, if_neg kept.2.2.1, if_neg kept.2.2.2, List.tail_cons, later]
      rfl

theorem becomes_all_kept {text : List UInt8} (kept : ∀ b ∈ text, Kept b) : Becomes text text := by
  induction text with
  | nil => exact .nil
  | cons b text ih =>
      have first := becomes_kept (kept b List.mem_cons_self)
      exact first.append (ih fun other member => kept other (List.mem_cons_of_mem b member))

theorem becomes_blanks {text : List UInt8} (blank : ∀ b ∈ text, b ∈ minifySpaces) :
    Becomes text [] := by
  induction text with
  | nil => exact .nil
  | cons b text ih =>
      have first := becomes_space (blank b List.mem_cons_self)
      exact first.append (ih fun other member => blank other (List.mem_cons_of_mem b member))

theorem tabs_spaces (fmt : Bool) (count : Nat) : Becomes (tabs fmt count) [] := by
  apply becomes_blanks
  intro b member
  cases fmt with
  | false => simp [tabs] at member
  | true =>
      rw [List.eq_of_mem_replicate member]
      decide

theorem lineEnd_spaces (fmt : Bool) : Becomes (lineEnd fmt) [] := by
  cases fmt with
  | false => exact .nil
  | true => exact becomes_space (by decide)

/-! Strings. -/

theorem copyLiteral_plain {b : UInt8} (plain : b ≠ quote ∧ b ≠ 0 ∧ b ≠ backslash)
    (json : List UInt8) : copyLiteral (b :: json) =
      (copyLiteral json).bind fun (out, json) => .ok (b :: out, json) := by
  cases json with
  | nil => simp [copyLiteral, plain.1, plain.2.1, plain.2.2, bind, Except.bind]
  | cons c json => simp [copyLiteral, plain.1, plain.2.1, plain.2.2, bind, pure, Except.pure]

theorem copyLiteral_escapeByte {b : UInt8} (nonzero : b ≠ 0) (json : List UInt8) :
    copyLiteral (escapeByte b ++ json) =
      (copyLiteral json).bind fun (out, json) => .ok (escapeByte b ++ out, json) := by
  have shape := escapeByte_shape b
  generalize escapeByte b = text at shape
  cases shape with
  | copied plain => exact copyLiteral_plain ⟨plain.2.1, nonzero, plain.2.2⟩ json
  | letter c known => rfl
  | code control =>
      change (copyLiteral (0x30 :: 0x30 :: _ :: _ :: json)).bind _ = _
      rw [copyLiteral_plain (by decide), copyLiteral_plain (by decide),
        copyLiteral_plain (hexChar_plain (high_small b)),
        copyLiteral_plain (hexChar_plain (low_small b))]
      cases copyLiteral json with
      | error failure => rfl
      | ok copied => rfl

theorem copyLiteral_escaped {str : List UInt8} (nonzero : 0 ∉ str) (json : List UInt8) :
    copyLiteral (str.flatMap escapeByte ++ quote :: json) =
      .ok (str.flatMap escapeByte ++ [quote], json) := by
  induction str with
  | nil => cases json <;> rfl
  | cons b str ih =>
      rcases not_or.mp (mt List.mem_cons.mpr nonzero) with ⟨first, rest⟩
      rw [List.flatMap_cons, List.append_assoc, copyLiteral_escapeByte (Ne.symm first), ih rest,
        List.append_assoc]
      rfl

theorem becomes_string (s : CString) : Becomes (stringText s.bytes).2 (stringText s.bytes).2 := by
  intro json short shortens fuel enough
  rw [stringText_eq s.bytes s.nonzero] at enough ⊢
  cases fuel with
  | zero => exact absurd enough (Nat.not_lt_zero _)
  | succ fuel =>
      have later : minifyLoop fuel json = .ok short := by
        apply shortens
        simp only [List.length_append, List.length_cons] at enough
        omega
      have copied := copyLiteral_escaped s.nonzero json
      have shape : quote :: s.bytes.flatMap escapeByte ++ [quote] ++ json =
          quote :: (s.bytes.flatMap escapeByte ++ quote :: json) := by
        simp
      have other : ¬ (quote = 0) ∧ quote ∉ minifySpaces ∧ ¬ (quote = slash) := by decide
      rw [shape]
      simp only [minifyLoop, peek, bind, Except.bind, if_neg other.1, if_neg other.2.1,
        if_neg other.2.2, if_true, List.tail_cons, copied, later]
      rfl

/-! Numbers. -/

/-- What `sprintf` makes of a number holds no space, no slash and no quote. -/
def KeptNumbers (f : Doubles D) : Prop := ∀ d, ∀ b ∈ (f.sprintf (numberFormat f d) d).bytes, Kept b

theorem kept_of_numeral {b : UInt8} (numeral : b = minus ∨ isDigit b = true) : Kept b := by
  rcases numeral with rfl | digit
  · decide
  · rw [isDigit, Bool.and_eq_true, decide_eq_true_eq, decide_eq_true_eq] at digit
    have lower : 0x30 ≤ b.toNat := digit.1
    have other : ∀ c : UInt8, c.toNat < 0x30 → b ≠ c := by
      intro c low same
      rw [same] at lower
      omega
    refine ⟨other 0 (by decide), ?_, other slash (by decide), other quote (by decide)⟩
    simp only [minifySpaces, List.mem_cons, List.not_mem_nil, or_false, not_or]
    exact ⟨other space (by decide), other tab (by decide), other 0x0d (by decide),
      other newline (by decide)⟩

theorem decimal_kept (n : Int) : ∀ b ∈ decimal n, Kept b := by
  intro b member
  apply kept_of_numeral
  rw [decimal] at member
  split_ifs at member
  · rcases List.mem_cons.mp member with rfl | digit
    · exact Or.inl rfl
    · exact Or.inr (natural_isDigit _ b digit)
  · exact Or.inr (natural_isDigit _ b member)

theorem numberText_kept (keeps : KeptNumbers f) (valueint : BitVec 32) (d : D) :
    ∀ b ∈ (numberText f valueint d).2, Kept b := by
  intro b member
  rw [numberText] at member
  split_ifs at member
  · rw [List.mem_singleton.mp member]
    decide
  · exact decimal_kept _ b member
  · exact keeps d b member

/-! Arrays and objects. -/

theorem becomes_entryLoop {entries entries' : List (List UInt8)}
    (become : List.Forall₂ Becomes entries entries') :
    Becomes (entryLoop true entries) (entryLoop false entries') := by
  induction become with
  | nil => exact .nil
  | @cons entry entry' entries entries' first others ih =>
      have separated : Becomes (if entries.isEmpty then [] else separator true)
          (if entries'.isEmpty then [] else separator false) := by
        cases others with
        | nil => exact .nil
        | cons _ _ =>
            have kept : Becomes [comma] [comma] := becomes_kept (by decide)
            exact kept.append (becomes_space (b := space) (by decide))
      exact (first.append separated).append ih

theorem becomes_memberLoop {members members' : List (List UInt8 × List UInt8)} (depth depth' : Nat)
    (become : List.Forall₂ (fun texts texts' => Becomes texts.1 texts'.1 ∧ Becomes texts.2 texts'.2)
      members members') :
    Becomes (memberLoop true depth members) (memberLoop false depth' members') := by
  induction become with
  | nil => exact .nil
  | @cons texts texts' members members' first others ih =>
      have separated : Becomes (if members.isEmpty then [] else [comma])
          (if members'.isEmpty then [] else [comma]) := by
        cases others with
        | nil => exact .nil
        | cons _ _ => exact becomes_kept (by decide)
      have colon' : Becomes [colon] [colon] := becomes_kept (by decide)
      have value := (colon'.append (tabs_spaces true 1)).append first.2
      have named := (tabs_spaces true depth).append (first.1.append value)
      have whole := ((named.append separated).append (lineEnd_spaces true)).append ih
      simpa [memberLoop, tabs, lineEnd] using whole

theorem renderEntries_becomes {items : List (Item D)} (depth depth' : Nat) (all : ∀ item ∈ items,
      Becomes (render f true depth item) (render f false depth' item)) :
    List.Forall₂ Becomes (renderEntries f true depth items)
      (renderEntries f false depth' items) := by
  rw [renderEntries_eq, renderEntries_eq]
  exact List.forall₂_map_left_iff.mpr (List.forall₂_map_right_iff.mpr (List.forall₂_same.mpr all))

theorem renderMembers_becomes {items : List (CString × Item D)} (depth depth' : Nat)
    (all : ∀ item ∈ items, Becomes (render f true depth item.2) (render f false depth' item.2)) :
    List.Forall₂ (fun texts texts' => Becomes texts.1 texts'.1 ∧ Becomes texts.2 texts'.2)
      (renderMembers f true depth items) (renderMembers f false depth' items) := by
  rw [renderMembers_eq, renderMembers_eq]
  exact List.forall₂_map_left_iff.mpr (List.forall₂_map_right_iff.mpr (List.forall₂_same.mpr
    fun item member => ⟨becomes_string item.1, all item member⟩))

/-- The formatted text of an item turns into its unformatted text, at whatever depth. -/
theorem becomes_render (keeps : KeptNumbers f) (item : Item D) (depth depth' : Nat) :
    Becomes (render f true depth item) (render f false depth' item) := by
  induction item generalizing depth depth' with
  | literal type =>
      rw [render, render]
      apply becomes_all_kept
      cases type <;> exact List.all_iff_forall_prop.mp (by decide)
  | number valueint valuedouble =>
      rw [render, render]
      exact becomes_all_kept (numberText_kept keeps valueint valuedouble)
  | text valuestring =>
      rw [render, render]
      exact becomes_string valuestring
  | array child all =>
      rw [render, render]
      have opening : Becomes [leftBracket] [leftBracket] := becomes_kept (by decide)
      have ending : Becomes [rightBracket] [rightBracket] := becomes_kept (by decide)
      have inside := becomes_entryLoop (renderEntries_becomes (depth + 1) (depth' + 1)
        fun item member => all item member _ _)
      exact (opening.append inside).append ending
  | object child all =>
      rw [render, render]
      have opening : Becomes [leftBrace] [leftBrace] := becomes_kept (by decide)
      have ending : Becomes [rightBrace] [rightBrace] := becomes_kept (by decide)
      have line := opening.append (lineEnd_spaces true)
      split_ifs
      · exact (line.append (tabs_spaces true (depth - 1))).append ending
      · have inside := becomes_memberLoop (depth + 1) (depth' + 1)
          (renderMembers_becomes (depth + 1) (depth' + 1) fun item member => all item member _ _)
        exact ((line.append inside).append (tabs_spaces true (depth + 1 - 1))).append ending

theorem shortens_end (behind : List UInt8) : Shortens (0 :: behind) [] := by
  intro fuel enough
  cases fuel with
  | zero => exact absurd enough (Nat.not_lt_zero _)
  | succ fuel => rfl

/-- Minified, the formatted text of a tree is its unformatted text. -/
theorem cJSONMinify_cJSONPrint {f : Doubles D} (numbers : ShortNumbers f) (keeps : KeptNumbers f)
    {item : Item D} (short : Short f item) (behind : List UInt8) :
    ∃ formatted plain minified, cJSONPrint f item = some formatted ∧
      cJSONPrintUnformatted f item = some plain ∧
      cJSONMinify (formatted ++ 0 :: behind) = .ok minified ∧ minified.bytes = plain := by
  have shortens := becomes_render keeps item 0 0 _ _ (shortens_end behind)
  rw [List.append_nil] at shortens
  refine ⟨render f true 0 item, render f false 0 item, .ofMemory (render f false 0 item),
    printText_eq numbers short true, printText_eq numbers short false, ?_,
    CString.ofMemory_nonzero (render_nonzero false 0 item)⟩
  rw [cJSONMinify, shortens _ (Nat.lt_succ_self _)]
  rfl

theorem wholeDoubles_kept : KeptNumbers wholeDoubles :=
  fun _ => List.forall_mem_singleton.mpr (by decide)

theorem sampleItem_minified : ∃ formatted plain minified,
    cJSONPrint wholeDoubles sampleItem = some formatted ∧
      cJSONPrintUnformatted wholeDoubles sampleItem = some plain ∧
      cJSONMinify (formatted ++ [0]) = .ok minified ∧ minified.bytes = plain :=
  cJSONMinify_cJSONPrint wholeDoubles_short wholeDoubles_kept sampleItem_short []

end KongjaExpress.Json
