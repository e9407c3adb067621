import KongjaExpress.Utils.JsonParse

/-! The printer of `cJSON.c` without a print buffer: each text is composed in memory that is
allocated for it, of a size that is computed beforehand. -/

namespace KongjaExpress.Json

open Utils

variable {D : Type}

def digitByte (digit : Nat) : UInt8 := 0x30 + digit.toUInt8

/-- `%u`. -/
def natural (n : Nat) : List UInt8 :=
  if n = 0 then [0x30] else (Nat.digits 10 n).reverse.map digitByte

/-- `%d`. -/
def decimal (n : Int) : List UInt8 := if n < 0 then minus :: natural n.natAbs else natural n.natAbs

def tab : UInt8 := 0x09
def newline : UInt8 := 0x0a
def space : UInt8 := 0x20

/-- The conversion `print_number` chooses for what is no `int`. -/
def numberFormat (f : Doubles D) (d : D) : DoubleFormat :=
  if f.le (f.fabs (f.sub (f.floor d) d)) f.dblEpsilon && f.lt (f.fabs d) (f.tenTo 60) then .whole
  else if f.lt (f.fabs d) (f.tenTo (-6)) || f.lt (f.tenTo 9) (f.fabs d) then .exponent
  else .fixed

/-- The size `print_number` asks for, and its text. -/
def numberText (f : Doubles D) (valueint : BitVec 32) (d : D) : Nat × List UInt8 :=
  if f.eq d (f.ofInt 0) then (2, [0x30])
  else if f.le (f.fabs (f.sub (f.ofInt valueint.toInt) d)) f.dblEpsilon &&
      f.le d (f.ofInt (2 ^ 31 - 1)) && f.le (f.ofInt (- 2 ^ 31)) d then
    (21, decimal valueint.toInt)
  else (64, (f.sprintf (numberFormat f d) d).bytes)

def needsEscape (b : UInt8) : Bool := (0 < b && b < 32) || b = quote || b = backslash

/-- The bytes of `"\"\\\b\f\n\r\t"`. -/
def shortEscapes : List UInt8 := [quote, backslash, 0x08, 0x0c, 0x0a, 0x0d, 0x09]

/-- A digit of `%x`. -/
def hexChar (n : UInt8) : UInt8 := if n < 10 then 0x30 + n else 0x61 + (n - 10)

def escapeByte (b : UInt8) : List UInt8 :=
  if 31 < b ∧ b ≠ quote ∧ b ≠ backslash then [b]
  else if b = backslash then [backslash, backslash]
  else if b = quote then [backslash, quote]
  else if b = 0x08 then [backslash, 0x62]
  else if b = 0x0c then [backslash, 0x66]
  else if b = 0x0a then [backslash, 0x6e]
  else if b = 0x0d then [backslash, 0x72]
  else if b = 0x09 then [backslash, 0x74]
  else [backslash, 0x75, 0x30, 0x30, hexChar (b / 16), hexChar (b % 16)]

/-- What the loop of `print_string_ptr` adds to `len` for a byte. -/
def escapeLen (b : UInt8) : Nat := if b ∈ shortEscapes then 2 else if b < 32 then 6 else 1

/-- The size `print_string_ptr` asks for, and its text. -/
def stringText (str : List UInt8) : Nat × List UInt8 :=
  if str.any needsEscape then
    ((str.map escapeLen).sum + 3, quote :: str.flatMap escapeByte ++ [quote])
  else (str.length + 3, quote :: str ++ [quote])

def literalText : CJsonLiteral → List UInt8
  | .cJSONNull => nullWord
  | .cJSONFalse => falseWord
  | .cJSONTrue => trueWord

def fill (size : Nat) (text : List UInt8) : Option (List UInt8) :=
  if text.length + 1 ≤ size then some text else none

def separator (fmt : Bool) : List UInt8 := if fmt then [comma, space] else [comma]

def entryLoop (fmt : Bool) : List (List UInt8) → List UInt8
  | [] => []
  | entry :: entries =>
      entry ++ (if entries.isEmpty then [] else separator fmt) ++ entryLoop fmt entries

def arraySize (fmt : Bool) (entries : List (List UInt8)) : Nat :=
  5 + (entries.map fun entry => entry.length + 2 + fmt.toNat).sum

def arrayText (fmt : Bool) (entries : List (List UInt8)) : List UInt8 :=
  leftBracket :: entryLoop fmt entries ++ [rightBracket]

def tabs (fmt : Bool) (count : Nat) : List UInt8 := if fmt then List.replicate count tab else []

def lineEnd (fmt : Bool) : List UInt8 := if fmt then [newline] else []

def memberLoop (fmt : Bool) (depth : Nat) : List (List UInt8 × List UInt8) → List UInt8
  | [] => []
  | (name, entry) :: members =>
      tabs fmt depth ++ name ++ colon :: tabs fmt 1 ++ entry ++
        (if members.isEmpty then [] else [comma]) ++ lineEnd fmt ++ memberLoop fmt depth members

/-- `len` of `print_object`, with its depth raised by one. -/
def objectSize (fmt : Bool) (depth : Nat) (members : List (List UInt8 × List UInt8)) : Nat :=
  7 + (if fmt then depth else 0) +
    (members.map fun member =>
      member.2.length + member.1.length + 2 + (if fmt then 2 + depth else 0)).sum

def objectText (fmt : Bool) (depth : Nat) (members : List (List UInt8 × List UInt8)) :
    List UInt8 :=
  leftBrace :: lineEnd fmt ++ memberLoop fmt depth members ++ tabs fmt (depth - 1) ++ [rightBrace]

def emptyObjectText (fmt : Bool) (depth : Nat) : List UInt8 :=
  leftBrace :: lineEnd fmt ++ tabs fmt (depth - 1) ++ [rightBrace]

mutual

/-- `print_value` without a buffer; `none` is a store behind the memory of a text. -/
def printValue (f : Doubles D) (fmt : Bool) : Nat → Item D → Option (List UInt8)
  | _, .literal type => some (literalText type)
  | _, .number valueint d => fill (numberText f valueint d).1 (numberText f valueint d).2
  | _, .text valuestring => fill (stringText valuestring.bytes).1 (stringText valuestring.bytes).2
  | depth, .array child =>
      if child.isEmpty then fill 3 [leftBracket, rightBracket]
      else do
        let entries ← printEntries f fmt (depth + 1) child
        fill (arraySize fmt entries) (arrayText fmt entries)
  | depth, .object child =>
      if child.isEmpty then fill (if fmt then depth + 4 else 3) (emptyObjectText fmt depth)
      else do
        let members ← printMembers f fmt (depth + 1) child
        fill (objectSize fmt (depth + 1) members) (objectText fmt (depth + 1) members)

def printEntries (f : Doubles D) (fmt : Bool) : Nat → List (Item D) → Option (List (List UInt8))
  | _, [] => some []
  | depth, item :: items => do
      let entry ← printValue f fmt depth item
      let entries ← printEntries f fmt depth items
      return entry :: entries

def printMembers (f : Doubles D) (fmt : Bool) :
    Nat → List (CString × Item D) → Option (List (List UInt8 × List UInt8))
  | _, [] => some []
  | depth, (string, item) :: items => do
      let name ← fill (stringText string.bytes).1 (stringText string.bytes).2
      let entry ← printValue f fmt depth item
      let members ← printMembers f fmt depth items
      return (name, entry) :: members

end

mutual

/-- The text of an item, without the memory it is composed in. -/
def render (f : Doubles D) (fmt : Bool) : Nat → Item D → List UInt8
  | _, .literal type => literalText type
  | _, .number valueint d => (numberText f valueint d).2
  | _, .text valuestring => (stringText valuestring.bytes).2
  | depth, .array child => arrayText fmt (renderEntries f fmt (depth + 1) child)
  | depth, .object child =>
      if child.isEmpty then emptyObjectText fmt depth
      else objectText fmt (depth + 1) (renderMembers f fmt (depth + 1) child)

def renderEntries (f : Doubles D) (fmt : Bool) : Nat → List (Item D) → List (List UInt8)
  | _, [] => []
  | depth, item :: items => render f fmt depth item :: renderEntries f fmt depth items

def renderMembers (f : Doubles D) (fmt : Bool) :
    Nat → List (CString × Item D) → List (List UInt8 × List UInt8)
  | _, [] => []
  | depth, (string, item) :: items =>
      ((stringText string.bytes).2, render f fmt depth item) :: renderMembers f fmt depth items

end

mutual

/-- The sizes for `malloc`, which the source computes in an `int`. -/
def mallocSizes (f : Doubles D) (fmt : Bool) : Nat → Item D → List Nat
  | _, .literal type => [(literalText type).length + 1]
  | _, .number valueint d => [(numberText f valueint d).1]
  | _, .text valuestring => [(stringText valuestring.bytes).1]
  | depth, .array child =>
      if child.isEmpty then [3]
      else arraySize fmt (renderEntries f fmt (depth + 1) child) ::
        entrySizes f fmt (depth + 1) child
  | depth, .object child =>
      if child.isEmpty then [if fmt then depth + 4 else 3]
      else objectSize fmt (depth + 1) (renderMembers f fmt (depth + 1) child) ::
        memberSizes f fmt (depth + 1) child

def entrySizes (f : Doubles D) (fmt : Bool) : Nat → List (Item D) → List Nat
  | _, [] => []
  | depth, item :: items => mallocSizes f fmt depth item ++ entrySizes f fmt depth items

def memberSizes (f : Doubles D) (fmt : Bool) : Nat → List (CString × Item D) → List Nat
  | _, [] => []
  | depth, (string, item) :: items =>
      (stringText string.bytes).1 :: mallocSizes f fmt depth item ++ memberSizes f fmt depth items

end

/-- `print_value` at the root; `none` is also a size that is no `int`. Every `malloc` succeeds. -/
def printText (f : Doubles D) (fmt : Bool) (item : Item D) : Option (List UInt8) :=
  if ∀ size ∈ mallocSizes f fmt 0 item, size < 2 ^ 31 then printValue f fmt 0 item else none

def cJSONPrint (f : Doubles D) (item : Item D) : Option (List UInt8) := printText f true item

def cJSONPrintUnformatted (f : Doubles D) (item : Item D) : Option (List UInt8) :=
  printText f false item

/-- Both texts of an item are short enough for a C `int` to count what is allocated for them. -/
def Short (f : Doubles D) (item : Item D) : Prop :=
  ∀ fmt, (render f fmt 0 item).length + 64 ≤ 2 ^ 30

/-- Numbers that are no `int` fit the buffer they are written to. -/
def ShortNumbers (f : Doubles D) : Prop := ∀ d, (f.sprintf (numberFormat f d) d).bytes.length < 64

theorem renderEntries_eq (f : Doubles D) (fmt : Bool) (depth : Nat) (items : List (Item D)) :
    renderEntries f fmt depth items = items.map (render f fmt depth) := by
  induction items with
  | nil => rw [renderEntries, List.map_nil]
  | cons item items ih => rw [renderEntries, ih, List.map_cons]

theorem renderMembers_eq (f : Doubles D) (fmt : Bool) (depth : Nat)
    (items : List (CString × Item D)) : renderMembers f fmt depth items =
      items.map fun item => ((stringText item.1.bytes).2, render f fmt depth item.2) := by
  induction items with
  | nil => rw [renderMembers, List.map_nil]
  | cons item items ih => rw [renderMembers, ih, List.map_cons]

theorem fill_some {size : Nat} {text : List UInt8} (fits : text.length + 1 ≤ size) :
    fill size text = some text :=
  if_pos fits

theorem decimal_length {n : Int} (lower : - 2 ^ 31 ≤ n) (upper : n < 2 ^ 31) :
    (decimal n).length ≤ 11 := by
  have bound : n.natAbs < 10 ^ 10 := by omega
  have digits : (Nat.digits 10 n.natAbs).length ≤ 10 :=
    (Nat.digits_length_le_iff (by decide) n.natAbs).mpr bound
  have short : (natural n.natAbs).length ≤ 10 := by
    rw [natural]
    split_ifs
    · simp
    · simpa using digits
  rw [decimal]
  split_ifs
  · rw [List.length_cons]
    omega
  · omega

theorem numberText_fits {f : Doubles D} (short : ShortNumbers f) (valueint : BitVec 32) (d : D) :
    (numberText f valueint d).2.length + 1 ≤ (numberText f valueint d).1 := by
  rw [numberText]
  split_ifs
  · simp
  · have := @decimal_length valueint.toInt (BitVec.le_toInt valueint) (BitVec.toInt_lt)
    exact (by omega : (decimal valueint.toInt).length + 1 ≤ 21)
  · exact short d

/-- `len` counts what an escape takes. -/
theorem escapeByte_length (b : UInt8) : (escapeByte b).length = escapeLen b := by
  by_cases short : b ∈ shortEscapes
  · rw [escapeLen, if_pos short]
    simp only [shortEscapes, List.mem_cons, List.not_mem_nil, or_false] at short
    rcases short with rfl | rfl | rfl | rfl | rfl | rfl | rfl <;> rfl
  · rw [escapeLen, if_neg short, escapeByte]
    simp only [shortEscapes, List.mem_cons, List.not_mem_nil, or_false, not_or] at short
    rcases short with ⟨plain, single, bs, ff, nl, cr, ht⟩
    have order : (31 < b) ↔ ¬ b < 32 := by
      rw [UInt8.lt_iff_toNat_lt, UInt8.lt_iff_toNat_lt]
      change 31 < b.toNat ↔ ¬ b.toNat < 32
      omega
    by_cases control : b < 32
    · have low : ¬ (31 < b ∧ b ≠ quote ∧ b ≠ backslash) := fun both => order.mp both.1 control
      rw [if_neg low, if_pos control]
      simp [plain, single, bs, ff, nl, cr, ht]
    · rw [if_pos ⟨order.mpr control, plain, single⟩, if_neg control]
      rfl

theorem flatMap_escapeByte_length (str : List UInt8) :
    (str.flatMap escapeByte).length = (str.map escapeLen).sum := by
  rw [List.length_flatMap]
  congr 1
  apply List.map_congr_left
  intro b _
  exact escapeByte_length b

theorem stringText_fits (str : List UInt8) :
    (stringText str).2.length + 1 ≤ (stringText str).1 := by
  rw [stringText]
  split_ifs
  · simp only [List.length_append, List.length_cons, List.length_nil, flatMap_escapeByte_length]
    omega
  · simp

theorem separator_length (fmt : Bool) : (separator fmt).length = 1 + fmt.toNat := by
  cases fmt <;> rfl

theorem entryLoop_length (fmt : Bool) (entries : List (List UInt8)) :
    (entryLoop fmt entries).length ≤
      (entries.map fun entry => entry.length + 2 + fmt.toNat).sum := by
  induction entries with
  | nil => simp [entryLoop]
  | cons entry entries ih =>
      have separated : (if entries.isEmpty then [] else separator fmt).length ≤ 1 + fmt.toNat := by
        split_ifs
        · simp
        · exact (separator_length fmt).le
      simp only [entryLoop, List.length_append, List.map_cons, List.sum_cons]
      omega

theorem arrayText_fits (fmt : Bool) (entries : List (List UInt8)) :
    (arrayText fmt entries).length + 1 ≤ arraySize fmt entries := by
  have := entryLoop_length fmt entries
  simp only [arrayText, arraySize, List.length_append, List.length_cons, List.length_nil]
  omega

@[simp] theorem tabs_length (fmt : Bool) (count : Nat) :
    (tabs fmt count).length = if fmt then count else 0 := by
  cases fmt <;> simp [tabs]

@[simp] theorem lineEnd_length (fmt : Bool) : (lineEnd fmt).length = if fmt then 1 else 0 := by
  cases fmt <;> rfl

theorem memberLoop_length (fmt : Bool) (depth : Nat) (members : List (List UInt8 × List UInt8)) :
    (memberLoop fmt depth members).length ≤ (members.map fun member =>
      member.2.length + member.1.length + 2 + (if fmt then 2 + depth else 0)).sum := by
  induction members with
  | nil => simp [memberLoop]
  | cons member members ih =>
      have separated : (if members.isEmpty then [] else [comma]).length ≤ 1 := by
        split_ifs <;> simp
      simp only [memberLoop, List.length_append, List.length_cons, List.map_cons, List.sum_cons,
        tabs_length, lineEnd_length]
      cases fmt
      · simp only [Bool.false_eq_true, if_false] at ih ⊢
        omega
      · simp only [if_true] at ih ⊢
        omega

theorem objectText_fits (fmt : Bool) (depth : Nat) (members : List (List UInt8 × List UInt8)) :
    (objectText fmt depth members).length + 1 ≤ objectSize fmt depth members := by
  have loop := memberLoop_length fmt depth members
  simp only [objectText, objectSize, List.length_append, List.length_cons, List.length_nil,
    tabs_length, lineEnd_length]
  cases fmt
  · simp only [Bool.false_eq_true, if_false] at loop ⊢
    omega
  · simp only [if_true] at loop ⊢
    omega

theorem emptyObjectText_fits (fmt : Bool) (depth : Nat) :
    (emptyObjectText fmt depth).length + 1 ≤ if fmt then depth + 4 else 3 := by
  simp only [emptyObjectText, List.length_append, List.length_cons, List.length_nil, tabs_length,
    lineEnd_length]
  cases fmt
  · simp
  · simp only [if_true]
    omega

theorem printEntries_render {f : Doubles D} {fmt : Bool} {items : List (Item D)} (depth : Nat)
    (all : ∀ item ∈ items, ∀ depth, printValue f fmt depth item = some (render f fmt depth item)) :
    printEntries f fmt depth items = some (renderEntries f fmt depth items) := by
  induction items with
  | nil => rw [printEntries, renderEntries]
  | cons item items ih =>
      rw [printEntries, renderEntries, all item List.mem_cons_self depth,
        ih fun other member => all other (List.mem_cons_of_mem item member)]
      rfl

theorem printMembers_render {f : Doubles D} {fmt : Bool} {items : List (CString × Item D)}
    (depth : Nat) (all : ∀ item ∈ items, ∀ depth,
      printValue f fmt depth item.2 = some (render f fmt depth item.2)) :
    printMembers f fmt depth items = some (renderMembers f fmt depth items) := by
  induction items with
  | nil => rw [printMembers, renderMembers]
  | cons item items ih =>
      rw [printMembers, renderMembers, fill_some (stringText_fits item.1.bytes),
        all item List.mem_cons_self depth,
        ih fun other member => all other (List.mem_cons_of_mem item member)]
      rfl

/-- No text outgrows the memory that `print_value` composes it in. -/
theorem printValue_eq {f : Doubles D} (short : ShortNumbers f) (fmt : Bool) (depth : Nat)
    (item : Item D) : printValue f fmt depth item = some (render f fmt depth item) := by
  induction item generalizing depth with
  | literal type => rw [printValue, render]
  | number valueint valuedouble =>
      rw [printValue, render]
      exact fill_some (numberText_fits short valueint valuedouble)
  | text valuestring =>
      rw [printValue, render]
      exact fill_some (stringText_fits valuestring.bytes)
  | array child all =>
      rw [printValue, render]
      split_ifs with empty
      · obtain rfl := List.isEmpty_iff.mp empty
        rw [renderEntries]
        rfl
      · rw [printEntries_render (depth + 1) fun item member depth => all item member depth]
        exact fill_some (arrayText_fits fmt _)
  | object child all =>
      rw [printValue, render]
      by_cases empty : child.isEmpty
      · rw [if_pos empty, if_pos empty]
        exact fill_some (emptyObjectText_fits fmt depth)
      · rw [if_neg empty, if_neg empty, printMembers_render (depth + 1) fun item member depth => all item member depth]
        exact fill_some (objectText_fits fmt (depth + 1) _)

theorem numberText_size (f : Doubles D) (valueint : BitVec 32) (d : D) :
    (numberText f valueint d).1 ≤ 64 := by
  rw [numberText]
  split_ifs
  · exact (by decide : 2 ≤ 64)
  · exact (by decide : 21 ≤ 64)
  · exact le_rfl

theorem stringText_size (str : List UInt8) :
    (stringText str).1 = (stringText str).2.length + 1 := by
  rw [stringText]
  split_ifs
  · simp only [List.length_append, List.length_cons, List.length_nil, flatMap_escapeByte_length]
  · simp

theorem entryLoop_double (fmt : Bool) (entries : List (List UInt8)) :
    (entries.map fun entry => entry.length + 2 + fmt.toNat).sum ≤
      2 * (entryLoop fmt entries).length + 3 := by
  induction entries with
  | nil => simp
  | cons entry entries ih =>
      have flag := Bool.toNat_le fmt
      simp only [entryLoop, List.length_append, List.map_cons, List.sum_cons]
      cases entries with
      | nil =>
          simp only [List.map_nil, List.sum_nil]
          omega
      | cons next entries =>
          rw [List.isEmpty_cons, if_neg Bool.false_ne_true, separator_length]
          omega

theorem memberLoop_double (fmt : Bool) (depth : Nat) (members : List (List UInt8 × List UInt8)) :
    (members.map fun member =>
      member.2.length + member.1.length + 2 + (if fmt then 2 + depth else 0)).sum ≤
        2 * (memberLoop fmt depth members).length := by
  induction members with
  | nil => simp
  | cons member members ih =>
      simp only [memberLoop, List.length_append, List.length_cons, List.map_cons, List.sum_cons,
        tabs_length]
      split_ifs at ih ⊢ <;> omega

theorem arraySize_le (fmt : Bool) (entries : List (List UInt8)) :
    arraySize fmt entries ≤ 2 * (arrayText fmt entries).length + 64 := by
  have loop := entryLoop_double fmt entries
  simp only [arraySize, arrayText, List.length_append, List.length_cons]
  omega

theorem objectSize_le (fmt : Bool) (depth : Nat) (members : List (List UInt8 × List UInt8)) :
    objectSize fmt depth members ≤ 2 * (objectText fmt depth members).length + 64 := by
  have loop := memberLoop_double fmt depth members
  simp only [objectSize, objectText, List.length_append, List.length_cons, tabs_length]
  split_ifs at loop ⊢ <;> omega

theorem emptyObject_size (fmt : Bool) (depth : Nat) :
    (if fmt then depth + 4 else 3) ≤ (emptyObjectText fmt depth).length + 2 := by
  simp only [emptyObjectText, List.length_append, List.length_cons, List.length_nil, tabs_length,
    lineEnd_length]
  split_ifs <;> omega

theorem entrySizes_le {f : Doubles D} {fmt : Bool} {depth : Nat} {items : List (Item D)}
    (all : ∀ item ∈ items, ∀ size ∈ mallocSizes f fmt depth item,
      size ≤ 2 * (render f fmt depth item).length + 64) : ∀ size ∈ entrySizes f fmt depth items,
    size ≤ 2 * (entryLoop fmt (renderEntries f fmt depth items)).length + 64 := by
  induction items with
  | nil => simp [entrySizes]
  | cons item items ih =>
      intro size listed
      rw [entrySizes] at listed
      rw [renderEntries, entryLoop, List.length_append, List.length_append]
      rcases List.mem_append.mp listed with here | later
      · have := all item List.mem_cons_self size here
        omega
      · have := ih (fun other member => all other (List.mem_cons_of_mem item member)) size later
        omega

theorem memberSizes_le {f : Doubles D} {fmt : Bool} {depth : Nat}
    {items : List (CString × Item D)} (all : ∀ item ∈ items,
      ∀ size ∈ mallocSizes f fmt depth item.2,
        size ≤ 2 * (render f fmt depth item.2).length + 64) :
    ∀ size ∈ memberSizes f fmt depth items,
      size ≤ 2 * (memberLoop fmt depth (renderMembers f fmt depth items)).length + 64 := by
  induction items with
  | nil => simp [memberSizes]
  | cons item items ih =>
      intro size listed
      rw [memberSizes] at listed
      rw [renderMembers]
      simp only [memberLoop, List.length_append, List.length_cons]
      rcases List.mem_append.mp listed with here | later
      · rcases List.mem_cons.mp here with rfl | here
        · rw [stringText_size]
          omega
        · have := all item List.mem_cons_self size here
          omega
      · have := ih (fun other member => all other (List.mem_cons_of_mem item member)) size later
        omega

/-- What is allocated for a tree is bounded by the length of its text. -/
theorem mallocSizes_le (f : Doubles D) (fmt : Bool) (depth : Nat) (item : Item D) :
    ∀ size ∈ mallocSizes f fmt depth item, size ≤ 2 * (render f fmt depth item).length + 64 := by
  induction item generalizing depth with
  | literal type =>
      rw [mallocSizes, render, List.forall_mem_singleton]
      omega
  | number valueint valuedouble =>
      have size := numberText_size f valueint valuedouble
      rw [mallocSizes, List.forall_mem_singleton]
      omega
  | text valuestring =>
      rw [mallocSizes, render, List.forall_mem_singleton, stringText_size]
      omega
  | array child all =>
      rw [mallocSizes, render]
      split_ifs
      · rw [List.forall_mem_singleton]
        omega
      · rw [List.forall_mem_cons]
        refine ⟨arraySize_le fmt _, fun size listed => ?_⟩
        have inside := entrySizes_le (fun item member => all item member (depth + 1)) size listed
        simp only [arrayText, List.length_append, List.length_cons]
        omega
  | object child all =>
      rw [mallocSizes, render]
      by_cases empty : child.isEmpty
      · have size := emptyObject_size fmt depth
        rw [if_pos empty, if_pos empty, List.forall_mem_singleton]
        omega
      · rw [if_neg empty, if_neg empty]
        rw [List.forall_mem_cons]
        refine ⟨objectSize_le fmt (depth + 1) _, fun size listed => ?_⟩
        have inside := memberSizes_le (fun item member => all item member (depth + 1)) size listed
        simp only [objectText, List.length_append, List.length_cons]
        omega

theorem printText_eq {f : Doubles D} (numbers : ShortNumbers f) {item : Item D}
    (short : Short f item) (fmt : Bool) : printText f fmt item = some (render f fmt 0 item) := by
  have ints : ∀ size ∈ mallocSizes f fmt 0 item, size < 2 ^ 31 := by
    intro size listed
    have within := mallocSizes_le f fmt 0 item size listed
    have bound := short fmt
    omega
  rw [printText, if_pos ints, printValue_eq numbers]

end KongjaExpress.Json
