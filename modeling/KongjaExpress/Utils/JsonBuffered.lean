import KongjaExpress.Utils.JsonRoundTrip

/-! The printer of `cJSON.c` with a print buffer, which grows while the texts are written behind
one another. -/

namespace KongjaExpress.Json

open Utils

variable {D : Type} {f : Doubles D}

/-- `printbuffer`: `buffer` is the memory of `length` bytes. -/
structure PrintBuffer where
  buffer : List UInt8
  offset : Nat

def pow2gt (x : Nat) : Nat :=
  let x := x - 1
  let x := x ||| x >>> 1
  let x := x ||| x >>> 2
  let x := x ||| x >>> 4
  let x := x ||| x >>> 8
  let x := x ||| x >>> 16
  x + 1

/-- Memory as `malloc` returns it, with whatever is in it. -/
abbrev Heap := (size : Nat) → Vector UInt8 size

/-- `none` is a size that is no `int`. -/
def ensure (heap : Heap) (p : PrintBuffer) (needed : Nat) : Option PrintBuffer :=
  let needed := needed + p.offset
  if needed ≤ p.buffer.length then some p
  else
    let newsize := pow2gt needed
    if newsize < 2 ^ 31 then
      some { p with buffer := p.buffer ++ (heap newsize).toList.drop p.buffer.length }
    else none

/-- Bytes written at the offset; `none` is a store behind the buffer. -/
def writeAt (bytes : List UInt8) (p : PrintBuffer) : Option PrintBuffer :=
  if p.offset + bytes.length ≤ p.buffer.length then
    some { p with buffer := p.buffer.take p.offset ++ bytes ++
                    p.buffer.drop (p.offset + bytes.length) }
  else none

/-- `ensure`, and bytes written to the memory it returns. -/
def put (heap : Heap) (size : Nat) (bytes : List UInt8) (p : PrintBuffer) : Option PrintBuffer :=
  (ensure heap p size).bind (writeAt bytes)

def PrintBuffer.advance (p : PrintBuffer) (len : Nat) : PrintBuffer :=
  { p with offset := p.offset + len }

/-- The offset behind the string at the offset; `none` is a search that leaves the buffer. -/
def update (p : PrintBuffer) : Option PrintBuffer :=
  if 0 ∈ p.buffer.drop p.offset then
    some (p.advance ((p.buffer.drop p.offset).takeWhile (· ≠ 0)).length)
  else none

def indent (heap : Heap) (fmt : Bool) (depth : Nat) (p : PrintBuffer) : Option PrintBuffer :=
  if fmt then (·.advance depth) <$> put heap depth (tabs fmt depth) p else some p

mutual

/-- `print_value` with a buffer: the buffer, and the index of the text it returns. -/
def printValueBuffered (heap : Heap) (f : Doubles D) (fmt : Bool) :
    Nat → Item D → PrintBuffer → Option (PrintBuffer × Nat)
  | _, .literal type, p => do
      let text := literalText type
      return (← put heap (text.length + 1) (text ++ [0]) p, p.offset)
  | _, .number valueint d, p => do
      let (size, text) := numberText f valueint d
      return (← put heap size (text ++ [0]) p, p.offset)
  | _, .text valuestring, p => do
      let (size, text) := stringText valuestring.bytes
      return (← put heap size (text ++ [0]) p, p.offset)
  | depth, .array child, p =>
      if child.isEmpty then do
        return (← put heap 3 [leftBracket, rightBracket, 0] p, p.offset)
      else do
        let start ← put heap 1 [leftBracket] p
        let inside ← printEntriesBuffered heap f fmt (depth + 1) child (start.advance 1)
        return (← put heap 2 [rightBracket, 0] inside, p.offset)
  | depth, .object child, p =>
      if child.isEmpty then do
        let size := if fmt then depth + 4 else 3
        return (← put heap size (emptyObjectText fmt depth ++ [0]) p, p.offset)
      else do
        let len := if fmt then 2 else 1
        let start ← put heap (len + 1) (leftBrace :: lineEnd fmt ++ [0]) p
        let inside ← printMembersBuffered heap f fmt (depth + 1) child (start.advance len)
        let size := if fmt then depth + 2 else 2
        let last ← put heap size (tabs fmt depth ++ [rightBrace, 0]) inside
        -- the loop over the tabs counts in the variable that held the offset
        return (last, if fmt then depth else p.offset)

def printEntriesBuffered (heap : Heap) (f : Doubles D) (fmt : Bool) :
    Nat → List (Item D) → PrintBuffer → Option PrintBuffer
  | _, [], p => some p
  | depth, item :: items, p => do
      let (p, _) ← printValueBuffered heap f fmt depth item p
      let p ← update p
      if items.isEmpty then return p
      else
        let len := if fmt then 2 else 1
        let p ← put heap (len + 1) (separator fmt ++ [0]) p
        printEntriesBuffered heap f fmt depth items (p.advance len)

def printMembersBuffered (heap : Heap) (f : Doubles D) (fmt : Bool) :
    Nat → List (CString × Item D) → PrintBuffer → Option PrintBuffer
  | _, [], p => some p
  | depth, (string, item) :: items, p => do
      let p ← indent heap fmt depth p
      let (size, text) := stringText string.bytes
      let p ← update (← put heap size (text ++ [0]) p)
      let len := if fmt then 2 else 1
      let p := (← put heap len (colon :: tabs fmt 1) p).advance len
      let (p, _) ← printValueBuffered heap f fmt depth item p
      let p ← update p
      let len := fmt.toNat + (!items.isEmpty).toNat
      let p ← put heap (len + 1)
        ((if items.isEmpty then [] else [comma]) ++ lineEnd fmt ++ [0]) p
      printMembersBuffered heap f fmt depth items (p.advance len)

end

/-- `cJSON_PrintBuffered`: the string at the pointer it returns. -/
def cJSONPrintBuffered (heap : Heap) (f : Doubles D) (item : Item D) (prebuffer : Nat)
    (fmt : Bool) : Option CString := do
  let (p, out) ← printValueBuffered heap f fmt 0 item ⟨(heap prebuffer).toList, 0⟩
  if 0 ∈ p.buffer.drop out then return .ofMemory (p.buffer.drop out) else none

def PrintBuffer.contents (p : PrintBuffer) : List UInt8 := p.buffer.take p.offset

def PrintBuffer.Within (p : PrintBuffer) : Prop := p.offset ≤ p.buffer.length

theorem contents_length {p : PrintBuffer} (within : p.Within) : p.contents.length = p.offset := by
  rw [PrintBuffer.contents, List.length_take]
  exact Nat.min_eq_left within

structure Filled (p q : PrintBuffer) (text : List UInt8) : Prop where
  within : q.Within
  contents : q.contents = p.contents ++ text
  offset : q.offset = p.offset + text.length

structure Printed (p q : PrintBuffer) (text : List UInt8) : Prop where
  written : ∃ tail, q.buffer = p.contents ++ (text ++ 0 :: tail)
  lower : p.offset ≤ q.offset
  upper : q.offset ≤ p.offset + text.length

theorem Filled.refl {p : PrintBuffer} (within : p.Within) : Filled p p [] :=
  ⟨within, (List.append_nil _).symm, rfl⟩

theorem Filled.trans {p q r : PrintBuffer} {front back : List UInt8} (first : Filled p q front)
    (second : Filled q r back) : Filled p r (front ++ back) where
  within := second.within
  contents := by rw [second.contents, first.contents, List.append_assoc]
  offset := by rw [second.offset, first.offset, List.length_append, Nat.add_assoc]

theorem Filled.printed {p q r : PrintBuffer} {front back : List UInt8} (first : Filled p q front)
    (second : Printed q r back) : Printed p r (front ++ back) where
  written := by
    rcases second.written with ⟨tail, written⟩
    exact ⟨tail, by rw [written, first.contents, List.append_assoc, List.append_assoc]⟩
  lower := by
    have := second.lower
    have := first.offset
    omega
  upper := by
    have := second.upper
    have := first.offset
    rw [List.length_append]
    omega

theorem le_pow2gt {x : Nat} : x ≤ pow2gt x := by
  have first : x - 1 ≤ pow2gt x - 1 := by
    simp only [pow2gt, Nat.add_sub_cancel]
    exact ((((Nat.left_le_or.trans Nat.left_le_or).trans Nat.left_le_or).trans
      Nat.left_le_or).trans Nat.left_le_or)
  have positive : 0 < pow2gt x := Nat.succ_pos _
  omega

theorem or_shift_lt {x k n : Nat} (bound : x < 2 ^ n) : x ||| x >>> k < 2 ^ n :=
  Nat.or_lt_two_pow bound (Nat.lt_of_le_of_lt (Nat.shiftRight_le x k) bound)

theorem pow2gt_le {x : Nat} (bound : x ≤ 2 ^ 30) : pow2gt x ≤ 2 ^ 30 := by
  have first : x - 1 < 2 ^ 30 := by omega
  exact or_shift_lt (or_shift_lt (or_shift_lt (or_shift_lt (or_shift_lt first))))

theorem ensure_some (heap : Heap) {p : PrintBuffer} {needed : Nat}
    (bound : needed + p.offset ≤ 2 ^ 30) : ∃ more, ensure heap p needed =
      some { p with buffer := p.buffer ++ more } ∧
        needed + p.offset ≤ (p.buffer ++ more).length := by
  rw [ensure]
  by_cases room : needed + p.offset ≤ p.buffer.length
  · refine ⟨[], ?_, ?_⟩
    · rw [if_pos room, List.append_nil]
    · rwa [List.append_nil]
  · have small : pow2gt (needed + p.offset) < 2 ^ 31 :=
      Nat.lt_of_le_of_lt (pow2gt_le bound) (by decide)
    refine ⟨_, by rw [if_neg room, if_pos small], ?_⟩
    have enough := @le_pow2gt (needed + p.offset)
    rw [List.length_append, List.length_drop, Vector.length_toList]
    omega

theorem put_some (heap : Heap) {p : PrintBuffer} {size : Nat} (bytes : List UInt8)
    (within : p.Within) (fits : bytes.length ≤ size) (bound : size + p.offset ≤ 2 ^ 30) :
    ∃ tail, put heap size bytes p = some ⟨p.contents ++ (bytes ++ tail), p.offset⟩ := by
  rcases ensure_some heap bound with ⟨more, grown, room⟩
  have inside : p.offset + bytes.length ≤ (p.buffer ++ more).length := by omega
  refine ⟨(p.buffer ++ more).drop (p.offset + bytes.length), ?_⟩
  rw [put, grown, Option.bind_some, writeAt, if_pos inside, PrintBuffer.contents,
    List.take_append_of_le_length within, List.append_assoc]

theorem put_printed (heap : Heap) {p : PrintBuffer} (size : Nat) (text : List UInt8)
    (within : p.Within) (fits : text.length + 1 ≤ size) (bound : size + p.offset ≤ 2 ^ 30) :
    ∃ q, put heap size (text ++ [0]) p = some q ∧ Printed p q text := by
  rcases put_some heap (text ++ [0]) within (by simpa using fits) bound with ⟨tail, done⟩
  refine ⟨_, done, ⟨tail, ?_⟩, le_rfl, Nat.le_add_right _ _⟩
  simp

theorem put_filled (heap : Heap) {p : PrintBuffer} (size len : Nat) (text more : List UInt8)
    (within : p.Within) (length : text.length = len) (fits : (text ++ more).length ≤ size)
    (bound : size + p.offset ≤ 2 ^ 30) :
    ∃ q, put heap size (text ++ more) p = some q ∧ Filled p (q.advance len) text := by
  rcases put_some heap _ within fits bound with ⟨tail, done⟩
  have size' := contents_length within
  subst length
  refine ⟨_, done, ?_, ?_, rfl⟩
  · change p.offset + text.length ≤ (p.contents ++ (text ++ more ++ tail)).length
    simp only [List.length_append]
    omega
  · change (p.contents ++ (text ++ more ++ tail)).take (p.offset + text.length) = _
    rw [List.append_assoc, ← List.append_assoc, ← size', ← List.length_append,
      List.take_left]

/-- `update` finds the end of what was written last. -/
theorem Printed.update {p q : PrintBuffer} {text : List UInt8} (printed : Printed p q text)
    (within : p.Within) (nonzero : 0 ∉ text) : ∃ r, update q = some r ∧ Filled p r text := by
  rcases printed with ⟨⟨tail, written⟩, lower, upper⟩
  have size := contents_length within
  rcases Nat.exists_eq_add_of_le lower with ⟨k, passed⟩
  have rest : q.buffer.drop q.offset = text.drop k ++ 0 :: tail := by
    rw [written, passed, ← size, List.drop_length_add_append,
      List.drop_append_of_le_length (by omega)]
  have clean : 0 ∉ text.drop k := fun member => nonzero (List.mem_of_mem_drop member)
  have found : (text.drop k ++ 0 :: tail).takeWhile (· ≠ 0) = text.drop k :=
    congrArg CString.bytes (CString.ofMemory_bytes ⟨text.drop k, clean⟩ tail)
  refine ⟨q.advance (text.drop k).length, ?_, ?_, ?_, ?_⟩
  · rw [Json.update, rest, if_pos (by simp), found]
  · change q.offset + (text.drop k).length ≤ q.buffer.length
    rw [written, List.length_drop, List.length_append, List.length_append, List.length_cons]
    omega
  · have ends : q.offset + (text.drop k).length = p.contents.length + text.length := by
      rw [List.length_drop]
      omega
    change q.buffer.take (q.offset + (text.drop k).length) = _
    rw [ends, written, List.take_length_add_append, List.take_left]
  · change q.offset + (text.drop k).length = _
    rw [List.length_drop]
    omega

/-- What `print_value` does to a buffer that has room to grow: it writes the item's text behind
what is there. The index it returns is the old offset, or for an object its depth. -/
def PrintsBuffered (heap : Heap) (f : Doubles D) (fmt : Bool) (item : Item D) : Prop :=
  ∀ depth p, p.Within → p.offset + (render f fmt depth item).length + 64 ≤ 2 ^ 30 →
    ∃ q out, printValueBuffered heap f fmt depth item p = some (q, out) ∧
      Printed p q (render f fmt depth item) ∧ (out = p.offset ∨ out = depth)

theorem separator_size (fmt : Bool) : (separator fmt).length = if fmt then 2 else 1 := by
  cases fmt <;> rfl

theorem printEntriesBuffered_some (heap : Heap) {fmt : Bool} {items : List (Item D)} (depth : Nat)
    (all : ∀ item ∈ items, PrintsBuffered heap f fmt item) {p : PrintBuffer} (within : p.Within)
    (bound : p.offset + (entryLoop fmt (renderEntries f fmt depth items)).length + 64 ≤ 2 ^ 30) :
    ∃ q, printEntriesBuffered heap f fmt depth items p = some q ∧
      Filled p q (entryLoop fmt (renderEntries f fmt depth items)) := by
  induction items generalizing p with
  | nil =>
      refine ⟨p, by rw [printEntriesBuffered], ?_⟩
      rw [renderEntries]
      exact .refl within
  | cons item items ih =>
      have others : ∀ other ∈ items, PrintsBuffered heap f fmt other :=
        fun other member => all other (List.mem_cons_of_mem item member)
      rw [renderEntries, entryLoop, List.length_append, List.length_append] at bound
      rcases all item List.mem_cons_self depth p within (by omega) with
        ⟨q, out, printed, text, -⟩
      rcases text.update within (render_nonzero fmt depth item) with ⟨r, updated, filled⟩
      rw [printEntriesBuffered, renderEntries, entryLoop]
      simp only [Option.bind_eq_bind, printed, Option.bind_some, updated]
      cases items with
      | nil =>
          refine ⟨r, rfl, ?_⟩
          rw [renderEntries]
          simpa [entryLoop] using filled
      | cons next items =>
          have more : (renderEntries f fmt depth (next :: items)).isEmpty = false := by
            rw [renderEntries]
            rfl
          rw [more, if_neg Bool.false_ne_true] at bound ⊢
          have length := separator_size fmt
          have offset := filled.offset
          rcases put_filled heap ((if fmt then 2 else 1) + 1) _ _ [0] filled.within length
            (by simp [length]) (by split_ifs <;> omega) with ⟨s, written, separated⟩
          have front := filled.trans separated
          have end' := front.offset
          rw [List.length_append] at end'
          rcases ih others separated.within (by omega) with ⟨last, rest, behind⟩
          refine ⟨last, ?_, front.trans behind⟩
          change (put heap _ _ r).bind _ = _
          rw [written]
          exact rest

theorem indent_some (heap : Heap) {p : PrintBuffer} (within : p.Within) (fmt : Bool) (depth : Nat)
    (bound : p.offset + (tabs fmt depth).length ≤ 2 ^ 30) :
    ∃ q, indent heap fmt depth p = some q ∧ Filled p q (tabs fmt depth) := by
  cases fmt with
  | false => exact ⟨p, rfl, .refl within⟩
  | true =>
      rw [tabs_length, if_pos rfl] at bound
      rcases put_filled heap depth depth (tabs true depth) [] within (by simp) (by simp)
        (by omega) with ⟨q, written, filled⟩
      rw [List.append_nil] at written
      refine ⟨_, ?_, filled⟩
      rw [indent, if_pos rfl, written]
      rfl

theorem printMembersBuffered_some (heap : Heap) {fmt : Bool} {items : List (CString × Item D)}
    (depth : Nat) (all : ∀ item ∈ items, PrintsBuffered heap f fmt item.2) {p : PrintBuffer}
    (within : p.Within) (bound : p.offset +
      (memberLoop fmt depth (renderMembers f fmt depth items)).length + 64 ≤ 2 ^ 30) :
    ∃ q, printMembersBuffered heap f fmt depth items p = some q ∧
      Filled p q (memberLoop fmt depth (renderMembers f fmt depth items)) := by
  induction items generalizing p with
  | nil =>
      refine ⟨p, by rw [printMembersBuffered], ?_⟩
      rw [renderMembers]
      exact .refl within
  | cons item items ih =>
      have others : ∀ other ∈ items, PrintsBuffered heap f fmt other.2 :=
        fun other member => all other (List.mem_cons_of_mem item member)
      rcases item with ⟨string, item⟩
      have empty : (renderMembers f fmt depth items).isEmpty = items.isEmpty := by
        rw [renderMembers_eq, List.isEmpty_map]
      rw [renderMembers, memberLoop, empty] at bound ⊢
      simp only [List.length_append, List.length_cons] at bound
      -- the tabs before the name
      rcases indent_some heap within fmt depth (by omega) with
        ⟨p₁, written₁, filled₁⟩
      have offset₁ := filled₁.offset
      -- the name
      have size := stringText_size string.bytes
      rcases put_printed heap (stringText string.bytes).1 (stringText string.bytes).2
        filled₁.within (by omega) (by omega) with ⟨p₂, written₂, name⟩
      rcases name.update filled₁.within (stringText_nonzero string) with ⟨p₃, updated₃, filled₃⟩
      have offset₃ := filled₃.offset
      -- the colon
      have length : (colon :: tabs fmt 1).length = if fmt then 2 else 1 := by
        cases fmt <;> rfl
      rw [List.length_cons] at length
      rcases put_filled heap (if fmt then 2 else 1) (if fmt then 2 else 1)
        (colon :: tabs fmt 1) [] filled₃.within (by rw [List.length_cons, length])
        (by rw [List.append_nil, List.length_cons, length]) (by split_ifs <;> omega) with
        ⟨p₄, written₄, filled₄⟩
      rw [List.append_nil] at written₄
      have offset₄ := filled₄.offset
      rw [List.length_cons] at offset₄
      -- the value
      have here : PrintsBuffered heap f fmt item := all (string, item) List.mem_cons_self
      rcases here depth _ filled₄.within (by omega) with ⟨p₅, out, written₅, value, -⟩
      rcases value.update filled₄.within (render_nonzero fmt depth item) with
        ⟨p₆, updated₆, filled₆⟩
      have offset₆ := filled₆.offset
      -- the comma and the end of the line
      have separated : ((if items.isEmpty then [] else [comma]) ++ lineEnd fmt).length =
          fmt.toNat + (!items.isEmpty).toNat := by
        cases fmt <;> cases items.isEmpty <;> rfl
      rw [List.length_append] at separated
      rcases put_filled heap (fmt.toNat + (!items.isEmpty).toNat + 1)
        (fmt.toNat + (!items.isEmpty).toNat)
        ((if items.isEmpty then [] else [comma]) ++ lineEnd fmt) [0] filled₆.within
        (by rw [List.length_append, separated])
        (by simp only [List.length_append, separated, List.length_cons, List.length_nil]; omega)
        (by omega) with ⟨p₇, written₇, filled₇⟩
      have offset₇ := filled₇.offset
      rw [List.length_append] at offset₇
      rcases ih others filled₇.within (by omega) with ⟨q, rest, filled⟩
      refine ⟨q, ?_, ?_⟩
      · rw [printMembersBuffered]
        simp only [Option.bind_eq_bind, written₁, Option.bind_some, written₂, updated₃, written₄,
          written₅, updated₆, written₇]
        exact rest
      · have front := ((((filled₁.trans filled₃).trans filled₄).trans filled₆).trans filled₇).trans
          filled
        simpa [List.append_assoc] using front

/-- A text and its zero, for which the source asks for `size` bytes at the offset. -/
theorem put_whole (heap : Heap) {p : PrintBuffer} {size : Nat} {text : List UInt8}
    (within : p.Within) (fits : text.length + 1 ≤ size) (bound : size + p.offset ≤ 2 ^ 30) :
    ∃ q, (put heap size (text ++ [0]) p).bind (fun q => some (q, p.offset)) = some (q, p.offset) ∧
      Printed p q text := by
  rcases put_printed heap size text within fits bound with ⟨q, written, printed⟩
  exact ⟨q, by rw [written, Option.bind_some], printed⟩

theorem printsBuffered_array (heap : Heap) {fmt : Bool} {child : List (Item D)}
    (all : ∀ item ∈ child, PrintsBuffered heap f fmt item) :
    PrintsBuffered heap f fmt (.array child) := by
  intro depth p within bound
  rw [render] at bound ⊢
  rw [printValueBuffered]
  by_cases empty : child.isEmpty
  · obtain rfl := List.isEmpty_iff.mp empty
    rcases @put_whole heap p 3 [leftBracket, rightBracket] within (by decide) (by omega) with ⟨q, written, printed⟩
    rw [renderEntries]
    exact ⟨q, p.offset, written, printed, Or.inl rfl⟩
  · rw [if_neg empty]
    simp only [arrayText, List.length_append, List.length_cons] at bound
    rcases put_filled heap 1 1 [leftBracket] [] within rfl (by decide) (by omega) with
      ⟨p₁, written₁, filled₁⟩
    have offset₁ := filled₁.offset
    rw [List.length_singleton] at offset₁
    rcases printEntriesBuffered_some heap (depth + 1) all filled₁.within (by omega) with
      ⟨p₂, written₂, filled₂⟩
    have offset₂ := filled₂.offset
    rcases put_printed heap 2 [rightBracket] filled₂.within (by decide) (by omega) with
      ⟨q, written, printed⟩
    refine ⟨q, p.offset, ?_, (filled₁.trans filled₂).printed printed, Or.inl rfl⟩
    rw [List.append_nil] at written₁
    simp only [Option.bind_eq_bind, written₁, Option.bind_some, written₂]
    change (put heap 2 ([rightBracket] ++ [0]) p₂).bind _ = _
    rw [written]
    rfl

theorem printsBuffered_object (heap : Heap) {fmt : Bool} {child : List (CString × Item D)}
    (all : ∀ item ∈ child, PrintsBuffered heap f fmt item.2) :
    PrintsBuffered heap f fmt (.object child) := by
  intro depth p within bound
  rw [render] at bound ⊢
  rw [printValueBuffered]
  by_cases empty : child.isEmpty
  · rw [if_pos empty] at bound ⊢
    rw [if_pos empty]
    have size := emptyObject_size fmt depth
    rcases put_whole heap within (emptyObjectText_fits fmt depth) (by omega) with
      ⟨q, written, printed⟩
    exact ⟨q, p.offset, written, printed, Or.inl rfl⟩
  · rw [if_neg empty] at bound ⊢
    rw [if_neg empty]
    simp only [objectText, List.length_append, List.length_cons, lineEnd_length, tabs_length,
      Nat.add_sub_cancel] at bound
    have length : (leftBrace :: lineEnd fmt).length = if fmt then 2 else 1 := by
      cases fmt <;> rfl
    rcases put_filled heap ((if fmt then 2 else 1) + 1) (if fmt then 2 else 1)
      (leftBrace :: lineEnd fmt) [0] within length
      (by rw [List.length_append, length]; rfl) (by split_ifs <;> omega) with
      ⟨start, written₁, filled₁⟩
    generalize advanced : start.advance (if fmt then 2 else 1) = p₁ at filled₁
    have offset₁ := filled₁.offset
    rw [length] at offset₁
    rcases printMembersBuffered_some heap (depth + 1) all filled₁.within
      (by split_ifs at bound offset₁ <;> omega) with ⟨p₂, written₂, filled₂⟩
    have offset₂ := filled₂.offset
    rcases put_printed heap (if fmt then depth + 2 else 2) (tabs fmt depth ++ [rightBrace])
      filled₂.within (by cases fmt <;> simp [tabs])
      (by split_ifs at bound offset₁ ⊢ <;> omega) with ⟨q, written, printed⟩
    have whole := (filled₁.trans filled₂).printed printed
    refine ⟨q, if fmt then depth else p.offset, ?_, ?_, ?_⟩
    · simp only [Option.bind_eq_bind, written₁, Option.bind_some, advanced, written₂]
      rw [List.append_assoc] at written
      change (put heap _ (tabs fmt depth ++ ([rightBrace] ++ [0])) p₂).bind _ = _
      rw [written]
      rfl
    · simpa [objectText, List.append_assoc] using whole
    · split_ifs
      · exact Or.inr rfl
      · exact Or.inl rfl

theorem printValueBuffered_some (heap : Heap) (short : ShortNumbers f) (fmt : Bool)
    (item : Item D) : PrintsBuffered heap f fmt item := by
  induction item with
  | literal type =>
      intro depth p within bound
      rw [render] at bound ⊢
      rw [printValueBuffered]
      rcases @put_whole heap p _ (literalText type) within le_rfl (by omega) with
        ⟨q, written, printed⟩
      exact ⟨q, p.offset, written, printed, Or.inl rfl⟩
  | number valueint valuedouble =>
      intro depth p within bound
      rw [render] at bound ⊢
      rw [printValueBuffered]
      have size := numberText_size f valueint valuedouble
      rcases put_whole heap within (numberText_fits short valueint valuedouble) (by omega) with
        ⟨q, written, printed⟩
      exact ⟨q, p.offset, written, printed, Or.inl rfl⟩
  | text valuestring =>
      intro depth p within bound
      rw [render] at bound ⊢
      rw [printValueBuffered]
      have size := stringText_size valuestring.bytes
      rcases put_whole heap within (stringText_fits valuestring.bytes) (by omega) with
        ⟨q, written, printed⟩
      exact ⟨q, p.offset, written, printed, Or.inl rfl⟩
  | array child all => exact printsBuffered_array heap all
  | object child all => exact printsBuffered_object heap all

/-- Both ways of printing give the same text, whatever the size and the contents of the memory that
the buffered one begins with, and neither writes behind the memory it has. -/
theorem cJSONPrintBuffered_eq {f : Doubles D} (short : ShortNumbers f) (fmt : Bool)
    (item : Item D) :
    ∃ text, printValue f fmt 0 item = some text ∧ (text.length + 64 ≤ 2 ^ 30 →
      ∀ heap prebuffer, ∃ printed, cJSONPrintBuffered heap f item prebuffer fmt = some printed ∧
        printed.bytes = text) := by
  refine ⟨render f fmt 0 item, printValue_eq short fmt 0 item, fun small heap prebuffer => ?_⟩
  have room : (⟨(heap prebuffer).toList, 0⟩ : PrintBuffer).Within := Nat.zero_le _
  rcases printValueBuffered_some heap short fmt item 0 _ room (by simpa using small) with
    ⟨q, out, done, printed, index⟩
  have start : out = 0 := index.elim id id
  rcases printed.written with ⟨tail, written⟩
  have whole : q.buffer.drop out = render f fmt 0 item ++ 0 :: tail := by
    rw [start, List.drop_zero, written]
    rfl
  refine ⟨.ofMemory (q.buffer.drop out), ?_, ?_⟩
  · rw [cJSONPrintBuffered, done, Option.bind_eq_bind, Option.bind_some]
    exact if_pos (by rw [whole]; simp)
  · rw [whole]
    exact congrArg CString.bytes
      (CString.ofMemory_bytes ⟨render f fmt 0 item, render_nonzero fmt 0 item⟩ tail)

theorem sampleItem_buffered : ∃ text, printValue wholeDoubles true 0 sampleItem = some text ∧
    (text.length + 64 ≤ 2 ^ 30 → ∀ heap prebuffer,
      ∃ printed, cJSONPrintBuffered heap wholeDoubles sampleItem prebuffer true = some printed ∧
        printed.bytes = text) :=
  cJSONPrintBuffered_eq wholeDoubles_short true sampleItem

end KongjaExpress.Json
