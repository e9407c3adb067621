import KongjaExpress.Utils.JsonItem

/-! The parser of `cJSON.c`, with a `malloc` that succeeds. A pointer into a text is what its
buffer holds from there to the buffer's end, so that no byte can be read behind it. -/

namespace KongjaExpress.Json

open Utils

inductive Failure
  /-- A null pointer is returned, and `ep` points here. -/
  | refused (ep : List UInt8)
  /-- A byte outside of a buffer is read or written, or a count is no `int`. -/
  | overrun
  /-- The fuel is used up. -/
  | unfinished
  deriving DecidableEq, Repr

def peek : List UInt8 → Except Failure UInt8
  | [] => .error .overrun
  | b :: _ => .ok b

def quote : UInt8 := 0x22
def backslash : UInt8 := 0x5c
def comma : UInt8 := 0x2c
def colon : UInt8 := 0x3a
def minus : UInt8 := 0x2d
def point : UInt8 := 0x2e
def leftBracket : UInt8 := 0x5b
def rightBracket : UInt8 := 0x5d
def leftBrace : UInt8 := 0x7b
def rightBrace : UInt8 := 0x7d

/-- `strncmp(p, word, strlen(word)) == 0`: it reads up to the first difference. -/
def startsWith : List UInt8 → List UInt8 → Except Failure Bool
  | [], _ => .ok true
  | _ :: _, [] => .error .overrun
  | w :: word, b :: p => if b = w then startsWith word p else .ok false

def skip : List UInt8 → Except Failure (List UInt8)
  | [] => .error .overrun
  | b :: p => if b ≠ 0 ∧ b ≤ 32 then skip p else .ok (b :: p)

variable {D : Type}

def isDigit (b : UInt8) : Bool := 0x30 ≤ b && b ≤ 0x39

def digitOf (b : UInt8) : Int := b.toNat - 0x30

/-- A loop over digits that updates `a` with each of them. -/
def digitsWhile {A : Type} (update : A → Int → A) :
    A → List UInt8 → Except Failure (A × List UInt8)
  | _, [] => .error .overrun
  | a, b :: p =>
      if isDigit b then digitsWhile update (update a (digitOf b)) p else .ok (a, b :: p)

def parseFraction (f : Doubles D) (n : D) (num : List UInt8) :
    Except Failure ((D × D) × List UInt8) := do
  let b ← peek num
  if b = point then
    let next ← peek num.tail
    if isDigit next then
      digitsWhile (fun (n, scale) digit =>
        (f.add (f.mul n (f.ofInt 10)) (f.ofInt digit), f.sub scale (f.ofInt 1)))
        (n, f.ofInt 0) num.tail
    else return ((n, f.ofInt 0), num)
  else return ((n, f.ofInt 0), num)

/-- `signsubscale`. -/
def exponentSign (num : List UInt8) : Except Failure (BitVec 32 × List UInt8) := do
  let b ← peek num
  if b = 0x2b then return (1, num.tail)
  else if b = minus then return (-1, num.tail)
  else return (1, num)

/-- `subscale * signsubscale`. -/
def parseExponent (num : List UInt8) : Except Failure (BitVec 32 × List UInt8) := do
  let b ← peek num
  if b = 0x65 ∨ b = 0x45 then
    let (signsubscale, num) ← exponentSign num.tail
    let (subscale, num) ←
      digitsWhile (fun subscale digit => subscale * 10 + BitVec.ofInt 32 digit) (0 : BitVec 32) num
    return (subscale * signsubscale, num)
  else return (0, num)

def numberSign (f : Doubles D) (num : List UInt8) : Except Failure (D × List UInt8) := do
  let b ← peek num
  if b = minus then return (f.ofInt (-1), num.tail) else return (f.ofInt 1, num)

/-- The digits before the point: none, a zero, or more behind a first that may be a zero. -/
def parseInteger (f : Doubles D) (num : List UInt8) : Except Failure (D × List UInt8) := do
  let b ← peek num
  let num := if b = 0x30 then num.tail else num
  let b ← peek num
  if 0x31 ≤ b ∧ b ≤ 0x39 then
    digitsWhile (fun n digit => f.add (f.mul n (f.ofInt 10)) (f.ofInt digit)) (f.ofInt 0) num
  else return (f.ofInt 0, num)

def parseNumber (f : Doubles D) (num : List UInt8) : Except Failure (Item D × List UInt8) := do
  let (sign, num) ← numberSign f num
  let (n, num) ← parseInteger f num
  let ((n, scale), num) ← parseFraction f n num
  let (subscale, num) ← parseExponent num
  let n := f.mul (f.mul sign n) (f.pow (f.ofInt 10) (f.add scale (f.ofInt subscale.toInt)))
  return (.number (f.toInt n) n, num)

def hexDigit (b : UInt8) : Option UInt32 :=
  if 0x30 ≤ b ∧ b ≤ 0x39 then some (b - 0x30).toUInt32
  else if 0x41 ≤ b ∧ b ≤ 0x46 then some ((b - 0x41).toUInt32 + 10)
  else if 0x61 ≤ b ∧ b ≤ 0x66 then some ((b - 0x61).toUInt32 + 10)
  else none

/-- The digits of `parse_hex4` that are still to come. -/
def parseHexDigits : Nat → UInt32 → List UInt8 → Except Failure UInt32
  | 0, h, _ => .ok h
  | n + 1, h, str => do
      match hexDigit (← peek str) with
      | some digit => parseHexDigits n (h <<< (4 : UInt32) + digit) str.tail
      | none => return 0

def parseHex4 (str : List UInt8) : Except Failure UInt32 := parseHexDigits 4 0 str

/-- The bytes that are stored for a code point: the switch on `len`. -/
def utf8 (uc : UInt32) : List UInt8 :=
  let last (uc : UInt32) : UInt8 := ((uc ||| 0x80) &&& 0xbf).toUInt8
  if uc < 0x80 then [uc.toUInt8]
  else if uc < 0x800 then [(uc >>> 6 ||| 0xc0).toUInt8, last uc]
  else if uc < 0x10000 then [(uc >>> 12 ||| 0xe0).toUInt8, last (uc >>> 6), last uc]
  else [(uc >>> 18 ||| 0xf0).toUInt8, last (uc >>> 12), last (uc >>> 6), last uc]

/-- A surrogate and the second half that is to follow it, with the pointer at its last digit. -/
def unescapePair (uc : UInt32) (ptr : List UInt8) : Except Failure (List UInt8 × List UInt8) := do
  if (← peek (ptr.drop 1)) ≠ backslash then return ([], ptr)
  else if (← peek (ptr.drop 2)) ≠ 0x75 then return ([], ptr)
  else
    let uc2 ← parseHex4 (ptr.drop 3)
    let ptr := ptr.drop 6
    if uc2 < 0xdc00 ∨ 0xdfff < uc2 then return ([], ptr)
    else return (utf8 (0x10000 + ((uc &&& 0x3ff) <<< (10 : UInt32) ||| (uc2 &&& 0x3ff))), ptr)

/-- `case 'u'`, with the pointer at the letter: the bytes that are stored, and the pointer. -/
def unescapeUnicode (ptr : List UInt8) : Except Failure (List UInt8 × List UInt8) := do
  let uc ← parseHex4 ptr.tail
  let ptr := ptr.drop 4
  if (0xdc00 ≤ uc ∧ uc ≤ 0xdfff) ∨ uc = 0 then return ([], ptr)
  else if 0xd800 ≤ uc ∧ uc ≤ 0xdbff then unescapePair uc ptr
  else return (utf8 uc, ptr)

def unescape (ptr : List UInt8) : Except Failure (List UInt8 × List UInt8) := do
  let b ← peek ptr
  let (stored, ptr) ←
    if b = 0x62 then pure ([0x08], ptr)
    else if b = 0x66 then pure ([0x0c], ptr)
    else if b = 0x6e then pure ([0x0a], ptr)
    else if b = 0x72 then pure ([0x0d], ptr)
    else if b = 0x74 then pure ([0x09], ptr)
    else if b = 0x75 then unescapeUnicode ptr
    else pure ([b], ptr)
  return (stored, ptr.tail)

/-- The first loop of `parse_string`, which counts `len`. -/
def stringLen : Nat → List UInt8 → Except Failure Nat
  | _, [] => .error .overrun
  | len, b :: ptr =>
      if b = quote ∨ b = 0 then .ok len
      else if b = backslash then
        match ptr with
        | [] => .error .overrun
        | _ :: ptr => stringLen (len + 1) ptr
      else stringLen (len + 1) ptr

/-- `out`, of `size` bytes, behind a store of `stored`. -/
def store (size : Nat) (out stored : List UInt8) : Except Failure (List UInt8) :=
  if out.length + stored.length ≤ size then .ok (out ++ stored) else .error .overrun

/-- The second loop, which copies to `out`. -/
def copyString (size : Nat) : Nat → List UInt8 → List UInt8 →
    Except Failure (List UInt8 × List UInt8)
  | 0, _, _ => .error .unfinished
  | fuel + 1, out, ptr => do
      let b ← peek ptr
      if b = quote ∨ b = 0 then return (out, ptr)
      else if b ≠ backslash then
        copyString size fuel (← store size out [b]) ptr.tail
      else
        let (stored, ptr) ← unescape ptr.tail
        copyString size fuel (← store size out stored) ptr

/-- `parse_string`: `valuestring` and the pointer behind the text. -/
def parseString (str : List UInt8) : Except Failure (CString × List UInt8) := do
  if (← peek str) ≠ quote then throw (.refused str)
  let len ← stringLen 0 str.tail
  if 2 ^ 31 ≤ len + 1 then throw .overrun
  let (out, ptr) ← copyString (len + 1) str.length [] str.tail
  let out ← store (len + 1) out [0]
  let ptr := if (← peek ptr) = quote then ptr.tail else ptr
  return (.ofMemory out, ptr)

/-- The loop of `parse_array` behind its first item. -/
def arrayItems (value : List UInt8 → Except Failure (Item D × List UInt8)) :
    Nat → List UInt8 → Except Failure (List (Item D) × List UInt8)
  | 0, _ => .error .unfinished
  | fuel + 1, p => do
      if (← peek p) = comma then
        let (item, p) ← value (← skip p.tail)
        let (items, p) ← arrayItems value fuel (← skip p)
        return (item :: items, p)
      else return ([], p)

/-- `parse_array`, with `parse_value` for its items. -/
def parseArray (value : List UInt8 → Except Failure (Item D × List UInt8)) (p : List UInt8) :
    Except Failure (Item D × List UInt8) := do
  if (← peek p) ≠ leftBracket then throw (.refused p)
  let p ← skip p.tail
  if (← peek p) = rightBracket then return (.array [], p.tail)
  let (item, p) ← value (← skip p)
  let (items, p) ← arrayItems value p.length (← skip p)
  if (← peek p) = rightBracket then return (.array (item :: items), p.tail)
  throw (.refused p)

def parseMember (value : List UInt8 → Except Failure (Item D × List UInt8)) (p : List UInt8) :
    Except Failure ((CString × Item D) × List UInt8) := do
  let (string, p) ← parseString (← skip p)
  let p ← skip p
  if (← peek p) ≠ colon then throw (.refused p)
  let (item, p) ← value (← skip p.tail)
  return ((string, item), ← skip p)

/-- The loop of `parse_object` behind its first item. -/
def objectItems (value : List UInt8 → Except Failure (Item D × List UInt8)) :
    Nat → List UInt8 → Except Failure (List (CString × Item D) × List UInt8)
  | 0, _ => .error .unfinished
  | fuel + 1, p => do
      if (← peek p) = comma then
        let (item, p) ← parseMember value p.tail
        let (items, p) ← objectItems value fuel p
        return (item :: items, p)
      else return ([], p)

def parseObject (value : List UInt8 → Except Failure (Item D × List UInt8)) (p : List UInt8) :
    Except Failure (Item D × List UInt8) := do
  if (← peek p) ≠ leftBrace then throw (.refused p)
  let p ← skip p.tail
  if (← peek p) = rightBrace then return (.object [], p.tail)
  let (item, p) ← parseMember value p
  let (items, p) ← objectItems value p.length p
  if (← peek p) = rightBrace then return (.object (item :: items), p.tail)
  throw (.refused p)

def nullWord : List UInt8 := [0x6e, 0x75, 0x6c, 0x6c]
def falseWord : List UInt8 := [0x66, 0x61, 0x6c, 0x73, 0x65]
def trueWord : List UInt8 := [0x74, 0x72, 0x75, 0x65]

/-- `parse_value`; the fuel bounds the nesting of arrays and objects. -/
def parseValue (f : Doubles D) : Nat → List UInt8 → Except Failure (Item D × List UInt8)
  | 0, _ => .error .unfinished
  | fuel + 1, p => do
      if ← startsWith nullWord p then return (.literal .cJSONNull, p.drop 4)
      if ← startsWith falseWord p then return (.literal .cJSONFalse, p.drop 5)
      if ← startsWith trueWord p then return (.literal .cJSONTrue, p.drop 4)
      let b ← peek p
      if b = quote then
        let (string, p) ← parseString p
        return (.text string, p)
      if b = minus ∨ isDigit b then parseNumber f p
      else if b = leftBracket then parseArray (parseValue f fuel) p
      else if b = leftBrace then parseObject (parseValue f fuel) p
      else throw (.refused p)

/-- `cJSON_ParseWithOpts`: the item, and the pointer stored through `return_parse_end`. -/
def cJSONParseWithOpts (f : Doubles D) (value : List UInt8) (requireNullTerminated : Bool) :
    Except Failure (Item D × List UInt8) := do
  let (item, ending) ← parseValue f (value.length + 1) (← skip value)
  if requireNullTerminated then
    let ending ← skip ending
    if (← peek ending) ≠ 0 then throw (.refused ending)
    return (item, ending)
  return (item, ending)

def cJSONParse (f : Doubles D) (value : List UInt8) : Except Failure (Item D) :=
  (·.1) <$> cJSONParseWithOpts f value false

end KongjaExpress.Json
