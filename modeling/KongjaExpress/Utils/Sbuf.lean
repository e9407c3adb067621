import KongjaExpress.Library.BigEndian
import KongjaExpress.Library.Memory

/-! The serialisation buffer of `sbuf.c`. `none` is an access outside the buffer. -/

namespace KongjaExpress.Utils

open Memory BigEndian

/-- `sbuf_t`, initialised with a buffer of `len` bytes. -/
structure Sbuf (len : UInt32) where
  buf : Vector UInt8 len.toNat
  dataLen : UInt32
  writeNdx : UInt32
  readNdx : UInt32
  deriving DecidableEq, Repr

variable {len : UInt32}

def sbufIsWritePossible (sbuf : Sbuf len) (count : UInt32) : Bool :=
  sbuf.writeNdx + count < len

def sbufIsReadPossible (sbuf : Sbuf len) (count : UInt32) : Bool :=
  sbuf.readNdx + count < sbuf.dataLen

def sbufInit (buf : Vector UInt8 len.toNat) : Sbuf len := ⟨buf, 0, 0, 0⟩

/-- The loop of `sbuf_read`. -/
def fetchBytes (sbuf : Sbuf len) : Nat → Option (List UInt8 × Sbuf len)
  | 0 => some ([], sbuf)
  | count + 1 => do
      let byte ← sbuf.buf[sbuf.readNdx.toNat]?
      let (bytes, sbuf) ← fetchBytes { sbuf with readNdx := sbuf.readNdx + 1 } count
      some (byte :: bytes, sbuf)

/-- The bytes read, or `none` in their place where the function returns false. -/
def sbufRead (sbuf : Sbuf len) (count : Nat) : Option (Option (List UInt8) × Sbuf len) :=
  if !sbufIsReadPossible sbuf (.ofNat count) then
    some (none, sbuf)
  else
    (fetchBytes sbuf count).map fun (bytes, sbuf) => (some bytes, sbuf)

/-- The loop of `sbuf_write`. -/
def storeBytes (sbuf : Sbuf len) : List UInt8 → Option (Sbuf len)
  | [] => some sbuf
  | byte :: bytes => do
      let buf ← store sbuf.buf sbuf.writeNdx.toNat byte
      storeBytes { sbuf with buf := buf, writeNdx := sbuf.writeNdx + 1 } bytes

def sbufWrite (sbuf : Sbuf len) (bytes : List UInt8) : Option (Bool × Sbuf len) :=
  if !sbufIsWritePossible sbuf (.ofNat bytes.length) then
    some (false, sbuf)
  else
    (storeBytes sbuf bytes).map fun sbuf => (true, sbuf)

def sbufWriteU8 (sbuf : Sbuf len) (data : UInt8) : Option (Bool × Sbuf len) :=
  sbufWrite sbuf [data]

def sbufWriteS8 (sbuf : Sbuf len) (data : Int8) : Option (Bool × Sbuf len) :=
  sbufWrite sbuf [data.toUInt8]

def sbufWriteU16 (host : Endian) (sbuf : Sbuf len) (data : UInt16) : Option (Bool × Sbuf len) :=
  sbufWrite sbuf (host.bytes 2 (htons host data).toNat)

def sbufWriteS16 (host : Endian) (sbuf : Sbuf len) (data : Int16) : Option (Bool × Sbuf len) :=
  sbufWrite sbuf (host.bytes 2 (htons host data.toUInt16).toNat)

def sbufWriteU32 (host : Endian) (sbuf : Sbuf len) (data : UInt32) : Option (Bool × Sbuf len) :=
  sbufWrite sbuf (host.bytes 4 (htonl host data).toNat)

def sbufWriteS32 (host : Endian) (sbuf : Sbuf len) (data : Int32) : Option (Bool × Sbuf len) :=
  sbufWrite sbuf (host.bytes 4 (htonl host data.toUInt32).toNat)

def sbufReadU8 (sbuf : Sbuf len) : Option (Option UInt8 × Sbuf len) :=
  (sbufRead sbuf 1).map fun (bytes, sbuf) => (bytes.map (·.headD 0), sbuf)

def sbufReadS8 (sbuf : Sbuf len) : Option (Option Int8 × Sbuf len) :=
  (sbufRead sbuf 1).map fun (bytes, sbuf) => (bytes.map fun d => (d.headD 0).toInt8, sbuf)

def sbufReadU16 (host : Endian) (sbuf : Sbuf len) : Option (Option UInt16 × Sbuf len) :=
  (sbufRead sbuf 2).map fun (bytes, sbuf) =>
    (bytes.map fun d => ntohs host (.ofNat (host.number d)), sbuf)

def sbufReadS16 (host : Endian) (sbuf : Sbuf len) : Option (Option Int16 × Sbuf len) :=
  (sbufRead sbuf 2).map fun (bytes, sbuf) =>
    (bytes.map fun d => (ntohs host (.ofNat (host.number d))).toInt16, sbuf)

def sbufReadU32 (host : Endian) (sbuf : Sbuf len) : Option (Option UInt32 × Sbuf len) :=
  (sbufRead sbuf 4).map fun (bytes, sbuf) =>
    (bytes.map fun d => ntohl host (.ofNat (host.number d)), sbuf)

/-- Here `d` is an `int32_t`, which `ntohl` takes as unsigned again. -/
def sbufReadS32 (host : Endian) (sbuf : Sbuf len) : Option (Option Int32 × Sbuf len) :=
  (sbufRead sbuf 4).map fun (bytes, sbuf) =>
    (bytes.map fun d =>
      (ntohl host (UInt32.ofNat (host.number d)).toInt32.toUInt32).toInt32, sbuf)

inductive Typed
  | u8 (data : UInt8)
  | s8 (data : Int8)
  | u16 (data : UInt16)
  | s16 (data : Int16)
  | u32 (data : UInt32)
  | s32 (data : Int32)
  | raw (bytes : List UInt8)
  deriving DecidableEq, Repr

inductive Kind
  | u8
  | s8
  | u16
  | s16
  | u32
  | s32
  | raw (count : Nat)
  deriving DecidableEq, Repr

def Kind.size : Kind → Nat
  | .u8 | .s8 => 1
  | .u16 | .s16 => 2
  | .u32 | .s32 => 4
  | .raw count => count

def Typed.kind : Typed → Kind
  | .u8 _ => .u8
  | .s8 _ => .s8
  | .u16 _ => .u16
  | .s16 _ => .s16
  | .u32 _ => .u32
  | .s32 _ => .s32
  | .raw bytes => .raw bytes.length

def Typed.encode : Typed → List UInt8
  | .u8 data => [data]
  | .s8 data => [data.toUInt8]
  | .u16 data => numberBytes 2 data.toNat
  | .s16 data => numberBytes 2 data.toUInt16.toNat
  | .u32 data => numberBytes 4 data.toNat
  | .s32 data => numberBytes 4 data.toUInt32.toNat
  | .raw bytes => bytes

def Kind.decode (kind : Kind) (bytes : List UInt8) : Typed :=
  match kind with
  | .u8 => .u8 (bytes.headD 0)
  | .s8 => .s8 (bytes.headD 0).toInt8
  | .u16 => .u16 (.ofNat (bytesNumber bytes))
  | .s16 => .s16 (UInt16.ofNat (bytesNumber bytes)).toInt16
  | .u32 => .u32 (.ofNat (bytesNumber bytes))
  | .s32 => .s32 (UInt32.ofNat (bytesNumber bytes)).toInt32
  | .raw _ => .raw bytes

def sbufWriteTyped (host : Endian) (sbuf : Sbuf len) : Typed → Option (Bool × Sbuf len)
  | .u8 data => sbufWriteU8 sbuf data
  | .s8 data => sbufWriteS8 sbuf data
  | .u16 data => sbufWriteU16 host sbuf data
  | .s16 data => sbufWriteS16 host sbuf data
  | .u32 data => sbufWriteU32 host sbuf data
  | .s32 data => sbufWriteS32 host sbuf data
  | .raw bytes => sbufWrite sbuf bytes

def sbufReadTyped (host : Endian) (sbuf : Sbuf len) : Kind → Option (Option Typed × Sbuf len)
  | .u8 => (sbufReadU8 sbuf).map fun (data, sbuf) => (data.map .u8, sbuf)
  | .s8 => (sbufReadS8 sbuf).map fun (data, sbuf) => (data.map .s8, sbuf)
  | .u16 => (sbufReadU16 host sbuf).map fun (data, sbuf) => (data.map .u16, sbuf)
  | .s16 => (sbufReadS16 host sbuf).map fun (data, sbuf) => (data.map .s16, sbuf)
  | .u32 => (sbufReadU32 host sbuf).map fun (data, sbuf) => (data.map .u32, sbuf)
  | .s32 => (sbufReadS32 host sbuf).map fun (data, sbuf) => (data.map .s32, sbuf)
  | .raw count => (sbufRead sbuf count).map fun (bytes, sbuf) => (bytes.map .raw, sbuf)

@[simp] theorem Typed.encode_length (value : Typed) : value.encode.length = value.kind.size := by
  cases value with
  | u8 data => rfl
  | s8 data => rfl
  | u16 data => exact numberBytes_length 2 _
  | s16 data => exact numberBytes_length 2 _
  | u32 data => exact numberBytes_length 4 _
  | s32 data => exact numberBytes_length 4 _
  | raw bytes => rfl

@[simp] theorem Typed.decode_encode (value : Typed) : value.kind.decode value.encode = value := by
  have word (data : UInt16) : UInt16.ofNat (bytesNumber (numberBytes 2 data.toNat)) = data := by
    rw [bytesNumber_numberBytes, Nat.mod_eq_of_lt (by simpa using data.toNat_lt), UInt16.ofNat_toNat]
  have dword (data : UInt32) : UInt32.ofNat (bytesNumber (numberBytes 4 data.toNat)) = data := by
    rw [bytesNumber_numberBytes, Nat.mod_eq_of_lt (by simpa using data.toNat_lt), UInt32.ofNat_toNat]
  cases value with
  | u8 data => rfl
  | s8 data => simp [kind, encode, Kind.decode]
  | u16 data => simp only [kind, encode, Kind.decode, word]
  | s16 data => simp only [kind, encode, Kind.decode, word, Int16.toInt16_toUInt16]
  | u32 data => simp only [kind, encode, Kind.decode, dword]
  | s32 data => simp only [kind, encode, Kind.decode, dword, Int32.toInt32_toUInt32]
  | raw bytes => rfl

theorem sbufWriteTyped_eq (host : Endian) (sbuf : Sbuf len) (data : Typed) :
    sbufWriteTyped host sbuf data = sbufWrite sbuf data.encode := by
  cases data with
  | u8 data => rfl
  | s8 data => rfl
  | u16 data => rw [sbufWriteTyped, sbufWriteU16, bytes_htons, Typed.encode]
  | s16 data => rw [sbufWriteTyped, sbufWriteS16, bytes_htons, Typed.encode]
  | u32 data => rw [sbufWriteTyped, sbufWriteU32, bytes_htonl, Typed.encode]
  | s32 data => rw [sbufWriteTyped, sbufWriteS32, bytes_htonl, Typed.encode]
  | raw bytes => rfl

theorem fetchBytes_length {sbuf last : Sbuf len} {count : Nat} {bytes : List UInt8}
    (fetched : fetchBytes sbuf count = some (bytes, last)) : bytes.length = count := by
  induction count generalizing sbuf bytes with
  | zero =>
      obtain ⟨rfl, rfl⟩ := Prod.mk.inj (Option.some.inj fetched)
      rfl
  | succ count ih =>
      simp only [fetchBytes, Option.bind_eq_bind, Option.bind_eq_some_iff] at fetched
      rcases fetched with ⟨byte, -, ⟨rest, next⟩, later, same⟩
      obtain ⟨rfl, rfl⟩ := Prod.mk.inj (Option.some.inj same)
      rw [List.length_cons, ih later]

theorem sbufRead_length {sbuf last : Sbuf len} {count : Nat} {bytes : List UInt8}
    (ran : sbufRead sbuf count = some (some bytes, last)) : bytes.length = count := by
  rw [sbufRead] at ran
  split at ran
  · simp at ran
  · rcases Option.map_eq_some_iff.mp ran with ⟨⟨fetched, next⟩, taken, same⟩
    obtain ⟨rfl, rfl⟩ : fetched = bytes ∧ next = last := by simpa using same
    exact fetchBytes_length taken

theorem read_as {α : Type} {sbuf : Sbuf len} {count : Nat} {f : List UInt8 → α}
    {wrap : α → Typed} {g : List UInt8 → Typed}
    (same : ∀ bytes, bytes.length = count → wrap (f bytes) = g bytes) :
    ((sbufRead sbuf count).map fun (bytes, sbuf) => (bytes.map f, sbuf)).map
        (fun (data, sbuf) => (data.map wrap, sbuf)) =
      (sbufRead sbuf count).map fun (bytes, sbuf) => (bytes.map g, sbuf) := by
  rcases outcome : sbufRead sbuf count with _ | ⟨_ | bytes, last⟩
  · rfl
  · rfl
  · simp [same bytes (sbufRead_length outcome)]

theorem sbufReadTyped_eq (host : Endian) (sbuf : Sbuf len) (kind : Kind) :
    sbufReadTyped host sbuf kind =
      (sbufRead sbuf kind.size).map fun (bytes, sbuf) => (bytes.map kind.decode, sbuf) := by
  cases kind with
  | u8 => exact read_as fun bytes _ => rfl
  | s8 => exact read_as fun bytes _ => rfl
  | u16 => exact read_as fun bytes two => congrArg Typed.u16 (ntohs_number host two)
  | s16 => exact read_as fun bytes two =>
      congrArg (fun data : UInt16 => Typed.s16 data.toInt16) (ntohs_number host two)
  | u32 => exact read_as fun bytes four => congrArg Typed.u32 (ntohl_number host four)
  | s32 => exact read_as fun bytes four =>
      congrArg (fun data : UInt32 => Typed.s32 data.toInt32) (ntohl_number host four)
  | raw count => rfl

end KongjaExpress.Utils
