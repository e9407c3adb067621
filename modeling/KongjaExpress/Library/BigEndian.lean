import Mathlib.Tactic

/-! Sixteen-bit words and numbers of any width as bytes, high byte first,
and the byte order of the machine that keeps them. -/

namespace KongjaExpress.BigEndian

/-- `(high << 8) | low`, kept to sixteen bits. -/
def word (high low : UInt8) : UInt16 := (high.toUInt16 <<< 8) ||| low.toUInt16

/-- `(uint8_t)(value >> 8)`. -/
def highByte (value : UInt16) : UInt8 := (value >>> 8).toUInt8

/-- `(uint8_t)(value & 0xff)`. -/
def lowByte (value : UInt16) : UInt8 := (value &&& 0xff).toUInt8

def wordBytes (value : UInt16) : List UInt8 := [highByte value, lowByte value]

theorem word_toNat (high low : UInt8) :
    (word high low).toNat = high.toNat * 256 + low.toNat := by
  have bound : low.toNat < 2 ^ 8 := low.toNat_lt
  have high_bound : high.toNat < 2 ^ 8 := high.toNat_lt
  have shifted : (high.toUInt16 <<< 8).toNat = high.toNat <<< 8 := by
    simp only [UInt16.toNat_shiftLeft, UInt8.toNat_toUInt16]
    rw [Nat.mod_eq_of_lt]
    · rfl
    · simp [Nat.shiftLeft_eq]; omega
  simp only [word, UInt16.toNat_or, shifted, UInt8.toNat_toUInt16]
  rw [← Nat.shiftLeft_add_eq_or_of_lt bound, Nat.shiftLeft_eq]

theorem highByte_toNat (value : UInt16) : (highByte value).toNat = value.toNat / 256 := by
  have bound : value.toNat < 2 ^ 16 := value.toNat_lt
  simp only [highByte, UInt16.toNat_toUInt8, UInt16.toNat_shiftRight]
  rw [Nat.shiftRight_eq_div_pow]
  simp only [UInt16.reduceToNat, Nat.reduceMod, Nat.reducePow]
  omega

theorem lowByte_toNat (value : UInt16) : (lowByte value).toNat = value.toNat % 256 := by
  have mask (m : Nat) : m &&& 255 = m % 256 := Nat.and_two_pow_sub_one_eq_mod m 8
  simp [lowByte, mask]

@[simp] theorem word_bytes (value : UInt16) :
    word (highByte value) (lowByte value) = value := by
  apply UInt16.toNat_inj.mp
  rw [word_toNat, highByte_toNat, lowByte_toNat]
  omega

@[simp] theorem highByte_word (high low : UInt8) : highByte (word high low) = high := by
  apply UInt8.toNat_inj.mp
  have bound : low.toNat < 2 ^ 8 := low.toNat_lt
  rw [highByte_toNat, word_toNat]
  omega

@[simp] theorem lowByte_word (high low : UInt8) : lowByte (word high low) = low := by
  apply UInt8.toNat_inj.mp
  have bound : low.toNat < 2 ^ 8 := low.toNat_lt
  rw [lowByte_toNat, word_toNat]
  omega

theorem wordBytes_inj {left right : UInt16} (same : wordBytes left = wordBytes right) :
    left = right := by
  obtain ⟨high, low⟩ : highByte left = highByte right ∧ lowByte left = lowByte right := by
    simpa [wordBytes] using same
  rw [← word_bytes left, high, low, word_bytes]

/-- The low `width` bytes of a number. -/
def numberBytes : Nat → Nat → List UInt8
  | 0, _ => []
  | width + 1, value => numberBytes width (value / 256) ++ [UInt8.ofNat value]

def bytesNumber (bytes : List UInt8) : Nat :=
  bytes.foldl (fun value byte => value * 256 + byte.toNat) 0

@[simp] theorem numberBytes_length (width value : Nat) :
    (numberBytes width value).length = width := by
  induction width generalizing value with
  | zero => rfl
  | succ width ih => simp [numberBytes, ih]

theorem bytesNumber_concat (bytes : List UInt8) (byte : UInt8) :
    bytesNumber (bytes ++ [byte]) = bytesNumber bytes * 256 + byte.toNat := by
  simp [bytesNumber]

theorem bytesNumber_lt (bytes : List UInt8) : bytesNumber bytes < 256 ^ bytes.length := by
  induction bytes using List.reverseRecOn with
  | nil => simp [bytesNumber]
  | append_singleton bytes byte ih =>
      have low : byte.toNat < 2 ^ 8 := byte.toNat_lt
      rw [bytesNumber_concat, List.length_append, List.length_singleton, pow_succ]
      omega

@[simp] theorem bytesNumber_numberBytes (width value : Nat) :
    bytesNumber (numberBytes width value) = value % 256 ^ width := by
  induction width generalizing value with
  | zero => simp [numberBytes, bytesNumber, Nat.mod_one]
  | succ width ih =>
      calc bytesNumber (numberBytes (width + 1) value)
          = value / 256 % 256 ^ width * 256 + value % 256 := by
            rw [numberBytes, bytesNumber_concat, ih, UInt8.toNat_ofNat']
        _ = value % 256 ^ (width + 1) := by
            rw [pow_succ, Nat.mul_comm (256 ^ width), Nat.mod_mul]
            omega

@[simp] theorem numberBytes_bytesNumber (bytes : List UInt8) :
    numberBytes bytes.length (bytesNumber bytes) = bytes := by
  induction bytes using List.reverseRecOn with
  | nil => rfl
  | append_singleton bytes byte ih =>
      have low : byte.toNat < 2 ^ 8 := byte.toNat_lt
      have high : (bytesNumber bytes * 256 + byte.toNat) / 256 = bytesNumber bytes := by omega
      rw [List.length_append, List.length_singleton, numberBytes, bytesNumber_concat, high, ih]
      congr 2
      apply UInt8.toNat_inj.mp
      rw [UInt8.toNat_ofNat']
      omega

inductive Endian
  | little
  | big
  deriving DecidableEq, Repr

/-- The bytes of a number as the machine keeps them, from their network order and back. -/
def Endian.arrange : Endian → List UInt8 → List UInt8
  | .little, bytes => bytes.reverse
  | .big, bytes => bytes

def Endian.bytes (host : Endian) (width value : Nat) : List UInt8 :=
  host.arrange (numberBytes width value)

def Endian.number (host : Endian) (bytes : List UInt8) : Nat := bytesNumber (host.arrange bytes)

@[simp] theorem Endian.arrange_arrange (host : Endian) (bytes : List UInt8) :
    host.arrange (host.arrange bytes) = bytes := by
  cases host with
  | little => exact List.reverse_reverse bytes
  | big => rfl

@[simp] theorem Endian.arrange_length (host : Endian) (bytes : List UInt8) :
    (host.arrange bytes).length = bytes.length := by
  cases host with
  | little => exact List.length_reverse
  | big => rfl

theorem Endian.number_lt (host : Endian) (bytes : List UInt8) :
    host.number bytes < 256 ^ bytes.length := by
  rw [← host.arrange_length bytes]
  exact bytesNumber_lt _

@[simp] theorem Endian.bytes_number (host : Endian) (bytes : List UInt8) :
    host.bytes bytes.length (host.number bytes) = bytes := by
  rw [Endian.bytes, Endian.number, ← host.arrange_length bytes, numberBytes_bytesNumber,
    arrange_arrange]

/-- The number whose bytes the machine keeps in network order. -/
def htons (host : Endian) (value : UInt16) : UInt16 :=
  .ofNat (host.number (numberBytes 2 value.toNat))

def htonl (host : Endian) (value : UInt32) : UInt32 :=
  .ofNat (host.number (numberBytes 4 value.toNat))

def ntohs (host : Endian) (value : UInt16) : UInt16 :=
  .ofNat (bytesNumber (host.bytes 2 value.toNat))

def ntohl (host : Endian) (value : UInt32) : UInt32 :=
  .ofNat (bytesNumber (host.bytes 4 value.toNat))

theorem bytes_number_word (host : Endian) {bytes : List UInt8} (two : bytes.length = 2) :
    host.bytes 2 (UInt16.ofNat (host.number bytes)).toNat = bytes := by
  have bound := host.number_lt bytes
  have kept := host.bytes_number bytes
  rw [two] at bound kept
  rw [UInt16.toNat_ofNat_of_lt' (by simpa [UInt16.size] using bound), kept]

theorem bytes_number_dword (host : Endian) {bytes : List UInt8} (four : bytes.length = 4) :
    host.bytes 4 (UInt32.ofNat (host.number bytes)).toNat = bytes := by
  have bound := host.number_lt bytes
  have kept := host.bytes_number bytes
  rw [four] at bound kept
  rw [UInt32.toNat_ofNat_of_lt' (by simpa [UInt32.size] using bound), kept]

theorem bytes_htons (host : Endian) (value : UInt16) :
    host.bytes 2 (htons host value).toNat = numberBytes 2 value.toNat :=
  bytes_number_word host (numberBytes_length 2 value.toNat)

theorem bytes_htonl (host : Endian) (value : UInt32) :
    host.bytes 4 (htonl host value).toNat = numberBytes 4 value.toNat :=
  bytes_number_dword host (numberBytes_length 4 value.toNat)

theorem ntohs_number (host : Endian) {bytes : List UInt8} (two : bytes.length = 2) :
    ntohs host (.ofNat (host.number bytes)) = .ofNat (bytesNumber bytes) := by
  rw [ntohs, bytes_number_word host two]

theorem ntohl_number (host : Endian) {bytes : List UInt8} (four : bytes.length = 4) :
    ntohl host (.ofNat (host.number bytes)) = .ofNat (bytesNumber bytes) := by
  rw [ntohl, bytes_number_dword host four]

end KongjaExpress.BigEndian
