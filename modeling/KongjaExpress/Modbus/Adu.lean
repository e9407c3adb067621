import KongjaExpress.Modbus.MbapSafety

/-! The frames of Modbus TCP, and the reader as a decoder of their bytes. -/

namespace KongjaExpress.Modbus

open BigEndian Memory Framing

/-- A header whose length field counts the unit identifier and the bytes that follow
it. -/
structure RawAdu where
  tid : UInt16
  pid : UInt16
  uid : UInt8
  pdu : List UInt8
  counted : pdu.length + 1 < 65536

structure Adu extends RawAdu where
  nonempty : 1 ≤ pdu.length
  short : pdu.length ≤ 253

namespace RawAdu

def length (adu : RawAdu) : UInt16 := .ofNat (adu.pdu.length + 1)

def header (adu : RawAdu) : List UInt8 :=
  [highByte adu.tid, lowByte adu.tid, highByte adu.pid, lowByte adu.pid,
    highByte adu.length, lowByte adu.length, adu.uid]

def bytes (adu : RawAdu) : List UInt8 := adu.header ++ adu.pdu

theorem length_toNat (adu : RawAdu) : adu.length.toNat = adu.pdu.length + 1 :=
  Nat.mod_eq_of_lt adu.counted

theorem pdu_length_toNat (adu : RawAdu) :
    (UInt16.ofNat adu.pdu.length).toNat = adu.pdu.length :=
  Nat.mod_eq_of_lt (Nat.lt_of_succ_lt adu.counted)

@[simp] theorem header_length (adu : RawAdu) : adu.header.length = 7 := rfl

@[simp] theorem bytes_length (adu : RawAdu) : adu.bytes.length = 6 + adu.length.toNat := by
  rw [bytes, List.length_append, header_length, length_toNat]
  omega

theorem bytes_ne_nil (adu : RawAdu) : adu.bytes ≠ [] := by
  simp [bytes, header]

end RawAdu

variable {S : Type}

structure Carries (adu : RawAdu) (mbap : MbapReader) : Prop where
  tid : mbap.tid = adu.tid
  pid : mbap.pid = adu.pid
  length : mbap.length = adu.length
  uid : mbap.uid = adu.uid
  ndx : mbap.ndx = 6 + adu.length.toNat
  bytes : front mbap.frame (6 + adu.length.toNat) = adu.bytes

theorem Carries.parts {adu : RawAdu} {mbap : MbapReader} (carries : Carries adu mbap) :
    front mbap.frame 7 = adu.header ∧ front (mbap.frame.drop 7) adu.pdu.length = adu.pdu := by
  have size : 6 + adu.length.toNat = 7 + adu.pdu.length := by
    rw [adu.length_toNat]
    omega
  have joined : front mbap.frame 7 ++ front (mbap.frame.drop 7) adu.pdu.length =
      adu.header ++ adu.pdu := by
    rw [← front_add, ← size]
    exact carries.bytes
  exact List.append_inj joined (by rw [front_length _ (by omega), RawAdu.header_length])

theorem getElem_of_held {frame : Vector UInt8 260} {count : Nat} {bytes : List UInt8}
    (bound : count ≤ 260) (held : front frame count <+: bytes) (i : Nat) (inside : i < count)
    (within : i < bytes.length) : frame[i] = bytes[i] := by
  have inFront : i < (front frame count).length := by rwa [front_length frame bound]
  rw [← getElem_front frame (by omega) inFront]
  exact held.getElem inFront

section Header

variable {frame : Vector UInt8 260} {count : Nat} {adu : RawAdu}

theorem header_held (body : 7 ≤ count) (bound : count ≤ 260)
    (held : front frame count <+: adu.bytes) :
    word frame[0] frame[1] = adu.tid ∧ word frame[2] frame[3] = adu.pid ∧
      word frame[4] frame[5] = adu.length ∧ frame[6] = adu.uid := by
  have long : 7 ≤ adu.bytes.length := by simp [RawAdu.bytes, RawAdu.header]
  have at' (i : Nat) (inside : i < 7) : frame[i] = adu.bytes[i] :=
    getElem_of_held bound held i (by omega) (by omega)
  rw [at' 0 (by omega), at' 1 (by omega), at' 2 (by omega), at' 3 (by omega),
    at' 4 (by omega), at' 5 (by omega), at' 6 (by omega)]
  simp [RawAdu.bytes, RawAdu.header]

theorem lengthField_held (body : 7 ≤ count) (bound : count ≤ 260)
    (held : front frame count <+: adu.bytes) : lengthField frame = adu.length.toNat := by
  rw [lengthField, (header_held body bound held).2.2.1]

theorem carries_readerAt (bound : 6 + adu.length.toNat ≤ 260)
    (held : front frame (6 + adu.length.toNat) = adu.bytes) :
    Carries adu (readerAt frame (6 + adu.length.toNat)) := by
  have body : 7 ≤ 6 + adu.length.toNat := by
    have := adu.length_toNat
    omega
  have low : ¬ 6 + adu.length.toNat < 7 := by omega
  have whole : front frame (6 + adu.length.toNat) <+: adu.bytes := by rw [held]
  rcases header_held body bound whole with ⟨tid, pid, length, uid⟩
  constructor
  case ndx => simp
  case bytes => rw [readerAt_frame, held]
  all_goals simp only [readerAt, low, if_false, tid, pid, length, uid]

end Header

/-- The reader has taken in `tail`, the bytes since the last frame. -/
def Held (tail : List UInt8) (mbap : MbapReader) : Prop :=
  ∃ frame : Vector UInt8 260, mbap = readerAt frame tail.length ∧ front frame tail.length = tail

def Holding (tail : List UInt8) (s : MbapReader × S) : Prop := Held tail s.1

def Delivers (cb : MbapReader → S → MbapReader × S) (adu : Adu) (s t : S) : Prop :=
  ∃ mbap, Carries adu.toRawAdu mbap ∧ t = (cb mbap s).2

theorem Adu.length_bounds (adu : Adu) : 2 ≤ adu.length.toNat ∧ adu.length.toNat ≤ 254 := by
  have := adu.nonempty
  have := adu.short
  have := adu.length_toNat
  omega

theorem extend_held {frame : Vector UInt8 260} {tail : List UInt8} (bound : tail.length < 260)
    (held : front frame tail.length = tail) (data : UInt8) :
    front (frame.set tail.length data) (tail ++ [data]).length = tail ++ [data] := by
  rw [List.length_append, List.length_singleton, front_set_succ _ bound, held]

theorem aduDecoder (cb : MbapReader → S → MbapReader × S) :
    Decoder (fun adu : Adu => adu.bytes) (mbapStateMachine cb) Holding Prod.snd
      (Delivers cb) where
  nonempty adu := adu.bytes_ne_nil
  extend := by
    rintro adu tail data ⟨mbap, env⟩ ⟨frame, rfl, held⟩ inside proper
    have bounds := adu.length_bounds
    have size : tail.length + 1 < 6 + adu.length.toNat := by simpa using proper
    have bound : tail.length < 260 := by omega
    have next : readerAt (frame.set tail.length data) (tail ++ [data]).length =
        readerAt (frame.set tail.length data) (tail.length + 1) := by simp
    refine ⟨(readerAt (frame.set tail.length data) (tail.length + 1), env), ?_,
      ⟨_, next.symm, extend_held bound held data⟩, rfl⟩
    rcases Nat.lt_or_ge tail.length 7 with header | body
    · exact step_header header env data
    · have so_far : front frame tail.length <+: adu.bytes := by
        rw [held]
        exact (List.prefix_append tail [data]).trans inside
      have more : ¬ Completes frame tail.length := by
        rintro ⟨-, last⟩
        rw [lengthField_held body (by omega) so_far] at last
        omega
      rw [step_pdu body bound, if_neg more]
  finish := by
    rintro adu tail data ⟨mbap, env⟩ ⟨frame, rfl, held⟩ whole
    have bounds := adu.length_bounds
    have size : tail.length + 1 = 6 + adu.length.toNat := by
      simpa using congrArg List.length whole
    have bound : tail.length < 260 := by omega
    have body : 7 ≤ tail.length := by omega
    have so_far : front frame tail.length <+: adu.bytes := by
      rw [held, ← whole]
      exact List.prefix_append tail [data]
    have completes : Completes frame tail.length :=
      ⟨body, by rw [lengthField_held body (by omega) so_far, size]⟩
    have carried : front (frame.set tail.length data) (6 + adu.length.toNat) = adu.bytes := by
      rw [← size, front_set_succ _ bound, held, whole]
    have step := @step_pdu S cb frame _ body bound env data
    rw [if_pos completes, size] at step
    exact ⟨_, step, ⟨_, rfl, front_zero _⟩, _, carries_readerAt (by omega) carried, rfl⟩

theorem held_init (memory : MbapReader) : Held [] (mbapReaderInit memory) :=
  ⟨memory.frame, mbapReaderReset_eq memory, front_zero _⟩

def InRange (length : Nat) : Prop := 2 ≤ length ∧ length ≤ 254

instance (length : Nat) : Decidable (InRange length) := inferInstanceAs (Decidable (_ ∧ _))

/-- The length field of a header at `offset`. -/
def fieldAt (bytes : List UInt8) (offset : Nat) : Nat :=
  (word (bytes.getD (offset + 4) 0) (bytes.getD (offset + 5) 0)).toNat

theorem lengthField_front {bytes : List UInt8} (body : 7 ≤ count) (bound : count ≤ 260)
    (held : front frame count <+: bytes) : lengthField frame = fieldAt bytes 0 := by
  have size : count ≤ bytes.length := by
    have := held.length_le
    rwa [front_length frame bound] at this
  have four := getElem_of_held bound held 4 (by omega) (by omega)
  have five := getElem_of_held bound held 5 (by omega) (by omega)
  simp only [lengthField, fieldAt, List.getD_eq_getElem?_getD, Nat.zero_add, four, five]
  rw [List.getElem?_eq_getElem (by omega), List.getElem?_eq_getElem (by omega)]
  rfl

theorem fieldAt_part {tail bytes : List UInt8} (inside : tail <+: bytes)
    (long : 6 ≤ tail.length) : fieldAt tail 0 = fieldAt bytes 0 := by
  rcases inside with ⟨later, rfl⟩
  simp only [fieldAt, List.getD_eq_getElem?_getD, Nat.zero_add]
  rw [List.getElem?_append_left (by omega), List.getElem?_append_left (by omega)]

theorem fieldAt_adu (adu : RawAdu) : fieldAt adu.bytes 0 = adu.length.toNat := by
  simp [fieldAt, RawAdu.bytes, RawAdu.header]

/-- Inside one frame buffer, with no frame complete, the bytes are taken in. -/
theorem run_quiet (cb : MbapReader → S → MbapReader × S) (frame : Vector UInt8 260) (env : S)
    (bytes : List UInt8) (bound : bytes.length ≤ 260)
    (quiet : ¬ (InRange (fieldAt bytes 0) ∧ 6 + fieldAt bytes 0 ≤ bytes.length)) :
    bytes.foldlM (mbapStateMachine cb) (readerAt frame 0, env) =
      some (readerAt (blit frame 0 bytes) bytes.length, env) := by
  induction bytes using List.reverseRecOn with
  | nil =>
      rw [blit_nil]
      rfl
  | append_singleton bytes data ih =>
      rw [List.length_append, List.length_singleton] at bound quiet
      have room : bytes.length < 260 := by omega
      have field (body : 6 ≤ bytes.length) :
          fieldAt bytes 0 = fieldAt (bytes ++ [data]) 0 :=
        fieldAt_part (List.prefix_append bytes [data]) body
      have quiet' : ¬ (InRange (fieldAt bytes 0) ∧ 6 + fieldAt bytes 0 ≤ bytes.length) := by
        rintro ⟨inRange, fits⟩
        rw [← field (by have := inRange.1; omega)] at quiet
        exact quiet ⟨inRange, by omega⟩
      have step : mbapStateMachine cb (readerAt (blit frame 0 bytes) bytes.length, env) data =
          some (readerAt (blit frame 0 (bytes ++ [data])) (bytes ++ [data]).length, env) := by
        rw [← blit_concat frame bytes data room, List.length_append, List.length_singleton]
        rcases Nat.lt_or_ge bytes.length 7 with header | body
        · exact step_header header env data
        · have more : ¬ Completes (blit frame 0 bytes) bytes.length := by
            rintro ⟨-, last⟩
            rw [lengthField_front body room.le (by rw [front_blit_zero _ _ room.le])] at last
            rw [← field (by omega)] at quiet
            exact quiet ⟨⟨by omega, by omega⟩, by omega⟩
          rw [step_pdu body room, if_neg more]
      rw [List.foldlM_append, ih (by omega) quiet']
      simpa using step

/-- The reader an ADU is delivered with when it arrives over `memory`. -/
def delivered (memory : Vector UInt8 260) (adu : Adu) : MbapReader :=
  readerAt (blit memory 0 adu.bytes) (6 + adu.length.toNat)

theorem delivered_carries (memory : Vector UInt8 260) (adu : Adu) :
    Carries adu.toRawAdu (delivered memory adu) := by
  have bounds := adu.length_bounds
  refine carries_readerAt (by omega) ?_
  rw [← adu.bytes_length]
  exact front_blit_zero _ _ (by rw [adu.bytes_length]; omega)

/-- An ADU that meets a reader that holds nothing is delivered at its last byte. -/
theorem run_adu (cb : MbapReader → S → MbapReader × S) (memory : Vector UInt8 260)
    (adu : Adu) (env : S) :
    ∃ before,
      adu.bytes.dropLast.foldlM (mbapStateMachine cb) (readerAt memory 0, env) =
        some (before, env) ∧
      adu.bytes.foldlM (mbapStateMachine cb) (readerAt memory 0, env) =
        some (readerAt (cb (delivered memory adu) env).1.frame 0,
          (cb (delivered memory adu) env).2) := by
  have bounds := adu.length_bounds
  have size := adu.bytes_length
  have split := List.dropLast_append_getLast adu.bytes_ne_nil
  have short : adu.bytes.dropLast.length = 5 + adu.length.toNat := by
    rw [List.length_dropLast]
    omega
  have field : fieldAt adu.bytes.dropLast 0 = adu.length.toNat := by
    rw [fieldAt_part (List.dropLast_prefix _) (by omega), fieldAt_adu]
  have quiet := run_quiet cb memory env adu.bytes.dropLast (by omega) (by omega)
  have completes : Completes (blit memory 0 adu.bytes.dropLast) adu.bytes.dropLast.length := by
    have body : 7 ≤ adu.bytes.dropLast.length := by omega
    have held := front_blit_zero memory adu.bytes.dropLast (by omega)
    refine ⟨body, ?_⟩
    rw [lengthField_front body (by omega) (by rw [held]), field]
    omega
  have step := @step_pdu S cb (blit memory 0 adu.bytes.dropLast) _ completes.1
    (show adu.bytes.dropLast.length < 260 by omega) env (adu.bytes.getLast adu.bytes_ne_nil)
  have total : adu.bytes.dropLast.length + 1 = 6 + adu.length.toNat := by omega
  rw [if_pos completes, blit_concat _ _ _ (by omega), split, total] at step
  refine ⟨_, quiet, ?_⟩
  calc adu.bytes.foldlM (mbapStateMachine cb) (readerAt memory 0, env)
      = (adu.bytes.dropLast ++ [adu.bytes.getLast adu.bytes_ne_nil]).foldlM
          (mbapStateMachine cb) (readerAt memory 0, env) := by rw [split]
    _ = mbapStateMachine cb
          (readerAt (blit memory 0 adu.bytes.dropLast) adu.bytes.dropLast.length, env)
          (adu.bytes.getLast adu.bytes_ne_nil) := by
        rw [List.foldlM_append, quiet]
        simp
    _ = _ := step

end KongjaExpress.Modbus
