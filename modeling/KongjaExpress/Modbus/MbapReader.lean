import KongjaExpress.Library.BigEndian
import KongjaExpress.Library.Memory

/-! The byte-at-a-time reader of `mbap_reader.c`. -/

namespace KongjaExpress.Modbus

open BigEndian Memory

/-- `mbap_reader_state_t`. -/
inductive MbapReaderState
  | header | pdu
  deriving DecidableEq, Repr

/-- `mbap_reader_t` with its `frame[MB_TCP_PDU_SIZE_MAX]`; the callback is an argument
of the functions that call it. -/
structure MbapReader where
  frame : Vector UInt8 260
  state : MbapReaderState
  tid : UInt16
  pid : UInt16
  length : UInt16
  uid : UInt8
  headerRemaining : Int
  dataRemaining : Int
  ndx : Int
  deriving DecidableEq, Repr

def mbapReaderReset (mbap : MbapReader) : MbapReader :=
  { mbap with
    state := .header
    tid := 0
    pid := 0
    length := 0
    uid := 0
    headerRemaining := 7
    dataRemaining := 0
    ndx := 0 }

/-- `mbap_reader_init` on memory with arbitrary contents. -/
def mbapReaderInit (memory : MbapReader) : MbapReader := mbapReaderReset memory

/-- `mbap->frame[mbap->ndx++] = data`; `none` is a store outside the frame. -/
def putFrame (mbap : MbapReader) (data : UInt8) : Option MbapReader :=
  (store mbap.frame mbap.ndx data).map fun frame =>
    { mbap with frame := frame, ndx := mbap.ndx + 1 }

/-- `mbap->frame[4]` and `mbap->frame[5]`, high byte first. -/
abbrev setLengthField (frame : Vector UInt8 260) (length : UInt16) : Vector UInt8 260 :=
  (frame.set 4 (highByte length)).set 5 (lowByte length)

theorem front_header (frame : Vector UInt8 260) :
    front frame 7 =
      [frame[0], frame[1], frame[2], frame[3], frame[4], frame[5], frame[6]] :=
  front_seven frame (by omega)

/-- The branch of the header state for the header's last byte. -/
def decodeHeader (mbap : MbapReader) : MbapReader :=
  let length := word mbap.frame[4] mbap.frame[5]
  { mbap with
    tid := word mbap.frame[0] mbap.frame[1]
    pid := word mbap.frame[2] mbap.frame[3]
    length := length
    uid := mbap.frame[6]
    dataRemaining := length.toNat - 1
    state := .pdu }

variable {S : Type}

/-- The callback acts on the reader and on an environment `S`. -/
def mbapStateMachine (cb : MbapReader → S → MbapReader × S) :
    MbapReader × S → UInt8 → Option (MbapReader × S)
  | (mbap, env), data =>
      match mbap.state with
      | .header =>
          (putFrame mbap data).map fun mbap =>
            let mbap := { mbap with headerRemaining := mbap.headerRemaining - 1 }
            (if mbap.headerRemaining = 0 then decodeHeader mbap else mbap, env)
      | .pdu =>
          if mbap.ndx ≥ 260 then
            -- the byte at hand is dropped with the frame
            some (mbapReaderReset mbap, env)
          else
            (putFrame mbap data).map fun mbap =>
              let mbap := { mbap with dataRemaining := mbap.dataRemaining - 1 }
              if mbap.dataRemaining = 0 then
                let (mbap, env) := cb mbap env
                (mbapReaderReset mbap, env)
              else (mbap, env)

def mbapReaderFeed (cb : MbapReader → S → MbapReader × S) (s : MbapReader × S)
    (buf : List UInt8) : Option (MbapReader × S) :=
  buf.foldlM (mbapStateMachine cb) s

/-- The reader `mbap_state_machine` calls its callback with for this byte, if it does. -/
def arriving (mbap : MbapReader) (data : UInt8) : Option MbapReader :=
  if mbap.state = .pdu ∧ ¬ mbap.ndx ≥ 260 then
    (putFrame mbap data).bind fun mbap =>
      let mbap := { mbap with dataRemaining := mbap.dataRemaining - 1 }
      if mbap.dataRemaining = 0 then some mbap else none
  else none

theorem mbapStateMachine_env {cb : MbapReader → S → MbapReader × S}
    {mbap mbap' : MbapReader} {env env' : S} {data : UInt8}
    (step : mbapStateMachine cb (mbap, env) data = some (mbap', env')) :
    env' = match arriving mbap data with
      | some frame => (cb frame env).2
      | none => env := by
  unfold mbapStateMachine at step
  unfold arriving
  dsimp only at step
  split at step <;> rename_i state
  · rcases Option.map_eq_some_iff.mp step with ⟨put, -, taken⟩
    rw [if_neg (by simp [state])]
    exact (Prod.mk.inj taken).2.symm
  · by_cases full : mbap.ndx ≥ 260
    · rw [if_pos full, Option.some.injEq, Prod.mk.injEq] at step
      rw [if_neg (by simp [full])]
      exact step.2.symm
    · rw [if_neg full] at step
      rcases Option.map_eq_some_iff.mp step with ⟨put, stored, taken⟩
      rw [if_pos ⟨state, full⟩, stored, Option.bind_some]
      dsimp only at taken ⊢
      split at taken <;> rename_i remaining
      · rw [if_pos remaining]
        exact (Prod.mk.inj taken).2.symm
      · rw [if_neg remaining]
        exact (Prod.mk.inj taken).2.symm

theorem mbapStateMachine_kept {cb : MbapReader → S → MbapReader × S} {P : S → Prop}
    (kept : ∀ mbap env, P env → P (cb mbap env).2) {mbap mbap' : MbapReader} {env env' : S}
    {data : UInt8} (ran : mbapStateMachine cb (mbap, env) data = some (mbap', env'))
    (start : P env) : P env' := by
  rw [mbapStateMachine_env ran]
  cases arriving mbap data with
  | none => exact start
  | some frame => exact kept frame env start

def lengthField (frame : Vector UInt8 260) : Nat := (word frame[4] frame[5]).toNat

/-- The reader after `count` bytes of a frame: all else is read off the frame. -/
def readerAt (frame : Vector UInt8 260) (count : Nat) : MbapReader :=
  if count < 7 then {
    frame := frame, state := .header
    tid := 0, pid := 0, length := 0, uid := 0
    headerRemaining := 7 - count, dataRemaining := 0, ndx := count }
  else {
    frame := frame, state := .pdu
    tid := word frame[0] frame[1], pid := word frame[2] frame[3]
    length := word frame[4] frame[5], uid := frame[6]
    headerRemaining := 0, dataRemaining := 6 + lengthField frame - count, ndx := count }

@[simp] theorem readerAt_frame (frame : Vector UInt8 260) (count : Nat) :
    (readerAt frame count).frame = frame := by
  unfold readerAt
  split <;> rfl

@[simp] theorem readerAt_ndx (frame : Vector UInt8 260) (count : Nat) :
    (readerAt frame count).ndx = count := by
  unfold readerAt
  split <;> rfl

theorem mbapReaderReset_eq (mbap : MbapReader) :
    mbapReaderReset mbap = readerAt mbap.frame 0 := by
  simp [mbapReaderReset, readerAt]

@[simp] theorem mbapReaderReset_frame (mbap : MbapReader) :
    (mbapReaderReset mbap).frame = mbap.frame := rfl

@[simp] theorem mbapReaderReset_readerAt (frame : Vector UInt8 260) (count : Nat) :
    mbapReaderReset (readerAt frame count) = readerAt frame 0 := by
  rw [mbapReaderReset_eq, readerAt_frame]

def Completes (frame : Vector UInt8 260) (count : Nat) : Prop :=
  7 ≤ count ∧ count + 1 = 6 + lengthField frame

instance (frame : Vector UInt8 260) (count : Nat) : Decidable (Completes frame count) :=
  inferInstanceAs (Decidable (_ ∧ _))

theorem lengthField_set {frame : Vector UInt8 260} {count : Nat} (bound : count < 260)
    (data : UInt8) (body : 7 ≤ count) :
    lengthField (frame.set count data) = lengthField frame := by
  have four : (frame.set count data)[4] = frame[4] := Vector.getElem_set_ne _ _ (by omega)
  have five : (frame.set count data)[5] = frame[5] := Vector.getElem_set_ne _ _ (by omega)
  simp only [lengthField, four, five]

theorem putFrame_readerAt {frame : Vector UInt8 260} {count : Nat} (bound : count < 260)
    (data : UInt8) :
    putFrame (readerAt frame count) data =
      some { readerAt frame count with
        frame := frame.set count data
        ndx := count + 1 } := by
  simp [putFrame, store_some bound]

theorem step_header {cb : MbapReader → S → MbapReader × S} {frame : Vector UInt8 260}
    {count : Nat} (header : count < 7) (env : S) (data : UInt8) :
    mbapStateMachine cb (readerAt frame count, env) data =
      some (readerAt (frame.set count data) (count + 1), env) := by
  have bound : count < 260 := by omega
  have inHeader : (readerAt frame count).state = .header := by simp [readerAt, header]
  simp only [mbapStateMachine, inHeader, putFrame_readerAt bound, Option.map_some]
  rcases Nat.lt_or_ge (count + 1) 7 with more | last
  · have left : ¬ (7 : Int) - count - 1 = 0 := by omega
    simp only [readerAt, header, more, if_pos, left, if_false]
    congr 3
    omega
  · obtain rfl : count = 6 := by omega
    simp [readerAt, decodeHeader, lengthField]
    omega

theorem step_overflow {cb : MbapReader → S → MbapReader × S} {frame : Vector UInt8 260}
    {count : Nat} (full : 260 ≤ count) (env : S) (data : UInt8) :
    mbapStateMachine cb (readerAt frame count, env) data = some (readerAt frame 0, env) := by
  have body : ¬ count < 7 := by omega
  have inPdu : (readerAt frame count).state = .pdu := by simp [readerAt, body]
  simp only [mbapStateMachine, inPdu]
  rw [if_pos (by simpa using full), mbapReaderReset_readerAt]

theorem step_pdu {cb : MbapReader → S → MbapReader × S} {frame : Vector UInt8 260}
    {count : Nat} (body : 7 ≤ count) (bound : count < 260) (env : S) (data : UInt8) :
    mbapStateMachine cb (readerAt frame count, env) data =
      if Completes frame count then
        some (readerAt (cb (readerAt (frame.set count data) (count + 1)) env).1.frame 0,
          (cb (readerAt (frame.set count data) (count + 1)) env).2)
      else some (readerAt (frame.set count data) (count + 1), env) := by
  have low : ¬ count < 7 := by omega
  have inPdu : (readerAt frame count).state = .pdu := by simp [readerAt, low]
  have room : ¬ (readerAt frame count).ndx ≥ 260 := by
    rw [readerAt_ndx]
    omega
  have advanced :
      { readerAt frame count with
        state := .pdu
        frame := frame.set count data
        ndx := (count : Int) + 1
        dataRemaining := (readerAt frame count).dataRemaining - 1 } =
      readerAt (frame.set count data) (count + 1) := by
    have next : ¬ count + 1 < 7 := by omega
    have kept (i : Nat) (small : i < 7) : (frame.set count data)[i] = frame[i] :=
      Vector.getElem_set_ne _ _ (by omega)
    simp only [readerAt, low, next, if_false, lengthField_set bound data body,
      kept 0, kept 1, kept 2, kept 3, kept 4, kept 5, kept 6, Nat.reduceLT]
    congr 1
    push_cast
    omega
  have done : (readerAt frame count).dataRemaining - 1 = 0 ↔ Completes frame count := by
    simp only [readerAt, low, if_false, Completes]
    omega
  dsimp only at advanced
  simp only [mbapStateMachine, inPdu, if_neg room, putFrame_readerAt bound, Option.map_some]
  by_cases completes : Completes frame count
  · rw [if_pos (done.mpr completes), if_pos completes, advanced, mbapReaderReset_eq]
  · rw [if_neg (fun zero => completes (done.mp zero)), if_neg completes, advanced]

end KongjaExpress.Modbus
