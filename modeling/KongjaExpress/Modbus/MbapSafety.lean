import KongjaExpress.Library.Framing
import KongjaExpress.Modbus.MbapReader

/-! The reader on arbitrary input: its counters, the bounds of its stores and the
frames it hands to its callback. -/

namespace KongjaExpress.Modbus

open BigEndian Memory Framing

variable {S : Type}

def calls (cb : MbapReader → S → MbapReader × S) (delivered : List MbapReader) (env : S) : S :=
  delivered.foldl (fun env mbap => (cb mbap env).2) env

theorem calls_append (cb : MbapReader → S → MbapReader × S) (front back : List MbapReader)
    (env : S) : calls cb (front ++ back) env = calls cb back (calls cb front env) :=
  List.foldl_append

/-- What holds between two bytes, after `received`. -/
structure ControlSound (received : List UInt8) (mbap : MbapReader) : Prop where
  header : mbap.state = .header →
    0 ≤ mbap.ndx ∧ mbap.ndx + mbap.headerRemaining = 7 ∧ 1 ≤ mbap.headerRemaining
  pdu : mbap.state = .pdu →
    7 ≤ mbap.ndx ∧ mbap.ndx ≤ 260 ∧ mbap.ndx + mbap.dataRemaining = 6 + mbap.length.toNat
  held : front mbap.frame mbap.ndx.toNat <:+ received

/-- A reader the callback may be called with: the `length - 1` bytes at `frame[7]` are
bytes that were received. -/
structure Deliverable (received : List UInt8) (mbap : MbapReader) : Prop where
  length_low : 2 ≤ mbap.length.toNat
  length_high : mbap.length.toNat ≤ 254
  ndx : mbap.ndx = 6 + mbap.length.toNat
  pdu_low : 1 ≤ (mbap.length - 1).toNat
  pdu_high : (mbap.length - 1).toNat ≤ 253
  arrived : front mbap.frame (7 + (mbap.length - 1).toNat) <:+: received

theorem Deliverable.mono {received : List UInt8} {mbap : MbapReader}
    (deliverable : Deliverable received mbap) (more : List UInt8) :
    Deliverable (received ++ more) mbap where
  length_low := deliverable.length_low
  length_high := deliverable.length_high
  ndx := deliverable.ndx
  pdu_low := deliverable.pdu_low
  pdu_high := deliverable.pdu_high
  arrived := deliverable.arrived.trans (List.prefix_append received more).isInfix

theorem controlSound_readerAt {received : List UInt8} {frame : Vector UInt8 260} {count : Nat}
    (bound : count ≤ 260) (held : front frame count <:+ received) :
    ControlSound received (readerAt frame count) where
  header := by
    intro header
    rw [readerAt_ndx]
    by_cases low : count < 7
    · simp only [readerAt, low, if_true]
      omega
    · simp [readerAt, low] at header
  pdu := by
    intro body
    rw [readerAt_ndx]
    by_cases low : count < 7
    · simp [readerAt, low] at body
    · simp only [readerAt, low, if_false, lengthField]
      omega
  held := by simpa using held

theorem readerAt_length {frame : Vector UInt8 260} {count : Nat} (body : 7 ≤ count) :
    (readerAt frame count).length.toNat = lengthField frame := by
  have low : ¬ count < 7 := by omega
  simp [readerAt, low, lengthField]

/-- The PDU length `mbap->length - 1`, computed in sixteen bits. -/
theorem pred_toNat {length : UInt16} (positive : 1 ≤ length.toNat) :
    (length - 1).toNat = length.toNat - 1 :=
  UInt16.toNat_sub_of_le _ _ (UInt16.le_iff_toNat_le.mpr positive)

theorem deliverable_readerAt {received : List UInt8} {frame : Vector UInt8 260} {count : Nat}
    (body : 8 ≤ count) (bound : count ≤ 260) (complete : count = 6 + lengthField frame)
    (held : front frame count <:+ received) :
    Deliverable received (readerAt frame count) := by
  have length := @readerAt_length frame count (by omega)
  have pdu : ((readerAt frame count).length - 1).toNat = lengthField frame - 1 := by
    rw [pred_toNat (by omega), length]
  refine ⟨by omega, by omega, ?_, by omega, by omega, ?_⟩
  · rw [readerAt_ndx]
    omega
  · have whole : 7 + ((readerAt frame count).length - 1).toNat = count := by omega
    rw [whole, readerAt_frame]
    exact held.isInfix

theorem held_set {received : List UInt8} {frame : Vector UInt8 260} {count : Nat}
    (bound : count < 260) (held : front frame count <:+ received) (data : UInt8) :
    front (frame.set count data) (count + 1) <:+ received ++ [data] := by
  rw [front_set_succ _ bound]
  rcases held with ⟨before, rfl⟩
  exact ⟨before, by simp⟩

theorem held_none (frame : Vector UInt8 260) (received : List UInt8) :
    front frame 0 <:+ received := by
  rw [front_zero]
  exact List.nil_suffix

/-- One byte: no store outside the frame, and a callback at most for a frame that is
complete. -/
theorem step_sound (cb : MbapReader → S → MbapReader × S) {received : List UInt8}
    {frame : Vector UInt8 260} {count : Nat} (bound : count ≤ 260)
    (held : front frame count <:+ received) (env : S) (data : UInt8) :
    ∃ frame' count' delivered,
      mbapStateMachine cb (readerAt frame count, env) data =
        some (readerAt frame' count', calls cb delivered env) ∧
      count' ≤ 260 ∧ front frame' count' <:+ received ++ [data] ∧
      ∀ mbap ∈ delivered, Deliverable (received ++ [data]) mbap := by
  rcases Nat.lt_or_ge count 7 with header | body
  · exact ⟨_, _, [], step_header header env data, by omega, held_set (by omega) held data,
      by simp⟩
  rcases Nat.lt_or_ge count 260 with room | full
  · have next := held_set room held data
    by_cases completes : Completes frame count
    · let delivered := readerAt (frame.set count data) (count + 1)
      refine ⟨(cb delivered env).1.frame, 0, [delivered], ?_, by omega, held_none _ _, ?_⟩
      · rw [step_pdu body room, if_pos completes]
        rfl
      · intro mbap member
        obtain rfl := List.mem_singleton.mp member
        have length := @lengthField_set frame count room data body
        exact deliverable_readerAt (by omega) room (by rw [length]; exact completes.2) next
    · refine ⟨_, _, [], ?_, room, next, by simp⟩
      rw [step_pdu body room, if_neg completes]
      rfl
  · exact ⟨_, _, [], step_overflow full env data, by omega, held_none _ _, by simp⟩

theorem run_sound (cb : MbapReader → S → MbapReader × S) (bytes : List UInt8)
    {received : List UInt8} {frame : Vector UInt8 260} {count : Nat} (bound : count ≤ 260)
    (held : front frame count <:+ received) (env : S) :
    ∃ frame' count' delivered,
      bytes.foldlM (mbapStateMachine cb) (readerAt frame count, env) =
        some (readerAt frame' count', calls cb delivered env) ∧
      count' ≤ 260 ∧ front frame' count' <:+ received ++ bytes ∧
      ∀ mbap ∈ delivered, Deliverable (received ++ bytes) mbap := by
  induction bytes generalizing received frame count env with
  | nil => exact ⟨frame, count, [], rfl, bound, by simpa using held, by simp⟩
  | cons data bytes ih =>
      rcases step_sound cb bound held env data with
        ⟨frame₁, count₁, delivered₁, step, bound₁, held₁, sound₁⟩
      rcases ih bound₁ held₁ (calls cb delivered₁ env) with
        ⟨frame₂, count₂, delivered₂, run, bound₂, held₂, sound₂⟩
      have bytes_eq : received ++ [data] ++ bytes = received ++ data :: bytes := by simp
      rw [bytes_eq] at held₂ sound₂
      refine ⟨frame₂, count₂, delivered₁ ++ delivered₂, ?_, bound₂, held₂, ?_⟩
      · rw [List.foldlM_cons, step, calls_append]
        exact run
      · intro mbap member
        rcases List.mem_append.mp member with early | late
        · rw [← bytes_eq]
          exact (sound₁ mbap early).mono bytes
        · exact sound₂ mbap late

/-- On any bytes in any chunks no store leaves the frame, the counters stay tied, and
what the callback does to the environment comes from readers with a complete frame of
received bytes. -/
theorem mbapReader_safe (cb : MbapReader → S → MbapReader × S) (memory : MbapReader)
    (env : S) (chunks : List (List UInt8)) :
    ∃ mbap delivered,
      chunks.foldlM (mbapReaderFeed cb) (mbapReaderInit memory, env) =
        some (mbap, calls cb delivered env) ∧
      ControlSound chunks.flatten mbap ∧
      ∀ mbap ∈ delivered, Deliverable chunks.flatten mbap := by
  have start : mbapReaderInit memory = readerAt memory.frame 0 := mbapReaderReset_eq memory
  rcases run_sound cb chunks.flatten (Nat.zero_le 260) (held_none memory.frame []) env with
    ⟨frame, count, delivered, run, bound, held, sound⟩
  refine ⟨readerAt frame count, delivered, ?_, controlSound_readerAt bound held, sound⟩
  rw [start, ← run]
  exact foldlM_chunks (mbapStateMachine cb) chunks _

end KongjaExpress.Modbus
