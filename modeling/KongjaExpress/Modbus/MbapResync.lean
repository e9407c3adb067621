import KongjaExpress.Modbus.Adu

/-! What the reader does after an ADU whose length field it cannot serve: when the
ADU that follows is still delivered. -/

namespace KongjaExpress.Modbus

open BigEndian Memory Framing

def observe (mbap : MbapReader) (log : List MbapReader) : MbapReader × List MbapReader :=
  (mbap, log ++ [mbap])

/-- A new reader fed with `bytes`, and its deliveries. -/
def observed (memory : MbapReader) (bytes : List UInt8) : Option (MbapReader × List MbapReader) :=
  mbapReaderFeed observe (mbapReaderInit memory, []) bytes

/-- The log of a reader that has seen all of the first ADU and nothing else. -/
def DeliversAtMost (first : RawAdu) (log : List MbapReader) : Prop :=
  if InRange first.length.toNat then ∃ mbap, log = [mbap] ∧ Carries first mbap else log = []

/-- The second ADU is delivered at its last byte, unaltered, and nothing before it but
the first ADU where the reader can serve it. -/
def Resynchronises (memory : MbapReader) (first : RawAdu) (second : Adu) : Prop :=
  ∃ before after log last,
    observed memory (first.bytes ++ second.bytes.dropLast) = some (before, log) ∧
    observed memory (first.bytes ++ second.bytes) = some (after, log ++ [last]) ∧
    DeliversAtMost first log ∧ Carries second.toRawAdu last

/-- Whole frame buffers with one byte more each, none of which reads as a frame. -/
def Blocks (bytes : List UInt8) : Prop :=
  261 ∣ bytes.length ∧ ∀ i < bytes.length / 261, ¬ InRange (fieldAt bytes (261 * i))

instance (bytes : List UInt8) : Decidable (Blocks bytes) := inferInstanceAs (Decidable (_ ∧ _))

/-- The reader can serve the ADU, or the overflow resets consume exactly its bytes. -/
def Skippable (first : RawAdu) : Prop :=
  InRange first.length.toNat ∨ Blocks first.bytes

instance (first : RawAdu) : Decidable (Skippable first) := inferInstanceAs (Decidable (_ ∨ _))

variable {S : Type} {frame : Vector UInt8 260} {count : Nat}

/-- The reader advances by one or starts over. -/
theorem step_count (cb : MbapReader → S → MbapReader × S) (frame : Vector UInt8 260)
    (count : Nat) (env : S) (data : UInt8) :
    ∃ frame' count' env',
      mbapStateMachine cb (readerAt frame count, env) data = some (readerAt frame' count', env') ∧
      (count' = count + 1 ∨ count' = 0) := by
  rcases Nat.lt_or_ge count 7 with header | body
  · exact ⟨_, _, _, step_header header env data, .inl rfl⟩
  rcases Nat.lt_or_ge count 260 with room | full
  · have step := @step_pdu S cb frame count body room env data
    split at step
    · exact ⟨_, _, _, step, .inr rfl⟩
    · exact ⟨_, _, _, step, .inl rfl⟩
  · exact ⟨_, _, _, step_overflow full env data, .inr rfl⟩

theorem run_count (cb : MbapReader → S → MbapReader × S) (bytes : List UInt8)
    (frame : Vector UInt8 260) (count : Nat) (env : S) :
    ∃ frame' count' env',
      bytes.foldlM (mbapStateMachine cb) (readerAt frame count, env) =
        some (readerAt frame' count', env') ∧
      (count' = count + bytes.length ∨ count' < bytes.length) := by
  induction bytes generalizing frame count env with
  | nil => exact ⟨_, _, _, rfl, .inl rfl⟩
  | cons data bytes ih =>
      rcases step_count cb frame count env data with ⟨frame₁, count₁, env₁, step, moved⟩
      rcases ih frame₁ count₁ env₁ with ⟨frame₂, count₂, env₂, run, bound⟩
      refine ⟨frame₂, count₂, env₂, ?_, ?_⟩
      · rw [List.foldlM_cons, step]
        exact run
      · rw [List.length_cons]
        omega

theorem step_observed {log : List MbapReader} {data : UInt8} {next : MbapReader}
    {last : MbapReader}
    (step : mbapStateMachine observe (readerAt frame count, log) data =
      some (next, log ++ [last])) : last.ndx = count + 1 := by
  have differ : log ≠ log ++ [last] := by simp
  rcases Nat.lt_or_ge count 7 with header | body
  · rw [step_header header] at step
    simp at step
  rcases Nat.lt_or_ge count 260 with room | full
  · rw [step_pdu body room] at step
    split at step
    · simp only [observe, Option.some.injEq, Prod.mk.injEq, List.append_cancel_left_eq,
        List.cons.injEq, and_true] at step
      rw [← step.2, readerAt_ndx]
      rfl
    · simp at step
  · rw [step_overflow full] at step
    simp at step

theorem calls_observe (delivered log : List MbapReader) :
    calls observe delivered log = log ++ delivered := by
  induction delivered generalizing log with
  | nil => simp [calls]
  | cons mbap delivered ih =>
      calc calls observe (mbap :: delivered) log
          = calls observe delivered (log ++ [mbap]) := rfl
        _ = log ++ mbap :: delivered := by rw [ih]; simp

theorem started_over {log : List MbapReader} {adu : RawAdu} {before after last : MbapReader}
    (silent : adu.bytes.dropLast.foldlM (mbapStateMachine observe) (readerAt frame count, log) =
      some (before, log))
    (delivers : adu.bytes.foldlM (mbapStateMachine observe) (readerAt frame count, log) =
      some (after, log ++ [last]))
    (carries : Carries adu last) : count = 0 := by
  have size := adu.bytes_length
  rcases run_count observe adu.bytes.dropLast frame count log with
    ⟨frame₁, count₁, log₁, run, bound⟩
  rw [silent] at run
  obtain ⟨rfl, rfl⟩ : before = readerAt frame₁ count₁ ∧ log = log₁ := by simpa using run
  rw [← List.dropLast_append_getLast adu.bytes_ne_nil, List.foldlM_append, silent] at delivers
  have step : mbapStateMachine observe (readerAt frame₁ count₁, log)
      (adu.bytes.getLast adu.bytes_ne_nil) = some (after, log ++ [last]) := by
    simpa using delivers
  have fired := step_observed step
  have whole := carries.ndx
  rw [List.length_dropLast] at bound
  omega

theorem exists_header {bytes : List UInt8} (long : 7 ≤ bytes.length) :
    ∃ b₀ b₁ b₂ b₃ b₄ b₅ b₆ pdu,
      bytes = b₀ :: b₁ :: b₂ :: b₃ :: b₄ :: b₅ :: b₆ :: pdu := by
  rcases bytes with _ | ⟨b₀, _ | ⟨b₁, _ | ⟨b₂, _ | ⟨b₃, _ | ⟨b₄, _ | ⟨b₅, _ | ⟨b₆, pdu⟩⟩⟩⟩⟩⟩⟩
  case cons.cons.cons.cons.cons.cons.cons => exact ⟨_, _, _, _, _, _, _, _, rfl⟩
  all_goals exact absurd long (by simp)

theorem exists_adu {bytes : List UInt8} (inRange : InRange (fieldAt bytes 0))
    (size : bytes.length = 6 + fieldAt bytes 0) : ∃ adu : Adu, adu.bytes = bytes := by
  have low := inRange.1
  have high := inRange.2
  rcases @exists_header bytes (by omega) with
    ⟨b₀, b₁, b₂, b₃, b₄, b₅, b₆, pdu, rfl⟩
  change 2 ≤ (word b₄ b₅).toNat at low
  change (word b₄ b₅).toNat ≤ 254 at high
  change pdu.length + 7 = 6 + (word b₄ b₅).toNat at size
  let adu : Adu := {
    tid := word b₀ b₁, pid := word b₂ b₃, uid := b₆, pdu := pdu
    counted := by omega, nonempty := by omega, short := by omega }
  have length : adu.length = word b₄ b₅ := by
    apply UInt16.toNat_inj.mp
    rw [adu.length_toNat]
    change pdu.length + 1 = _
    omega
  refine ⟨adu, ?_⟩
  rw [RawAdu.bytes, RawAdu.header, length]
  simp [adu]

theorem run_grows (bytes : List UInt8) (frame : Vector UInt8 260) (count : Nat)
    (bound : count ≤ 260) (log : List MbapReader) :
    ∃ mbap delivered, bytes.foldlM (mbapStateMachine observe) (readerAt frame count, log) =
      some (mbap, log ++ delivered) := by
  rcases run_sound observe bytes bound List.suffix_rfl log with
    ⟨frame', count', delivered, run, -, -, -⟩
  rw [calls_observe] at run
  exact ⟨_, _, run⟩

theorem run_served (frame : Vector UInt8 260) (log : List MbapReader) {bytes : List UInt8}
    (inRange : InRange (fieldAt bytes 0)) (fits : 6 + fieldAt bytes 0 ≤ bytes.length) :
    ∃ mbap first rest, bytes.foldlM (mbapStateMachine observe) (readerAt frame 0, log) =
      some (mbap, log ++ first :: rest) := by
  have low := inRange.1
  have field : fieldAt (bytes.take (6 + fieldAt bytes 0)) 0 = fieldAt bytes 0 :=
    fieldAt_part (List.take_prefix _ _) (by rw [List.length_take]; omega)
  rcases @exists_adu (bytes.take (6 + fieldAt bytes 0)) (by rwa [field])
    (by rw [field, List.length_take]; omega) with ⟨adu, whole⟩
  rcases run_adu observe frame adu log with ⟨_, -, run⟩
  let first := delivered frame adu
  rcases run_grows (bytes.drop (6 + fieldAt bytes 0)) first.frame 0 (by omega) (log ++ [first])
    with ⟨mbap, rest, later⟩
  refine ⟨mbap, first, rest, ?_⟩
  calc bytes.foldlM (mbapStateMachine observe) (readerAt frame 0, log)
      = (adu.bytes ++ bytes.drop (6 + fieldAt bytes 0)).foldlM (mbapStateMachine observe)
          (readerAt frame 0, log) := by rw [whole, List.take_append_drop]
    _ = some (mbap, log ++ [first] ++ rest) := by
        rw [List.foldlM_append, run]
        exact later
    _ = some (mbap, log ++ first :: rest) := by simp

/-- One frame buffer and one byte more, with nothing delivered, are dropped. -/
theorem run_overflow (cb : MbapReader → S → MbapReader × S) (frame : Vector UInt8 260) (env : S)
    {bytes : List UInt8} (long : 261 ≤ bytes.length) (skips : ¬ InRange (fieldAt bytes 0)) :
    ∃ frame', bytes.foldlM (mbapStateMachine cb) (readerAt frame 0, env) =
      (bytes.drop 261).foldlM (mbapStateMachine cb) (readerAt frame' 0, env) := by
  have size : (bytes.take 260).length = 260 := by
    rw [List.length_take]
    omega
  have field : fieldAt (bytes.take 260) 0 = fieldAt bytes 0 :=
    fieldAt_part (List.take_prefix _ _) (by omega)
  have run := run_quiet cb frame env (bytes.take 260) size.le (by rw [field]; tauto)
  rw [size] at run
  refine ⟨blit frame 0 (bytes.take 260), ?_⟩
  have split : bytes.take 260 ++ bytes[260] :: bytes.drop 261 = bytes := by
    rw [← List.drop_eq_getElem_cons, List.take_append_drop]
  calc bytes.foldlM (mbapStateMachine cb) (readerAt frame 0, env)
      = (bytes.take 260 ++ bytes[260] :: bytes.drop 261).foldlM (mbapStateMachine cb)
          (readerAt frame 0, env) := by rw [split]
    _ = (bytes[260] :: bytes.drop 261).foldlM (mbapStateMachine cb)
          (readerAt (blit frame 0 (bytes.take 260)) 260, env) := by
        rw [List.foldlM_append, run]
        rfl
    _ = (bytes.drop 261).foldlM (mbapStateMachine cb)
          (readerAt (blit frame 0 (bytes.take 260)) 0, env) := by
        rw [List.foldlM_cons, step_overflow le_rfl]
        rfl

theorem blocks_drop {bytes : List UInt8} (long : 261 ≤ bytes.length)
    (skips : ¬ InRange (fieldAt bytes 0)) : Blocks bytes ↔ Blocks (bytes.drop 261) := by
  have length : bytes.length = (bytes.drop 261).length + 261 := by
    rw [List.length_drop]
    omega
  have field (i : Nat) : fieldAt (bytes.drop 261) (261 * i) = fieldAt bytes (261 * (i + 1)) := by
    simp only [fieldAt, List.getD_eq_getElem?_getD, List.getElem?_drop]
    congr 4 <;> omega
  have quotient : bytes.length / 261 = (bytes.drop 261).length / 261 + 1 := by omega
  have multiple : 261 ∣ bytes.length ↔ 261 ∣ (bytes.drop 261).length := by omega
  rw [Blocks, Blocks, quotient, multiple]
  refine and_congr_right fun _ => ⟨fun all i inside => ?_, fun all i inside => ?_⟩
  · rw [field]
    exact all (i + 1) (by omega)
  · cases i with
    | zero => exact skips
    | succ i => rw [← field]; exact all i (by omega)

/-- From a reader that holds nothing: it holds nothing again and has delivered nothing
exactly after whole blocks. -/
theorem run_blocks (bytes : List UInt8) (frame : Vector UInt8 260) (log : List MbapReader) :
    ∃ frame' count' log',
      bytes.foldlM (mbapStateMachine observe) (readerAt frame 0, log) =
        some (readerAt frame' count', log') ∧
      ((count' = 0 ∧ log' = log) ↔ Blocks bytes) := by
  induction size : bytes.length using Nat.strong_induction_on generalizing bytes frame with
  | _ n ih =>
      subst size
      by_cases served : InRange (fieldAt bytes 0) ∧ 6 + fieldAt bytes 0 ≤ bytes.length
      · rcases run_served frame log served.1 served.2 with ⟨mbap, first, rest, run⟩
        rcases run_count observe bytes frame 0 log with ⟨frame', count', log', run', -⟩
        obtain ⟨-, rfl⟩ : mbap = readerAt frame' count' ∧ log ++ first :: rest = log' := by
          rw [run] at run'
          simpa using run'
        refine ⟨frame', count', _, run', iff_of_false (by simp) ?_⟩
        rintro ⟨whole, skips⟩
        have low := served.1.1
        exact skips 0 (by omega) served.1
      · rcases Nat.lt_or_ge bytes.length 261 with short | long
        · refine ⟨_, _, log, run_quiet observe frame log bytes (by omega) served, ?_⟩
          constructor
          · rintro ⟨empty, -⟩
            exact ⟨by omega, fun i inside => by omega⟩
          · rintro ⟨whole, -⟩
            exact ⟨by omega, rfl⟩
        · have skips : ¬ InRange (fieldAt bytes 0) := by
            intro inRange
            have := inRange.2
            exact served ⟨inRange, by omega⟩
          rcases run_overflow observe frame log long skips with ⟨frame₁, restart⟩
          rcases ih (bytes.drop 261).length (by rw [List.length_drop]; omega)
            (bytes.drop 261) frame₁ rfl with ⟨frame₂, count₂, log₂, run, exactly⟩
          refine ⟨frame₂, count₂, log₂, by rw [restart, run], ?_⟩
          rw [exactly, blocks_drop long skips]

/-- After the first ADU alone: nothing is held and only it was delivered exactly if it
is skippable. -/
theorem run_first (first : RawAdu) (frame : Vector UInt8 260) :
    ∃ frame' count' log,
      first.bytes.foldlM (mbapStateMachine observe) (readerAt frame 0, []) =
        some (readerAt frame' count', log) ∧
      ((count' = 0 ∧ DeliversAtMost first log) ↔ Skippable first) := by
  by_cases inRange : InRange first.length.toNat
  · have low := inRange.1
    have high := inRange.2
    have counted := first.length_toNat
    let adu : Adu := { first with nonempty := by omega, short := by omega }
    rcases run_adu observe frame adu [] with ⟨_, -, run⟩
    refine ⟨_, 0, [delivered frame adu], run, iff_of_true ⟨rfl, ?_⟩ (.inl inRange)⟩
    rw [DeliversAtMost, if_pos inRange]
    exact ⟨_, rfl, delivered_carries frame adu⟩
  · rcases run_blocks first.bytes frame [] with ⟨frame', count', log, run, exactly⟩
    refine ⟨frame', count', log, run, ?_⟩
    rw [DeliversAtMost, if_neg inRange, exactly, Skippable, or_iff_right inRange]

theorem run_bound {cb : MbapReader → S → MbapReader × S} {bytes : List UInt8}
    {frame frame' : Vector UInt8 260} {count : Nat} {env env' : S}
    (run : bytes.foldlM (mbapStateMachine cb) (readerAt frame 0, env) =
      some (readerAt frame' count, env')) : count ≤ 260 := by
  rcases run_sound cb bytes (Nat.zero_le 260) (held_none frame []) env with
    ⟨frame₁, count₁, delivered, run₁, bound, -, -⟩
  rw [run] at run₁
  have same : readerAt frame' count = readerAt frame₁ count₁ := by
    simpa using congrArg (Option.map Prod.fst) run₁
  have ndx : (count : Int) = count₁ := by
    rw [← readerAt_ndx frame' count, same, readerAt_ndx]
  omega

theorem resynchronises_iff (memory : MbapReader) (first : RawAdu) (second : Adu) :
    Resynchronises memory first second ↔ Skippable first := by
  rcases run_first first memory.frame with ⟨frame, count, log, run, exactly⟩
  have resume (bytes : List UInt8) : observed memory (first.bytes ++ bytes) =
      bytes.foldlM (mbapStateMachine observe) (readerAt frame count, log) := by
    rw [observed, mbapReaderFeed, mbapReaderInit, mbapReaderReset_eq, List.foldlM_append, run]
    rfl
  rw [Resynchronises, ← exactly]
  simp only [resume]
  constructor
  · rintro ⟨before, after, log', last, silent, delivers, atMost, carries⟩
    by_cases inRange : InRange first.length.toNat
    · exact exactly.mpr (.inl inRange)
    · -- nothing is delivered before the second ADU's last byte, so its first byte met a
      -- reader that held nothing
      rw [DeliversAtMost, if_neg inRange] at atMost ⊢
      subst atMost
      rcases run_grows second.bytes.dropLast frame count (run_bound run) log with
        ⟨mbap, delivered, grown⟩
      rw [silent] at grown
      obtain ⟨-, empty⟩ : before = mbap ∧ [] = log ++ delivered := by simpa using grown
      obtain rfl : log = [] := (List.append_eq_nil_iff.mp empty.symm).1
      exact ⟨started_over silent delivers carries, rfl⟩
  · rintro ⟨rfl, atMost⟩
    rcases run_adu observe frame second log with ⟨before, silent, delivers⟩
    exact ⟨before, _, log, _, silent, delivers, atMost, delivered_carries frame second⟩

/-- After an ADU without a PDU the next one is swallowed. -/
theorem resynchronises_fails :
    ¬ Resynchronises (readerAt (.replicate 260 0) 0)
      { tid := 1, pid := 0, uid := 1, pdu := [], counted := by decide }
      { tid := 2, pid := 0, uid := 1, pdu := [3, 0, 0, 0, 1], counted := by decide,
        nonempty := by decide, short := by decide } := by
  rintro ⟨_, after, log, last, -, delivers, -, -⟩
  have nothing : (observed (readerAt (.replicate 260 0) 0)
      [0, 1, 0, 0, 0, 1, 1, 0, 2, 0, 0, 0, 6, 1, 3, 0, 0, 0, 1]).map (fun s => s.2.length) =
        some 0 := by
    decide +kernel
  have counts := congrArg (Option.map fun s => s.2.length) delivers
  simp only [Option.map_some, List.length_append, List.length_singleton] at counts
  have both := nothing.symm.trans counts
  simp at both

end KongjaExpress.Modbus
