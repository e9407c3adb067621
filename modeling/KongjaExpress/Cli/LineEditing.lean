import KongjaExpress.Cli.Cli
import KongjaExpress.Library.Framing
import KongjaExpress.Library.LineEditor
import KongjaExpress.Library.Run

/-! The line that is typed at an interface: where it is stored, and which line a carriage return
executes. -/

namespace KongjaExpress.Cli

open Memory LineEditor

variable {E : Type}

abbrev Deletes (b : UInt8) : Prop := b = 0x08 ∨ b = 0x7f

/-- Where one round of the loop of `cli_handle_rx` stores in `cmd_buffer`, a character or the
terminating zero. The zeros of `strtok_r` come to stand in front of that one. -/
def storeIndex (intf : CliIntf) (b : UInt8) : Option Nat :=
  if b = cliEolChar then some intf.cmdBufferNdx.toNat
  else if intf.cmdBufferNdx < 252 ∧ ¬ Deletes b then some intf.cmdBufferNdx.toNat else none

/-- The line behind a byte, in a buffer that takes no key when it is full. -/
def nextLine (line : List UInt8) (b : UInt8) : List UInt8 :=
  if b = cliEolChar then [] else editUntilFull Deletes 252 line b

def nextCount (count : Nat) (b : UInt8) : Nat :=
  if b = cliEolChar then 0 else countUntilFull Deletes 252 count b

def WithinLine (intf : CliIntf) : Prop := intf.cmdBufferNdx.toNat ≤ 252

theorem line_length {intf : CliIntf} (within : WithinLine intf) :
    intf.line.length = intf.cmdBufferNdx.toNat :=
  front_length _ (Nat.le_trans within (by decide))

theorem nextLine_length (line : List UInt8) (b : UInt8) :
    (nextLine line b).length = nextCount line.length b := by
  unfold nextLine nextCount
  split_ifs
  · rfl
  · exact editUntilFull_length b

theorem foldl_nextLine (bytes line : List UInt8) :
    (bytes.foldl nextLine line).length = bytes.foldl nextCount line.length := by
  induction bytes generalizing line with
  | nil => rfl
  | cons b bytes ih => rw [List.foldl_cons, List.foldl_cons, ih, nextLine_length]

section Step

variable {ctx : CliContext E} {intf after : CliIntf} {env env' : E} {b : UInt8}

/-- A byte that is stored ends the line, or there is room for it. -/
theorem storeIndex_cases {i : Nat} (stores : i ∈ storeIndex intf b) :
    i = intf.cmdBufferNdx.toNat ∧ (b = cliEolChar ∨ i < 252) := by
  rw [storeIndex] at stores
  split_ifs at stores with eol plain
  · exact ⟨(Option.some.inj stores).symm, .inl eol⟩
  · obtain rfl := Option.some.inj stores
    exact ⟨rfl, .inr (UInt8.lt_iff_toNat_lt.mp plain.1)⟩
  · cases stores

theorem delete_line (within : WithinLine intf) (stored : 0 < intf.cmdBufferNdx) :
    WithinLine { intf with cmdBufferNdx := intf.cmdBufferNdx - 1 } ∧
      CliIntf.line { intf with cmdBufferNdx := intf.cmdBufferNdx - 1 } = intf.line.dropLast := by
  have moved := ndx_pred stored
  have bound : intf.cmdBufferNdx.toNat ≤ 252 := within
  constructor
  · change (intf.cmdBufferNdx - 1).toNat ≤ 252
    omega
  · rw [CliIntf.line, CliIntf.line, ← moved, front_succ _ (by omega), List.dropLast_concat]

theorem type_line (room : intf.cmdBufferNdx.toNat < 252) (inside : intf.cmdBufferNdx.toNat < 255)
    (b : UInt8) :
    WithinLine ⟨intf.cmdBufferNdx + 1, intf.cmdBuffer.set intf.cmdBufferNdx.toNat b inside⟩ ∧
      CliIntf.line ⟨intf.cmdBufferNdx + 1, intf.cmdBuffer.set intf.cmdBufferNdx.toNat b inside⟩ =
        intf.line ++ [b] := by
  have moved := ndx_succ room
  constructor
  · rw [WithinLine, moved]
    omega
  · rw [CliIntf.line, CliIntf.line, moved, front_set_succ _ inside]

theorem cliHandleByte_deletes (within : WithinLine intf) (room : intf.cmdBufferNdx.toNat < 252)
    (deletes : Deletes b) (ran : cliHandleByte ctx (intf, env) b = some (after, env')) :
    WithinLine after ∧ after.line = intf.line.dropLast := by
  rw [cliHandleByte_delete ctx deletes room, Option.some.injEq] at ran
  split_ifs at ran with stored
  · obtain ⟨rfl, -⟩ := Prod.mk.inj ran
    exact delete_line within stored
  · obtain ⟨rfl, -⟩ := Prod.mk.inj ran
    have none : intf.line = [] := by
      rw [← List.length_eq_zero_iff, line_length within]
      rw [UInt8.lt_iff_toNat_lt] at stored
      exact Nat.eq_zero_of_not_pos stored
    exact ⟨within, by rw [none]; rfl⟩

theorem cliHandleByte_ends
    (ran : cliHandleByte ctx (intf, env) cliEolChar = some (after, env')) :
    WithinLine after ∧ after.line = [] := by
  by_cases inside : intf.cmdBufferNdx < 255
  · rcases (cliHandleByte_eol ctx intf env).1 inside with ⟨cmdBuffer, ran'⟩
    rw [ran', Option.map_eq_some_iff] at ran
    rcases ran with ⟨_, -, same⟩
    obtain ⟨rfl, -⟩ := Prod.mk.inj same
    exact ⟨Nat.zero_le 252, front_zero _⟩
  · rw [(cliHandleByte_eol ctx intf env).2 inside] at ran
    cases ran

theorem cliHandleByte_line (within : WithinLine intf)
    (ran : cliHandleByte ctx (intf, env) b = some (after, env')) :
    WithinLine after ∧ after.line = nextLine intf.line b := by
  by_cases eol : b = cliEolChar
  · subst eol
    rw [nextLine, if_pos rfl]
    exact cliHandleByte_ends ran
  rw [nextLine, if_neg eol, editUntilFull, edit, line_length within]
  by_cases room : intf.cmdBufferNdx.toNat < 252
  · rw [if_pos room]
    by_cases deletes : Deletes b
    · rw [if_pos deletes]
      exact cliHandleByte_deletes within room deletes ran
    · rw [if_neg deletes, if_pos room]
      rw [cliHandleByte_plain ctx ⟨eol, not_or.mp deletes⟩ room] at ran
      obtain ⟨rfl, -⟩ := Prod.mk.inj (Option.some.inj ran)
      exact type_line room _ b
  · rw [if_neg room]
    rw [cliHandleByte_full ctx room eol env] at ran
    obtain ⟨rfl, -⟩ := Prod.mk.inj (Option.some.inj ran)
    exact ⟨within, rfl⟩

end Step

theorem cliHandleRx_line {ctx : CliContext E} {intf after : CliIntf} {env env' : E}
    {data : List UInt8} (within : WithinLine intf)
    (ran : cliHandleRx ctx (intf, env) data = some (after, env')) :
    WithinLine after ∧ after.line = data.foldl nextLine intf.line := by
  induction data generalizing intf env with
  | nil =>
      obtain ⟨rfl, -⟩ := Prod.mk.inj (Option.some.inj ran)
      exact ⟨within, rfl⟩
  | cons b data ih =>
      rcases Run.foldlM_cons_some ran with ⟨⟨next, env''⟩, taken, rest⟩
      have step := cliHandleByte_line within taken
      rw [List.foldl_cons, ← step.2]
      exact ih step.1 rest

theorem parseArgs_length (room : Nat) (cmd : List UInt8) :
    (parseArgs room cmd).2.length = cmd.length := by
  induction room generalizing cmd with
  | zero =>
      rw [parseArgs]
      cases found : Tokens.strtokR isBlank cmd with
      | none => rfl
      | some token =>
          rw [← Tokens.strtokR_length found]
          exact List.length_append
  | succ room ih =>
      rw [parseArgs]
      cases found : Tokens.strtokR isBlank cmd with
      | none => rfl
      | some token =>
          have rest := ih token.rest
          rw [← Tokens.strtokR_length found, ← rest]
          exact List.length_append

theorem cliExecuteCommand_length {ctx : CliContext E} {cmd left : List UInt8} {env env' : E}
    (ran : cliExecuteCommand ctx cmd env = some (left, env')) : left.length = cmd.length := by
  have parsed := parseArgs_length 16 cmd
  rw [cliExecuteCommand] at ran
  generalize parseArgs 16 cmd = outcome at ran parsed
  rcases outcome with ⟨_ | argv, rest⟩
  · rcases Option.map_eq_some_iff.mp ran with ⟨_, -, same⟩
    rw [← (Prod.mk.inj same).1]
    exact parsed
  · rcases Option.map_eq_some_iff.mp ran with ⟨_, -, same⟩
    rw [← (Prod.mk.inj same).1]
    exact parsed

section Chunks

/-- The interface when whole chunks and a part of the next one have been handled. -/
def handled (ctx : CliContext E) (start : CliIntf × E) (whole : List (List UInt8))
    (part : List UInt8) : Option (CliIntf × E) :=
  (whole.foldlM (cliHandleRx ctx) start).bind fun intf => cliHandleRx ctx intf part

def Begins (chunks whole : List (List UInt8)) (part : List UInt8) : Prop :=
  ∃ rest later, chunks = whole ++ (part ++ rest) :: later

variable {ctx : CliContext E} {start : CliIntf × E} {chunks whole : List (List UInt8)}
  {part : List UInt8}

theorem handled_eq : handled ctx start whole part =
    cliHandleRx ctx start (whole.flatten ++ part) := by
  have joined := Framing.foldlM_chunks (cliHandleByte ctx) whole start
  rw [handled, cliHandleRx, List.foldlM_append, ← joined]
  rfl

theorem handled_line (empty : start.1.cmdBufferNdx = 0) {now : CliIntf} {env : E}
    (ran : handled ctx start whole part = some (now, env)) :
    WithinLine now ∧ now.line = (whole.flatten ++ part).foldl nextLine [] := by
  rw [handled_eq] at ran
  have begins : start.1.line = [] := by
    rw [CliIntf.line, empty]
    exact front_zero _
  have within : WithinLine start.1 := by
    rw [WithinLine, empty]
    exact Nat.zero_le 252
  have run := cliHandleRx_line within ran
  rwa [begins] at run

/-- Every store in `cmd_buffer` is inside it, and so is `cmd_buffer_ndx` between the rounds. -/
structure LineInside (ctx : CliContext E) (start : CliIntf × E) (chunks : List (List UInt8)) :
    Prop where
  ndx : ∀ whole part, Begins chunks whole part → ∀ now env,
    handled ctx start whole part = some (now, env) → now.cmdBufferNdx.toNat ≤ 252
  stores : ∀ whole part b, Begins chunks whole (part ++ [b]) → ∀ now env,
    handled ctx start whole part = some (now, env) → ∀ i ∈ storeIndex now b, i < 252
  executes : ∀ cmd env left env', cliExecuteCommand ctx cmd env = some (left, env') →
    left.length = cmd.length

/-- In every chunking the stores are inside the buffer if and only if every carriage return
finds fewer characters than the buffer has. -/
theorem cmd_buffer_iff (ctx : CliContext E) (intf : CliIntf) (env : E)
    (empty : intf.cmdBufferNdx = 0) (chunks : List (List UInt8)) :
    LineInside ctx (intf, env) chunks ↔
      ∀ whole part, Begins chunks whole (part ++ [cliEolChar]) →
        (handled ctx (intf, env) whole part).isSome →
          (whole.flatten ++ part).foldl nextCount 0 < 252 := by
  have count {whole : List (List UInt8)} {part : List UInt8} {now : CliIntf} {env' : E}
      (ran : handled ctx (intf, env) whole part = some (now, env')) :
      now.cmdBufferNdx.toNat = (whole.flatten ++ part).foldl nextCount 0 := by
    have reached := handled_line empty ran
    rw [← line_length reached.1, reached.2]
    exact foldl_nextLine _ []
  constructor
  · intro inside whole part begins reached
    rcases Option.isSome_iff_exists.mp reached with ⟨⟨now, env'⟩, ran⟩
    rw [← count ran]
    exact inside.stores whole part cliEolChar begins now env' ran _ (if_pos rfl)
  · intro short
    refine ⟨?_, ?_, fun _ _ _ _ => cliExecuteCommand_length⟩
    · intro whole part _ now env' ran
      exact (handled_line empty ran).1
    · intro whole part b begins now env' ran i stored
      rcases storeIndex_cases stored with ⟨rfl, rfl | room⟩
      · rw [count ran]
        exact short whole part begins (Option.isSome_of_eq_some ran)
      · exact room

def LinesEnded (earlier : List UInt8) : Prop :=
  earlier = [] ∨ ∃ before, earlier = before ++ [cliEolChar]

/-- Behind whole lines, the keys alone make the line. -/
theorem nextLine_keys {earlier keys : List UInt8} (ended : LinesEnded earlier)
    (keysOnly : cliEolChar ∉ keys) :
    (earlier ++ keys).foldl nextLine [] = keys.foldl (editUntilFull Deletes 252) [] := by
  have fresh : earlier.foldl nextLine [] = [] := by
    rcases ended with rfl | ⟨before, rfl⟩
    · rfl
    · rw [List.foldl_append, List.foldl_cons, nextLine, if_pos rfl]
      rfl
  rw [List.foldl_append, fresh]
  apply List.foldl_ext
  intro line b member
  have key : b ≠ cliEolChar := fun same => keysOnly (same ▸ member)
  rw [nextLine, if_neg key]

/-- Every command returns that was called for a line of these bytes. -/
def CommandsReturn (ctx : CliContext E) (start : CliIntf × E) (bytes : List UInt8) : Prop :=
  ∀ front, front ++ [cliEolChar] <+: bytes → ∀ now env,
    cliHandleRx ctx start front = some (now, env) → (runLine ctx (typedWords now) env).isSome

/-- The carriage returns on full lines are survived as well: their zero goes into the padding. -/
theorem cliHandleByte_goes {intf : CliIntf} {env : E} {b : UInt8} (within : WithinLine intf)
    (returns : b = cliEolChar → (runLine ctx (typedWords intf) env).isSome) :
    (cliHandleByte ctx (intf, env) b).isSome := by
  have bound : intf.cmdBufferNdx.toNat ≤ 252 := within
  by_cases eol : b = cliEolChar
  · have inside : intf.cmdBufferNdx < 255 :=
      UInt8.lt_iff_toNat_lt.mpr (Nat.lt_of_le_of_lt bound (by decide))
    rcases (cliHandleByte_eol ctx intf env).1 inside with ⟨cmdBuffer, same⟩
    rw [eol, same, Option.isSome_map]
    exact returns eol
  · by_cases room : intf.cmdBufferNdx.toNat < 252
    · by_cases deletes : Deletes b
      · rw [cliHandleByte_delete ctx deletes room]
        rfl
      · rw [cliHandleByte_plain ctx ⟨eol, not_or.mp deletes⟩ room]
        rfl
    · rw [cliHandleByte_full ctx room eol]
      rfl

theorem cliHandleRx_goes {bytes : List UInt8} (within : WithinLine start.1)
    (returns : CommandsReturn ctx start bytes) : (cliHandleRx ctx start bytes).isSome := by
  induction bytes using List.reverseRecOn with
  | nil => rfl
  | append_singleton bytes b ih =>
      have earlier : CommandsReturn ctx start bytes := by
        intro front ends
        exact returns front (ends.trans (List.prefix_append bytes [b]))
      rcases Option.isSome_iff_exists.mp (ih earlier) with ⟨⟨now, env⟩, ran⟩
      have step : (cliHandleByte ctx (now, env) b).isSome := by
        apply cliHandleByte_goes (cliHandleRx_line within ran).1
        rintro rfl
        exact returns bytes List.prefix_rfl now env ran
      rw [cliHandleRx, List.foldlM_append]
      change ((cliHandleRx ctx start bytes).bind fun s => [b].foldlM (cliHandleByte ctx) s).isSome
      rw [ran, Option.bind_some, List.foldlM_cons]
      simpa using step

/-- Every carriage return is reached, if the commands of the lines before it return, and the line
that it ends is what the reference editor makes of the keys since the one before. -/
def EditsLines (ctx : CliContext E) (start : CliIntf × E) (chunks : List (List UInt8)) : Prop :=
  ∀ whole part, Begins chunks whole (part ++ [cliEolChar]) →
    CommandsReturn ctx start (whole.flatten ++ part) →
    ∀ earlier keys, whole.flatten ++ part = earlier ++ keys → LinesEnded earlier →
      cliEolChar ∉ keys → ∃ now env, handled ctx start whole part = some (now, env) ∧
        now.line = keys.foldl (edit Deletes 252) []

/-- Every line ends, for the reference editor, as it was when it first was full. -/
def KeepsFullLines (ctx : CliContext E) (start : CliIntf × E) (chunks : List (List UInt8)) :
    Prop :=
  ∀ whole part, Begins chunks whole (part ++ [cliEolChar]) →
    CommandsReturn ctx start (whole.flatten ++ part) →
    ∀ earlier keys, whole.flatten ++ part = earlier ++ keys → LinesEnded earlier →
      cliEolChar ∉ keys → KeptWhenFull Deletes 252 [] keys

end Chunks

section Runs

theorem begins_length {chunks whole : List (List UInt8)} {part : List UInt8}
    (begins : Begins chunks whole part) :
    (whole.flatten ++ part).length ≤ chunks.flatten.length := by
  rcases begins with ⟨rest, later, rfl⟩
  simp only [List.flatten_append, List.flatten_cons, List.length_append]
  omega

theorem begins_mem {chunks whole : List (List UInt8)} {part : List UInt8}
    (begins : Begins chunks whole part) {b : UInt8} (member : b ∈ whole.flatten ++ part) :
    b ∈ chunks.flatten := by
  rcases begins with ⟨rest, later, rfl⟩
  rw [List.flatten_append, List.flatten_cons, ← List.append_assoc, ← List.append_assoc]
  exact List.mem_append_left _ (List.mem_append_left _ member)

theorem foldl_nextCount_le (bytes : List UInt8) (count : Nat) :
    bytes.foldl nextCount count ≤ count + bytes.length := by
  induction bytes generalizing count with
  | nil => exact le_rfl
  | cons b bytes ih =>
      have step : nextCount count b ≤ count + 1 := by
        unfold nextCount countUntilFull
        split_ifs <;> omega
      rw [List.foldl_cons, List.length_cons]
      calc bytes.foldl nextCount (nextCount count b) ≤ nextCount count b + bytes.length := ih _
        _ ≤ count + (bytes.length + 1) := by omega

def quietContext : CliContext Unit := ⟨[], fun _ env => env, fun _ _ env => env⟩

def emptyLine : CliIntf := ⟨0, .replicate 255 0⟩

theorem begins_only (chunk : List UInt8) : Begins [chunk] [] chunk :=
  ⟨[], [], by rw [List.append_nil, List.nil_append]⟩

/-- A line of one character. -/
theorem cmd_buffer_single : LineInside quietContext (emptyLine, ()) [[97, 13]] := by
  apply (cmd_buffer_iff quietContext emptyLine () rfl [[97, 13]]).mpr
  intro whole part begins _
  have size := begins_length begins
  have count := foldl_nextCount_le (whole.flatten ++ part) 0
  simp only [List.length_append, List.flatten_cons, List.flatten_nil, List.length_cons,
    List.length_nil] at size count
  omega

section Filled

variable {keys : List UInt8} (plain : ∀ b ∈ keys, Plain b) (size : keys.length = 252)

include plain size

theorem fills_line : ∃ full, cliHandleRx quietContext (emptyLine, ()) keys = some (full, ()) ∧
    full.cmdBufferNdx.toNat = 252 := by
  have start : emptyLine.cmdBufferNdx.toNat = 0 := rfl
  have fits : emptyLine.cmdBufferNdx.toNat + keys.length ≤ 252 := by rw [start, size]
  rcases cliHandleRx_plain quietContext plain fits () with ⟨full, ran, count, -⟩
  rw [start, size] at count
  exact ⟨full, ran, count⟩

theorem filled_overrun :
    ¬ LineInside quietContext (emptyLine, ()) [keys ++ [cliEolChar]] := by
  intro inside
  rcases fills_line plain size with ⟨full, ran, count⟩
  have stored : 252 ∈ storeIndex full cliEolChar := by
    rw [storeIndex, if_pos rfl, count]
    exact Option.mem_some_self 252
  have bound := inside.stores [] keys cliEolChar (begins_only _) full () ran 252 stored
  exact absurd bound (Nat.lt_irrefl 252)

theorem filled_stuck :
    ¬ EditsLines quietContext (emptyLine, ()) [keys ++ [8] ++ [cliEolChar]] := by
  intro same
  rcases fills_line plain size with ⟨full, ran, count⟩
  have ignored : cliHandleByte quietContext (full, ()) 8 = some (full, ()) :=
    cliHandleByte_full quietContext (by rw [count]; exact Nat.lt_irrefl 252) (by decide) ()
  have reached : handled quietContext (emptyLine, ()) [] (keys ++ [8]) = some (full, ()) := by
    rw [handled_eq, List.flatten_nil, List.nil_append, cliHandleRx, List.foldlM_append]
    change (cliHandleRx quietContext (emptyLine, ()) keys).bind _ = _
    rw [ran, Option.bind_some, List.foldlM_cons, ignored]
    rfl
  have keysOnly : cliEolChar ∉ keys ++ [8] := by
    intro member
    rcases List.mem_append.mp member with member | member
    · exact (plain _ member).1 rfl
    · exact absurd member (by decide)
  have returns : CommandsReturn quietContext (emptyLine, ()) (keys ++ [8]) := by
    intro front ends
    exact absurd (ends.subset (List.mem_append_right front (List.mem_singleton_self _))) keysOnly
  rcases same [] (keys ++ [8]) (begins_only _) returns [] (keys ++ [8])
    rfl (.inl rfl) keysOnly with ⟨now, env, ran', line⟩
  obtain ⟨rfl, -⟩ := Prod.mk.inj (Option.some.inj (reached.symm.trans ran'))
  have edited : (keys ++ [8]).foldl (edit Deletes 252) [] = keys.dropLast := by
    rw [List.foldl_append, edit_adds (fun b member => not_or.mpr (plain b member).2)
      (by rw [size]; exact le_rfl), List.nil_append]
    rfl
  have length := congrArg List.length line
  rw [line_length (handled_line rfl reached).1, count, edited, List.length_dropLast, size]
    at length
  exact absurd length (by decide)

end Filled

def fillingKeys : List UInt8 := List.replicate 252 97

theorem fillingKeys_plain {b : UInt8} (member : b ∈ fillingKeys) : Plain b := by
  rw [List.eq_of_mem_replicate member]
  exact ⟨by decide, by decide, by decide⟩

theorem fillingKeys_length : fillingKeys.length = 252 := List.length_replicate

/-- The zero behind a line that fills the buffer. -/
theorem cmd_buffer_overrun :
    ¬ LineInside quietContext (emptyLine, ()) [fillingKeys ++ [cliEolChar]] :=
  filled_overrun (fun _ => fillingKeys_plain) fillingKeys_length

end Runs

end KongjaExpress.Cli
