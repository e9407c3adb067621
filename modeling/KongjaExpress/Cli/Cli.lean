import KongjaExpress.Library.Memory
import KongjaExpress.Library.Tokens

/-! The command line interface of `cli.c`. `none` is an access outside an array. -/

namespace KongjaExpress.Cli

open Memory Tokens

def ascii (s : String) : List UInt8 := s.toList.map fun c => UInt8.ofNat c.toNat

def cliEol : List UInt8 := ascii "\r\n"

/-- The line buffer of a `cli_intf_t`: its `cmd_buffer[CLI_MAX_COMMAND_LEN]`, and behind that the
three bytes of padding in front of `put_tx_data`. -/
structure CliIntf where
  cmdBufferNdx : UInt8
  cmdBuffer : Vector UInt8 255
  deriving DecidableEq, Repr

/-- `cli_command_t`; a handler acts on the environment of the interface. -/
structure CliCommand (E : Type) where
  command : List UInt8
  helpStr : List UInt8
  handler : List (List UInt8) → E → Option E

/-- What an interface is set up with: the user commands and `put_tx_data`. The calls of
handlers are noted. -/
structure CliContext (E : Type) where
  userCommands : List (CliCommand E)
  putTxData : List UInt8 → E → E
  invoked : List UInt8 → List (List UInt8) → E → E

variable {E : Type}

/-- `vsnprintf` writes at most 511 bytes and a zero to `_print_buffer[513]`, and
returns the length of the whole text. -/
def cliPrintf (ctx : CliContext E) (text : List UInt8) (env : E) : Option E :=
  if text.length ≤ 513 then
    some (ctx.putTxData ((text.take 511 ++ [0, 0]).take text.length) env)
  else none

def cliPrompt (ctx : CliContext E) (env : E) : E := ctx.putTxData (ascii "\r\nkjexpr > ") env

/-- The names and help texts of `_core_commands`. -/
def coreTexts : List (List UInt8 × List UInt8) :=
  [(ascii "help", ascii "show this command"), (ascii "version", ascii "show version")]

/-- The format `%-10s`. -/
def leftAligned (text : List UInt8) : List UInt8 := text ++ List.replicate (10 - text.length) 0x20

def cliCommandHelp (ctx : CliContext E) (_argv : List (List UInt8)) (env : E) : Option E := do
  let env ← cliPrintf ctx cliEol env
  let texts := coreTexts ++ ctx.userCommands.map fun command => (command.command, command.helpStr)
  texts.foldlM (fun env (command, helpStr) => do
    let env ← cliPrintf ctx (leftAligned command ++ ascii ": ") env
    cliPrintf ctx (helpStr ++ cliEol) env) env

def cliCommandVersion (ctx : CliContext E) (_argv : List (List UInt8)) (env : E) : Option E := do
  let env ← cliPrintf ctx cliEol env
  cliPrintf ctx (ascii "KongjaExpress CLI V1.0" ++ cliEol) env

def coreCommands (ctx : CliContext E) : List (CliCommand E) :=
  List.zipWith (fun (command, helpStr) handler => ⟨command, helpStr, handler⟩) coreTexts
    [cliCommandHelp ctx, cliCommandVersion ctx]

def isBlank (byte : UInt8) : Bool := byte = 0x20 || byte = 0x09

/-- The loop over `strtok_r`, with `room` entries of `argv` free: the arguments, unless there
are too many, and what the loop leaves of the line. -/
def parseArgs : Nat → List UInt8 → Option (List (List UInt8)) × List UInt8
  | room, line =>
      match strtokR isBlank line with
      | none => (some [], line)
      | some token =>
          match room with
          | 0 => (none, token.passed ++ token.rest)
          | room + 1 =>
              let (argv, left) := parseArgs room token.rest
              (argv.map (token.word :: ·), token.passed ++ left)

def dispatch (ctx : CliContext E) (argv : List (List UInt8)) (env : E) : Option E :=
  match argv with
  | [] => some env
  | name :: _ =>
      let found :=
        match (coreCommands ctx).find? (·.command = name) with
        | some command => some command
        | none => ctx.userCommands.find? (·.command = name)
      match found with
      | some command => do
          let env ← cliPrintf ctx (cliEol ++ ascii "Executing " ++ name ++ cliEol) env
          command.handler argv (ctx.invoked name argv env)
      | none => do
          let env ← cliPrintf ctx (cliEol ++ ascii "Unknown Command: ") env
          let env ← cliPrintf ctx name env
          cliPrintf ctx cliEol env

/-- The bytes behind `cmd` afterwards, which `strtok_r` writes to, and the environment. -/
def cliExecuteCommand (ctx : CliContext E) (cmd : List UInt8) (env : E) :
    Option (List UInt8 × E) :=
  match parseArgs 16 cmd with
  | (none, cmd) =>
      (cliPrintf ctx (cliEol ++ ascii "Error: too many arguments" ++ cliEol) env).map fun env =>
        (cmd, env)
  | (some argv, cmd) => (dispatch ctx argv env).map fun env => (cmd, env)

def cliEolChar : UInt8 := 0x0d

/-- One round of the loop of `cli_handle_rx`. -/
def cliHandleByte (ctx : CliContext E) : CliIntf × E → UInt8 → Option (CliIntf × E)
  | (intf, env), b =>
      if b ≠ cliEolChar ∧ intf.cmdBufferNdx < 252 then
        if b = 0x08 ∨ b = 0x7f then
          if 0 < intf.cmdBufferNdx then do
            let env ← cliPrintf ctx [0x08, 0x20, 0x08] env
            some ({ intf with cmdBufferNdx := intf.cmdBufferNdx - 1 }, env)
          else some (intf, env)
        else do
          let env ← cliPrintf ctx [b] env
          let cmdBuffer ← store intf.cmdBuffer intf.cmdBufferNdx.toNat b
          some (⟨intf.cmdBufferNdx + 1, cmdBuffer⟩, env)
      else if b = cliEolChar then do
        let cmdBuffer ← store intf.cmdBuffer intf.cmdBufferNdx.toNat 0
        let (cmd, env) ← cliExecuteCommand ctx cmdBuffer.toList env
        some (⟨0, blit cmdBuffer 0 cmd⟩, cliPrompt ctx env)
      else some (intf, env)

def cliHandleRx (ctx : CliContext E) (intf : CliIntf × E) (data : List UInt8) :
    Option (CliIntf × E) :=
  data.foldlM (cliHandleByte ctx) intf

def runLine (ctx : CliContext E) (line : List (List UInt8)) (env : E) : Option E :=
  if line.length ≤ 16 then dispatch ctx line env
  else cliPrintf ctx (cliEol ++ ascii "Error: too many arguments" ++ cliEol) env

def typedWords (intf : CliIntf) : List (List UInt8) :=
  words isBlank ((front intf.cmdBuffer intf.cmdBufferNdx.toNat).takeWhile (· ≠ 0))

theorem parseArgs_none {line : List UInt8} (ends : strtokR isBlank line = none) (room : Nat) :
    parseArgs room line = (some [], line) := by
  rw [parseArgs, ends]

theorem parseArgs_some {line : List UInt8} {token : Token} (found : strtokR isBlank line = some token)
    (room : Nat) :
    (parseArgs (room + 1) line).1 = (parseArgs room token.rest).1.map (token.word :: ·) := by
  rw [parseArgs, found]

theorem parseArgs_full {line : List UInt8} {token : Token}
    (found : strtokR isBlank line = some token) : (parseArgs 0 line).1 = none := by
  rw [parseArgs, found]

theorem parseArgs_words {line : List UInt8} (clean : 0 ∉ line) (tail : List UInt8) (room : Nat) :
    (parseArgs room (line ++ 0 :: tail)).1 =
      if (words isBlank line).length ≤ room then some (words isBlank line) else none := by
  have nul : isBlank 0 = false := by decide
  induction room generalizing line with
  | zero =>
      rcases strtokR_words nul clean tail with ⟨ends, none⟩ | ⟨word, passed, rest, found, split, -⟩
      · rw [parseArgs_none ends, none]
        rfl
      · rw [parseArgs_full found, split]
        rfl
  | succ room ih =>
      rcases strtokR_words nul clean tail with
        ⟨ends, none⟩ | ⟨word, passed, rest, found, split, clean⟩
      · rw [parseArgs_none ends, none]
        rfl
      · rw [parseArgs_some found, split, ih clean, List.length_cons]
        simp only [Nat.add_le_add_iff_right]
        split_ifs <;> rfl

theorem cliExecuteCommand_words (ctx : CliContext E) {line : List UInt8} (clean : 0 ∉ line)
    (tail : List UInt8) (env : E) :
    ∃ cmd, cliExecuteCommand ctx (line ++ 0 :: tail) env =
      (runLine ctx (words isBlank line) env).map fun env => (cmd, env) := by
  have parsed := parseArgs_words clean tail 16
  refine ⟨(parseArgs 16 (line ++ 0 :: tail)).2, ?_⟩
  rw [cliExecuteCommand, runLine]
  generalize parseArgs 16 (line ++ 0 :: tail) = outcome at *
  rcases outcome with ⟨argv, left⟩
  obtain rfl : argv = _ := parsed
  by_cases few : (words isBlank line).length ≤ 16
  · simp only [if_pos few]
  · simp only [if_neg few]

theorem takeWhile_terminated (bytes tail : List UInt8) :
    ∃ rest, bytes ++ 0 :: tail = bytes.takeWhile (· ≠ 0) ++ 0 :: rest := by
  induction bytes with
  | nil => exact ⟨tail, rfl⟩
  | cons byte bytes ih =>
      by_cases zero : byte = 0
      · subst zero
        exact ⟨bytes ++ 0 :: tail, by simp⟩
      · rcases ih with ⟨rest, same⟩
        exact ⟨rest, by simp [zero, same]⟩

/-- The characters that are stored; a carriage return ends them with a zero and passes them to
`cli_execute_command`. -/
def CliIntf.line (intf : CliIntf) : List UInt8 := front intf.cmdBuffer intf.cmdBufferNdx.toNat

theorem line_terminated {intf : CliIntf} (bound : intf.cmdBufferNdx.toNat < 255) :
    (intf.cmdBuffer.set intf.cmdBufferNdx.toNat 0 bound).toList =
      intf.line ++ 0 :: intf.cmdBuffer.toList.drop (intf.cmdBufferNdx.toNat + 1) := by
  rw [Vector.toList_set, List.set_eq_take_append_cons_drop, if_pos (by simpa using bound),
    CliIntf.line, front]

theorem cliHandleByte_eol (ctx : CliContext E) (intf : CliIntf) (env : E) :
    (intf.cmdBufferNdx < 255 → ∃ cmdBuffer, cliHandleByte ctx (intf, env) cliEolChar =
      (runLine ctx (typedWords intf) env).map fun env => (⟨0, cmdBuffer⟩, cliPrompt ctx env)) ∧
    (¬ intf.cmdBufferNdx < 255 → cliHandleByte ctx (intf, env) cliEolChar = none) := by
  constructor
  · intro inside
    have bound : intf.cmdBufferNdx.toNat < 255 := UInt8.lt_iff_toNat_lt.mp inside
    have memory := line_terminated bound
    rcases takeWhile_terminated intf.line
      (intf.cmdBuffer.toList.drop (intf.cmdBufferNdx.toNat + 1)) with ⟨tail, split⟩
    have clean : 0 ∉ intf.line.takeWhile (· ≠ 0) := by
      intro member
      have nonzero := List.all_eq_true.mp List.all_takeWhile 0 member
      simp at nonzero
    rcases cliExecuteCommand_words ctx clean tail env with ⟨cmd, executed⟩
    refine ⟨blit (intf.cmdBuffer.set intf.cmdBufferNdx.toNat 0 bound) 0 cmd, ?_⟩
    change cliExecuteCommand ctx _ env = (runLine ctx (typedWords intf) env).map _ at executed
    simp only [cliHandleByte, store_some bound, ne_eq, not_true_eq_false, false_and, if_false,
      if_true, Option.bind_eq_bind, Option.bind_some, memory, split]
    rw [executed]
    cases runLine ctx (typedWords intf) env <;> rfl
  · intro outside
    have bound : ¬ (intf.cmdBufferNdx.toNat : Int) < 255 := by
      rw [UInt8.lt_iff_toNat_lt] at outside
      simp at outside
      omega
    have refused : store intf.cmdBuffer intf.cmdBufferNdx.toNat 0 = none := by
      rw [store, dif_neg (by omega)]
    simp [cliHandleByte, refused]

theorem cliPrintf_short (ctx : CliContext E) {text : List UInt8} (short : text.length ≤ 511)
    (env : E) : cliPrintf ctx text env = some (ctx.putTxData text env) := by
  rw [cliPrintf, if_pos (by omega), List.take_of_length_le short, List.take_left]

def Plain (b : UInt8) : Prop := b ≠ cliEolChar ∧ b ≠ 0x08 ∧ b ≠ 0x7f

theorem cliHandleByte_plain (ctx : CliContext E) {intf : CliIntf} {b : UInt8} (plain : Plain b)
    (room : intf.cmdBufferNdx.toNat < 252) (env : E) :
    cliHandleByte ctx (intf, env) b =
      some (⟨intf.cmdBufferNdx + 1, intf.cmdBuffer.set intf.cmdBufferNdx.toNat b⟩,
        ctx.putTxData [b] env) := by
  have below : intf.cmdBufferNdx < 252 := UInt8.lt_iff_toNat_lt.mpr room
  have inside : intf.cmdBufferNdx.toNat < 255 := by omega
  have kept : ¬ (b = 0x08 ∨ b = 0x7f) := not_or.mpr plain.2
  have printed := cliPrintf_short ctx (show [b].length ≤ 511 by simp) env
  rw [cliHandleByte, if_pos ⟨plain.1, below⟩, if_neg kept, printed, store_some inside]
  rfl

theorem cliHandleByte_delete (ctx : CliContext E) {intf : CliIntf} {b : UInt8}
    (deletes : b = 0x08 ∨ b = 0x7f) (room : intf.cmdBufferNdx.toNat < 252) (env : E) :
    cliHandleByte ctx (intf, env) b =
      some (if 0 < intf.cmdBufferNdx then
        ({ intf with cmdBufferNdx := intf.cmdBufferNdx - 1 },
          ctx.putTxData [0x08, 0x20, 0x08] env)
      else (intf, env)) := by
  have below : intf.cmdBufferNdx < 252 := UInt8.lt_iff_toNat_lt.mpr room
  have key : b ≠ cliEolChar := by rcases deletes with rfl | rfl <;> decide
  have shown := cliPrintf_short ctx (show [0x08, 0x20, 0x08].length ≤ 511 by simp) env
  rw [cliHandleByte, if_pos ⟨key, below⟩, if_pos deletes]
  split_ifs
  · rw [shown]
    rfl
  · rfl

/-- A full line takes no key, and none of it is deleted either. -/
theorem cliHandleByte_full (ctx : CliContext E) {intf : CliIntf} {b : UInt8}
    (full : ¬ intf.cmdBufferNdx.toNat < 252) (key : b ≠ cliEolChar) (env : E) :
    cliHandleByte ctx (intf, env) b = some (intf, env) := by
  rw [cliHandleByte, if_neg (fun both => full (UInt8.lt_iff_toNat_lt.mp both.2)), if_neg key]

theorem ndx_succ {ndx : UInt8} (room : ndx.toNat < 252) : (ndx + 1).toNat = ndx.toNat + 1 := by
  rw [UInt8.toNat_add]
  exact Nat.mod_eq_of_lt (by simp; omega)

theorem ndx_pred {ndx : UInt8} (stored : 0 < ndx) : (ndx - 1).toNat + 1 = ndx.toNat := by
  have positive : 0 < ndx.toNat := UInt8.lt_iff_toNat_lt.mp stored
  have one : 1 ≤ ndx := UInt8.le_iff_toNat_le.mpr positive
  rw [UInt8.toNat_sub_of_le _ _ one]
  exact Nat.sub_add_cancel positive

theorem cliHandleRx_plain (ctx : CliContext E) {typed : List UInt8} (plain : ∀ b ∈ typed, Plain b)
    {intf : CliIntf} (fits : intf.cmdBufferNdx.toNat + typed.length ≤ 252) (env : E) :
    ∃ after, cliHandleRx ctx (intf, env) typed =
        some (after, typed.foldl (fun env b => ctx.putTxData [b] env) env) ∧
      after.cmdBufferNdx.toNat = intf.cmdBufferNdx.toNat + typed.length ∧
      front after.cmdBuffer after.cmdBufferNdx.toNat =
        front intf.cmdBuffer intf.cmdBufferNdx.toNat ++ typed := by
  induction typed generalizing intf env with
  | nil => exact ⟨intf, rfl, rfl, by simp⟩
  | cons b typed ih =>
      rw [List.length_cons] at fits
      have room : intf.cmdBufferNdx.toNat < 252 := by omega
      have moved := ndx_succ room
      rcases @ih (fun b member => plain b (List.mem_cons_of_mem _ member))
        ⟨intf.cmdBufferNdx + 1, intf.cmdBuffer.set intf.cmdBufferNdx.toNat b⟩
        (by rw [moved]; omega) (ctx.putTxData [b] env) with ⟨after, ran, size, line⟩
      refine ⟨after, ?_, ?_, ?_⟩
      · rw [cliHandleRx, List.foldlM_cons, cliHandleByte_plain ctx (plain b List.mem_cons_self) room]
        exact ran
      · rw [size, moved, List.length_cons]
        omega
      · rw [line, moved, front_set_succ _ (by omega), List.append_assoc]
        rfl

end KongjaExpress.Cli
