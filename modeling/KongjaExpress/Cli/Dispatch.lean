import KongjaExpress.Cli.Cli

/-! Which handlers `cli_execute_command` invokes, and with what. -/

namespace KongjaExpress.Cli

open Memory Tokens

variable {E : Type}

/-- `argv` and `argc` of `cli_execute_command`. The array is static. -/
structure CliArgs where
  argv : Vector (List UInt8) 16
  argc : Nat
  deriving DecidableEq, Repr

/-- The loop over `strtok_r`, which begins with `cmd` and goes on at `saved`: the array it fills,
and whether it got to the end of the line. `none` is a store outside the array. -/
def fillArgv (cmd : List UInt8) (args : CliArgs) (saved : List UInt8) : Option (CliArgs × Bool) :=
  match _found : strtokR isBlank (if args.argc = 0 then cmd else saved) with
  | none => some (args, true)
  | some token =>
      if 16 ≤ args.argc then some (args, false)
      else
        match store args.argv args.argc token.word with
        | none => none
        | some argv => fillArgv cmd ⟨argv, args.argc + 1⟩ token.rest
termination_by (if args.argc = 0 then cmd else saved).length
decreasing_by
  simpa using strtokR_shorter _found

/-- What `cli_execute_command` does: it prints, and it calls a handler. -/
inductive CliAct (E : Type) where
  | prints (text : List UInt8)
  | invokes (command : CliCommand E) (argv : List (List UInt8))

def CliAct.run (ctx : CliContext E) (env : E) : CliAct E → Option E
  | prints text => cliPrintf ctx text env
  | invokes command argv => command.handler argv (ctx.invoked command.command argv env)

def findCommand (ctx : CliContext E) (name : List UInt8) : Option (CliCommand E) :=
  match (coreCommands ctx).find? (·.command = name) with
  | some command => some command
  | none => ctx.userCommands.find? (·.command = name)

/-- What follows the loop over `strtok_r`. -/
def argsActs (ctx : CliContext E) : CliArgs × Bool → List (CliAct E)
  | (_, false) => [.prints (cliEol ++ ascii "Error: too many arguments" ++ cliEol)]
  | (args, true) =>
      if args.argc = 0 then []
      else
        let name := args.argv[0]
        match findCommand ctx name with
        | some command =>
            [.prints (cliEol ++ ascii "Executing " ++ name ++ cliEol),
              .invokes command (front args.argv args.argc)]
        | none =>
            [.prints (cliEol ++ ascii "Unknown Command: "), .prints name, .prints cliEol]

/-- `cli_execute_command` over its array, which is as the last command left it. -/
def executeActs (ctx : CliContext E) (argv : Vector (List UInt8) 16) (cmd : List UInt8) :
    Option (List (CliAct E)) :=
  (fillArgv cmd ⟨argv, 0⟩ []).map (argsActs ctx)

def invocations (acts : List (CliAct E)) : List (CliCommand E × List (List UInt8)) :=
  acts.filterMap fun act =>
    match act with
    | .prints _ => none
    | .invokes command argv => some (command, argv)

def FirstNamed (table : List (CliCommand E)) (name : List UInt8) (command : CliCommand E) : Prop :=
  ∃ before after, table = before ++ command :: after ∧ command.command = name ∧
    ∀ other ∈ before, other.command ≠ name

/-- The entry of a name: the core table comes before the user table. -/
def Entry (ctx : CliContext E) (name : List UInt8) (command : CliCommand E) : Prop :=
  FirstNamed (coreCommands ctx) name command ∨
    (∀ other ∈ coreCommands ctx, other.command ≠ name) ∧ FirstNamed ctx.userCommands name command

/-- The calls a line of these words is to make. -/
structure Dispatches (ctx : CliContext E) (line : List (List UInt8))
    (calls : List (CliCommand E × List (List UInt8))) : Prop where
  refused : line.length = 0 ∨ 16 < line.length → calls = []
  named : ∀ name rest, line = name :: rest → line.length ≤ 16 →
    ∀ command, Entry ctx name command → calls = [(command, line)]
  unknown : ∀ name rest, line = name :: rest → (∀ command, ¬ Entry ctx name command) → calls = []

theorem find_first (table : List (CliCommand E)) (name : List UInt8) (command : CliCommand E) :
    table.find? (·.command = name) = some command ↔ FirstNamed table name command := by
  rw [List.find?_eq_some_iff_append, FirstNamed]
  constructor
  · intro found
    rcases found with ⟨same, before, after, split, others⟩
    exact ⟨before, after, split, of_decide_eq_true same, fun other member => by
      simpa using others other member⟩
  · intro first
    rcases first with ⟨before, after, split, same, others⟩
    exact ⟨decide_eq_true same, before, after, split, fun other member => by
      simpa using others other member⟩

theorem find_missing (table : List (CliCommand E)) (name : List UInt8) :
    table.find? (·.command = name) = none ↔ ∀ other ∈ table, other.command ≠ name := by
  simp

theorem findCommand_iff (ctx : CliContext E) (name : List UInt8) (command : CliCommand E) :
    findCommand ctx name = some command ↔ Entry ctx name command := by
  rw [findCommand, Entry, ← find_first, ← find_first, ← find_missing]
  cases (coreCommands ctx).find? (·.command = name) <;> simp

theorem findCommand_named {ctx : CliContext E} {name : List UInt8} {command : CliCommand E}
    (found : findCommand ctx name = some command) : command.command = name := by
  rcases (findCommand_iff ctx name command).mp found with core | ⟨-, user⟩
  · rcases core with ⟨_, _, _, same, -⟩
    exact same
  · rcases user with ⟨_, _, _, same, -⟩
    exact same

theorem fillArgv_ends {cmd saved text : List UInt8} {args : CliArgs}
    (source : (if args.argc = 0 then cmd else saved) = text) (ends : strtokR isBlank text = none) :
    fillArgv cmd args saved = some (args, true) := by
  subst source
  unfold fillArgv
  split
  · rfl
  · simp_all

theorem fillArgv_full {cmd saved text : List UInt8} {args : CliArgs} {token : Token}
    (source : (if args.argc = 0 then cmd else saved) = text)
    (found : strtokR isBlank text = some token) (full : 16 ≤ args.argc) :
    fillArgv cmd args saved = some (args, false) := by
  subst source
  unfold fillArgv
  split
  · simp_all
  · rw [if_pos full]

theorem fillArgv_stored {cmd saved text : List UInt8} {args : CliArgs} {token : Token}
    (source : (if args.argc = 0 then cmd else saved) = text)
    (found : strtokR isBlank text = some token) (room : args.argc < 16) :
    fillArgv cmd args saved =
      fillArgv cmd ⟨args.argv.set args.argc token.word, args.argc + 1⟩ token.rest := by
  subst source
  conv_lhs => unfold fillArgv
  split
  · simp_all
  · rw [if_neg (Nat.not_le.mpr room), store_some room]
    simp_all

/-- The arguments a line fills the array with; the loop stops in front of the seventeenth. -/
theorem fillArgv_words {cmd tail : List UInt8} {line : List UInt8} (clean : 0 ∉ line)
    {args : CliArgs} {saved : List UInt8} (room : args.argc ≤ 16)
    (text : (if args.argc = 0 then cmd else saved) = line ++ 0 :: tail) :
    ∃ filled, fillArgv cmd args saved =
        some (filled, decide (args.argc + (words isBlank line).length ≤ 16)) ∧
      (args.argc + (words isBlank line).length ≤ 16 →
        filled.argc = args.argc + (words isBlank line).length ∧
        front filled.argv filled.argc = front args.argv args.argc ++ words isBlank line) := by
  have nul : isBlank 0 = false := by decide
  induction split : words isBlank line generalizing line args saved with
  | nil =>
      rcases strtokR_words nul clean tail with ⟨ends, -⟩ | ⟨word, passed, rest, -, first, -⟩
      · refine ⟨args, ?_, fun _ => ⟨rfl, (List.append_nil _).symm⟩⟩
        rw [fillArgv_ends text ends]
        simp [room]
      · rw [split] at first
        contradiction
  | cons word argv ih =>
      rcases strtokR_words nul clean tail with ⟨-, none⟩ | ⟨first, passed, rest, found, same, clean⟩
      · rw [split] at none
        contradiction
      · rw [split] at same
        rcases List.cons.inj same with ⟨rfl, left⟩
        rw [List.length_cons]
        by_cases full : 16 ≤ args.argc
        · refine ⟨args, ?_, fun few => by omega⟩
          rw [fillArgv_full text found full, decide_eq_false (by omega)]
        · have free : args.argc < 16 := Nat.not_le.mp full
          rcases @ih rest clean ⟨args.argv.set args.argc word, args.argc + 1⟩ (rest ++ 0 :: tail)
            free (if_neg (Nat.succ_ne_zero _)) left.symm with ⟨filled, ran, stored⟩
          have count : args.argc + 1 + argv.length = args.argc + (argv.length + 1) := by omega
          rw [count] at ran stored
          refine ⟨filled, ?_, fun few => ?_⟩
          · rw [fillArgv_stored text found free]
            exact ran
          · rcases stored few with ⟨size, content⟩
            refine ⟨size, ?_⟩
            rw [content, front_set_succ _ free, List.append_assoc]
            rfl

def commandActs (ctx : CliContext E) : List (List UInt8) → List (CliAct E)
  | [] => []
  | name :: rest =>
      match findCommand ctx name with
      | some command =>
          [.prints (cliEol ++ ascii "Executing " ++ name ++ cliEol),
            .invokes command (name :: rest)]
      | none => [.prints (cliEol ++ ascii "Unknown Command: "), .prints name, .prints cliEol]

def lineActs (ctx : CliContext E) (line : List (List UInt8)) : List (CliAct E) :=
  if line.length ≤ 16 then commandActs ctx line
  else [.prints (cliEol ++ ascii "Error: too many arguments" ++ cliEol)]

theorem front_head {n m : Nat} {memory : Vector (List UInt8) n} (inside : 0 < n)
    {name : List UInt8} {rest : List (List UInt8)} (content : front memory (m + 1) = name :: rest) :
    memory[0] = name := by
  have first := congrArg List.head? content
  rw [front, List.head?_take, if_neg (Nat.succ_ne_zero _), List.head?_cons,
    List.head?_eq_getElem?, Vector.getElem?_toList, Vector.getElem?_eq_getElem inside] at first
  exact Option.some.inj first

/-- The array is never left, and what is done is told by the words of the line. -/
theorem executeActs_words (ctx : CliContext E) (argv : Vector (List UInt8) 16) {line : List UInt8}
    (clean : 0 ∉ line) (tail : List UInt8) :
    executeActs ctx argv (line ++ 0 :: tail) = some (lineActs ctx (words isBlank line)) := by
  rcases @fillArgv_words (line ++ 0 :: tail) tail line clean ⟨argv, 0⟩ [] (by simp) (if_pos rfl)
    with ⟨filled, ran, stored⟩
  rw [Nat.zero_add] at ran stored
  rw [executeActs, ran, Option.map_some]
  congr 1
  by_cases few : (words isBlank line).length ≤ 16
  · rcases stored few with ⟨size, content⟩
    rw [front_zero, List.nil_append] at content
    rw [decide_eq_true few, argsActs, lineActs, if_pos few]
    cases split : words isBlank line with
    | nil =>
        rw [if_pos (by rw [size, split]; rfl)]
        rfl
    | cons name rest =>
        rw [split, List.length_cons] at size
        rw [split] at content
        have first : filled.argv[0] = name := front_head (by decide) (size ▸ content)
        rw [if_neg (by omega)]
        simp only [first, content]
        rfl
  · rw [decide_eq_false few, lineActs, if_neg few]
    rfl

theorem commandActs_run (ctx : CliContext E) (argv : List (List UInt8)) (env : E) :
    (commandActs ctx argv).foldlM (CliAct.run ctx) env = dispatch ctx argv env := by
  cases argv with
  | nil => rfl
  | cons name rest =>
      change _ = match findCommand ctx name with
        | some command => (cliPrintf ctx (cliEol ++ ascii "Executing " ++ name ++ cliEol) env).bind
            fun env => command.handler (name :: rest) (ctx.invoked name (name :: rest) env)
        | none => (cliPrintf ctx (cliEol ++ ascii "Unknown Command: ") env).bind fun env =>
            (cliPrintf ctx name env).bind fun env => cliPrintf ctx cliEol env
      rw [commandActs]
      cases found : findCommand ctx name with
      | some command => simp [CliAct.run, findCommand_named found]
      | none => simp [CliAct.run]

theorem lineActs_run (ctx : CliContext E) (line : List (List UInt8)) (env : E) :
    (lineActs ctx line).foldlM (CliAct.run ctx) env = runLine ctx line env := by
  rw [lineActs, runLine]
  split_ifs with few
  · exact commandActs_run ctx line env
  · simp [CliAct.run]

theorem lineActs_dispatches (ctx : CliContext E) (line : List (List UInt8)) :
    Dispatches ctx line (invocations (lineActs ctx line)) := by
  rw [lineActs]
  constructor
  · intro outside
    rcases outside with none | many
    · rw [List.length_eq_zero_iff.mp none]
      rfl
    · rw [if_neg (Nat.not_le.mpr many)]
      rfl
  · intro name rest split few command entry
    rw [if_pos few, split, commandActs, (findCommand_iff ctx name command).mpr entry]
    rfl
  · intro name rest split missing
    have absent : findCommand ctx name = none := by
      apply Option.eq_none_iff_forall_ne_some.mpr
      intro command found
      exact missing command ((findCommand_iff ctx name command).mp found)
    split_ifs
    · rw [split, commandActs, absent]
      rfl
    · rfl

/-- How a command line is run, whatever the last one left in the array: no index leaves the array,
what is done is what `cliExecuteCommand` does, and the handlers called are those of its words. -/
def Dispatched (ctx : CliContext E) (line tail : List UInt8) : Prop :=
  ∀ argv, ∃ acts, executeActs ctx argv (line ++ 0 :: tail) = some acts ∧
    (∀ env, (cliExecuteCommand ctx (line ++ 0 :: tail) env).map Prod.snd =
      acts.foldlM (CliAct.run ctx) env) ∧
    Dispatches ctx (words isBlank line) (invocations acts)

theorem cliExecuteCommand_dispatched (ctx : CliContext E) {line : List UInt8} (clean : 0 ∉ line)
    (tail : List UInt8) : Dispatched ctx line tail := by
  intro argv
  refine ⟨lineActs ctx (words isBlank line), executeActs_words ctx argv clean tail, ?_,
    lineActs_dispatches ctx (words isBlank line)⟩
  intro env
  rcases cliExecuteCommand_words ctx clean tail env with ⟨cmd, executed⟩
  calc
    _ = ((runLine ctx (words isBlank line) env).map fun env => (cmd, env)).map Prod.snd := by
      rw [executed]
    _ = runLine ctx (words isBlank line) env := by
      rw [Option.map_map]
      exact Option.map_id_apply
    _ = _ := (lineActs_run ctx _ env).symm

def echoContext : CliContext (List UInt8) where
  userCommands :=
    [⟨ascii "echo", ascii "show the arguments", fun argv env => some (env ++ argv.flatten)⟩]
  putTxData text env := env ++ text
  invoked _ _ env := env

theorem cliExecuteCommand_dispatched_echo :
    Dispatched echoContext (ascii "\t echo  a b ") [] :=
  cliExecuteCommand_dispatched echoContext (by decide) []

example :
    (invocations (lineActs echoContext (words isBlank (ascii "\t echo  a b ")))).map Prod.snd =
      [[ascii "echo", ascii "a", ascii "b"]] := by
  decide

end KongjaExpress.Cli
