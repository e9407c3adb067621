import KongjaExpress.Cli.Cli
import KongjaExpress.Library.Run
import KongjaExpress.Protocols.TelnetReader
import KongjaExpress.Stream.Stream

/-! The telnet sessions of `cli_telnet.c`. What the kernel takes of a `write` and what
the user commands do are parameters. -/

namespace KongjaExpress.Cli

open Memory Protocols Transport Utils

/-- A user command, with the texts it prints and what it does to the application. -/
structure UserCommand (S : Type) where
  command : List UInt8
  helpStr : List UInt8
  handler : List (List UInt8) → S → List (List UInt8) × S

/-- What surrounds a session; `S` is the state of the application and of the kernel. -/
structure Host (S : Type) where
  write : List UInt8 → S → WriteResult × S
  userCommands : List (UserCommand S)

inductive CliEffect
  | put (data : List UInt8)
  | invoke (command : List UInt8) (argv : List (List UInt8))
  deriving DecidableEq, Repr

structure Terminal (S : Type) where
  stream : Stream 128
  app : S
  effects : List CliEffect

/-- What `malloc` returns for a `cli_connection_t`, or what has become of it. -/
structure CliConnection where
  stream : Stream 128
  cliIntf : CliIntf
  telnet : TelnetReader
  deriving DecidableEq, Repr

structure CliSession (S : Type) where
  cliIntf : CliIntf
  telnet : TelnetReader
  terminal : Terminal S

variable {S : Type}

/-- A call of `stream_write`; the kernel is asked only if nothing is queued. -/
def Terminal.write (host : Host S) (terminal : Terminal S) (data : List UInt8) : Terminal S :=
  let terminal := { terminal with effects := terminal.effects ++ [CliEffect.put data] }
  if circBufferIsEmpty terminal.stream.txBuf then
    let (result, app) := host.write data terminal.app
    { terminal with stream := (streamWrite terminal.stream data result).stream, app := app }
  else
    { terminal with stream := (streamWrite terminal.stream data (.count 0)).stream }

def cliPutTxData (host : Host S) (data : List UInt8) (terminal : Terminal S) : Terminal S :=
  terminal.write host data

def plainContext (host : Host S) : CliContext (Terminal S) where
  userCommands := []
  putTxData := cliPutTxData host
  invoked command argv terminal :=
    { terminal with effects := terminal.effects ++ [.invoke command argv] }

def UserCommand.attach (host : Host S) (user : UserCommand S) : CliCommand (Terminal S) where
  command := user.command
  helpStr := user.helpStr
  handler argv terminal :=
    let (texts, app) := user.handler argv terminal.app
    texts.foldlM (fun terminal text => cliPrintf (plainContext host) text terminal)
      { terminal with app := app }

def cliContext (host : Host S) : CliContext (Terminal S) :=
  { plainContext host with userCommands := host.userCommands.map (UserCommand.attach host) }

def iacsToSend : List UInt8 := [telnetIac, telnetWill, 3, telnetIac, telnetWill, 1]

def initTelnetSession (host : Host S) (terminal : Terminal S) : Terminal S :=
  terminal.write host iacsToSend

def telnetRxDataback (host : Host S) (data : UInt8) (env : Option (CliIntf × Terminal S)) :
    Option (CliIntf × Terminal S) :=
  if data = 0 then env else env.bind fun intf => cliHandleRx (cliContext host) intf [data]

def telnetRxCmdback (_tr : TelnetReader) (env : Option (CliIntf × Terminal S)) :
    Option (CliIntf × Terminal S) := env

def telnetCallbacks (host : Host S) : TelnetCallbacks (Option (CliIntf × Terminal S)) where
  databack := telnetRxDataback host
  cmdback := telnetRxCmdback

/-- `alloc_cli_connection`, with what `malloc` returned for the connection and for the
queue of its stream. -/
def allocCliConnection (host : Host S) (newsd : Int) (heap : Vector UInt8 128) (app : S)
    (conn : CliConnection) : Option (CliSession S) :=
  let conn := { conn with stream := streamStart (streamInitWithFd newsd 128 heap) }
  let conn := { conn with telnet := telnetReaderInit conn.telnet }
  let terminal := initTelnetSession host ⟨conn.stream, app, []⟩
  (cliHandleRx (cliContext host) (conn.cliIntf, terminal) [0x0d]).map fun (cliIntf, terminal) =>
    ⟨cliIntf, conn.telnet, terminal⟩

inductive SessionEvent
  | rx (bytes : List UInt8)
  | tx (result : WriteResult)
  deriving DecidableEq, Repr

def Terminal.received (terminal : Terminal S) (bytes : List UInt8) : Terminal S :=
  { terminal with stream := { terminal.stream with rxData := bytes } }

/-- `handle_stream_event` for the bytes that were read, and the stream's own part in
sending. -/
def sessionStep (host : Host S) (s : CliSession S) : SessionEvent → Option (CliSession S)
  | .rx bytes =>
      let (telnet, env) :=
        telnetReaderFeed (telnetCallbacks host)
          (s.telnet, some (s.cliIntf, s.terminal.received bytes)) bytes
      env.map fun (cliIntf, terminal) => ⟨cliIntf, telnet, terminal⟩
  | .tx result =>
      (streamHandleTxEvent s.terminal.stream result).map fun (stream, _) =>
        { s with terminal := { s.terminal with stream := stream } }

def cliSession (host : Host S) (newsd : Int) (heap : Vector UInt8 128) (app : S)
    (conn : CliConnection) (events : List SessionEvent) : Option (CliSession S) := do
  let s ← allocCliConnection host newsd heap app conn
  events.foldlM (sessionStep host) s

@[simp] theorem write_effects (host : Host S) (terminal : Terminal S) (data : List UInt8) :
    (terminal.write host data).effects = terminal.effects ++ [.put data] := by
  rw [Terminal.write]
  split <;> rfl

theorem cliPrintf_effects (host : Host S) {text : List UInt8} {terminal after : Terminal S}
    (printed : cliPrintf (plainContext host) text terminal = some after) :
    terminal.effects <+: after.effects := by
  rw [cliPrintf] at printed
  split at printed
  · obtain rfl := Option.some.inj printed
    simp [plainContext, cliPutTxData]
  · cases printed

def Adds (command : CliCommand (Terminal S)) : Prop :=
  ∀ argv terminal after, command.handler argv terminal = some after →
    terminal.effects <+: after.effects

theorem attach_adds (host : Host S) (user : UserCommand S) : Adds (user.attach host) := by
  intro argv terminal after done
  have prints : (user.handler argv terminal.app).1.foldlM
      (fun terminal text => cliPrintf (plainContext host) text terminal)
      { terminal with app := (user.handler argv terminal.app).2 } = some after := done
  apply Run.invariant (J := fun next => terminal.effects <+: next.effects) _
    List.prefix_rfl prints
  intro before text after grown printed
  exact grown.trans (cliPrintf_effects host printed)

theorem coreCommands_handler {host : Host S} {command : CliCommand (Terminal S)}
    (core : command ∈ coreCommands (cliContext host)) :
    command.handler = cliCommandHelp (cliContext host) ∨
      command.handler = cliCommandVersion (cliContext host) := by
  simp only [coreCommands, coreTexts, List.zipWith_cons_cons, List.zipWith_nil_left,
    List.mem_cons, List.not_mem_nil, or_false] at core
  exact core.imp (congrArg _) (congrArg _)

theorem coreCommands_keep {host : Host S} {J : Terminal S → Prop}
    (prints : ∀ text before after, J before →
      cliPrintf (cliContext host) text before = some after → J after)
    {command : CliCommand (Terminal S)} (core : command ∈ coreCommands (cliContext host))
    {argv : List (List UInt8)} {before after : Terminal S} (start : J before)
    (done : command.handler argv before = some after) : J after := by
  cases coreCommands_handler core with
  | inl help =>
      rw [help, cliCommandHelp, Option.bind_eq_bind] at done
      rcases Option.bind_eq_some_iff.mp done with ⟨middle, printed, rest⟩
      apply Run.invariant _ (prints _ before middle start printed) rest
      intro terminal entry next kept shown
      rcases Option.bind_eq_some_iff.mp shown with ⟨between, first, second⟩
      exact prints _ between next (prints _ terminal between kept first) second
  | inr version =>
      rw [version, cliCommandVersion, Option.bind_eq_bind] at done
      rcases Option.bind_eq_some_iff.mp done with ⟨middle, first, second⟩
      exact prints _ middle after (prints _ before middle start first) second

theorem core_adds (host : Host S) : ∀ command ∈ coreCommands (cliContext host), Adds command := by
  intro command member argv terminal after done
  apply coreCommands_keep (J := fun next => terminal.effects <+: next.effects) _ member
    List.prefix_rfl done
  intro text before after grown printed
  exact grown.trans (cliPrintf_effects host printed)

def sessionCommands (host : Host S) : List (CliCommand (Terminal S)) :=
  coreCommands (cliContext host) ++ (cliContext host).userCommands

theorem dispatch_known {host : Host S} {name : List UInt8} {command : CliCommand (Terminal S)}
    (found : (sessionCommands host).find? (·.command = name) = some command)
    (rest : List (List UInt8)) (terminal : Terminal S) :
    dispatch (cliContext host) (name :: rest) terminal =
      (cliPrintf (cliContext host) (cliEol ++ ascii "Executing " ++ name ++ cliEol) terminal).bind
        fun env => command.handler (name :: rest)
          ((cliContext host).invoked name (name :: rest) env) := by
  rw [sessionCommands, List.find?_append] at found
  rw [dispatch]
  cases core : (coreCommands (cliContext host)).find? (·.command = name) with
  | none =>
      rw [core, Option.none_or] at found
      simp only [found, Option.bind_eq_bind]
  | some first =>
      rw [core, Option.some_or] at found
      obtain rfl := Option.some.inj found
      rfl

theorem dispatch_unknown {host : Host S} {name : List UInt8}
    (unknown : (sessionCommands host).find? (·.command = name) = none)
    (rest : List (List UInt8)) (terminal : Terminal S) :
    dispatch (cliContext host) (name :: rest) terminal =
      [cliEol ++ ascii "Unknown Command: ", name, cliEol].foldlM
        (fun terminal text => cliPrintf (cliContext host) text terminal) terminal := by
  rw [sessionCommands, List.find?_append, Option.or_eq_none_iff] at unknown
  simp only [dispatch, unknown.1, unknown.2]
  rfl

theorem sessionCommands_add (host : Host S) : ∀ command ∈ sessionCommands host, Adds command := by
  intro command member
  rcases List.mem_append.mp member with core | user
  · exact core_adds host command core
  · rcases List.mem_map.mp user with ⟨source, -, rfl⟩
    exact attach_adds host source

theorem dispatch_invokes {host : Host S} {name : List UInt8} {rest : List (List UInt8)}
    {terminal after : Terminal S} (known : name ∈ (sessionCommands host).map (·.command))
    (done : dispatch (cliContext host) (name :: rest) terminal = some after) :
    .invoke name (name :: rest) ∈ after.effects := by
  cases found : (sessionCommands host).find? (·.command = name) with
  | none =>
      rcases List.mem_map.mp known with ⟨command, member, named⟩
      have passed := List.find?_eq_none.mp found command member
      exact absurd named (by simpa using passed)
  | some command =>
      rw [dispatch_known found] at done
      rcases Option.bind_eq_some_iff.mp done with ⟨middle, -, handled⟩
      have adds := sessionCommands_add host command (List.mem_of_find?_eq_some found) _ _ _ handled
      apply adds.subset
      simp [cliContext, plainContext]

end KongjaExpress.Cli
