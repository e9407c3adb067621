import KongjaExpress.Cli.LineEditing
import KongjaExpress.Cli.SessionIsolation
import KongjaExpress.Protocols.TelnetTransparency

/-! The telnet server of `cli_telnet.c`: sessions that share an application, and the lines their
clients type. -/

namespace KongjaExpress.Cli

open Memory Protocols Tokens Transport Utils

variable {ι S A : Type}

/-- The sessions, each with a name of its own, and the application with the kernel. -/
structure CliServer (ι S : Type) where
  conns : ι → Option (CliSession S)
  accepted : ι → Bool
  app : S

def cliServerInit (app : S) : CliServer ι S where
  conns _ := none
  accepted _ := false
  app := app

inductive CliEvent (ι : Type)
  /-- `cli_server_new_connection`, with what `malloc` returned. -/
  | accept (i : ι) (newsd : Int) (heap : Vector UInt8 128) (conn : CliConnection)
  /-- What the event loop finds on a session's socket. -/
  | session (i : ι) (event : SessionEvent)
  /-- `stream_event_eof` or `stream_event_err`. -/
  | close (i : ι)

variable [DecidableEq ι]

def CliServer.put (server : CliServer ι S) (i : ι) (session : CliSession S) : CliServer ι S where
  conns := Function.update server.conns i (some session)
  accepted := Function.update server.accepted i true
  app := session.terminal.app

def CliSession.enter (session : CliSession S) (app : S) : CliSession S :=
  { session with terminal := { session.terminal with app := app } }

def cliServerStep (host : Host S) (server : CliServer ι S) :
    CliEvent ι → Option (CliServer ι S)
  | .accept i newsd heap conn =>
      if server.accepted i then none
      else (allocCliConnection host newsd heap server.app conn).map (server.put i)
  | .session i event =>
      (server.conns i).bind fun session =>
        (sessionStep host (session.enter server.app) event).map (server.put i)
  | .close i =>
      (server.conns i).map fun _ => { server with conns := Function.update server.conns i none }

/-! What the clients type. -/

def freshReader : TelnetReader := telnetReaderInit ⟨Vector.replicate 32 0, 0, .start, 0, 0⟩

/-- The keys in what a telnet client sends, for a reader that stands somewhere in it. -/
def keysFrom (tr : TelnetReader) (bytes : List UInt8) : List UInt8 :=
  (received (telnetReaderFeed telnetLog (tr, []) bytes).2).filter (· ≠ 0)

def keysOf (bytes : List UInt8) : List UInt8 := keysFrom freshReader bytes

/-- A key and the line it edits; a carriage return ends the line, of which the words are kept. -/
def typeKey (typed : List UInt8 × List (List (List UInt8))) (key : UInt8) :
    List UInt8 × List (List (List UInt8)) :=
  (nextLine typed.1 key,
    if key = cliEolChar then typed.2 ++ [words isBlank typed.1] else typed.2)

def typing (keys : List UInt8) : List UInt8 × List (List (List UInt8)) :=
  keys.foldl typeKey ([], [])

/-- The bytes that came from each client, and the lines in the order in which they were ended. -/
structure Journal (ι : Type) where
  bytes : ι → List UInt8
  lines : List (ι × List (List UInt8))

def Journal.note (journal : Journal ι) (event : CliEvent ι) : Journal ι :=
  match event with
  | .session i (.rx bytes) =>
      let before := (typing (keysOf (journal.bytes i))).2
      let after := (typing (keysOf (journal.bytes i ++ bytes))).2
      { bytes := Function.update journal.bytes i (journal.bytes i ++ bytes)
        lines := journal.lines ++ (after.drop before.length).map (Prod.mk i) }
  | _ => journal

def journal (events : List (CliEvent ι)) : Journal ι :=
  events.foldl Journal.note ⟨fun _ => [], []⟩

/-! What the lines do. -/

/-- The state behind the user commands, which what is written does not change. -/
structure Application (host : Host S) (A : Type) where
  view : S → A
  act : UserCommand S → List (List UInt8) → A → A
  writes : ∀ data app, view (host.write data app).2 = view app
  acts : ∀ user ∈ host.userCommands, ∀ argv app,
    view (user.handler argv app).2 = act user argv (view app)

/-- The user command of a name; the core commands come first. -/
def userNamed (host : Host S) (name : List UInt8) : Option (UserCommand S) :=
  if coreTexts.any fun text => decide (text.1 = name) then none
  else host.userCommands.find? fun user => decide (user.command = name)

def Application.run {host : Host S} (application : Application host A)
    (line : List (List UInt8)) (app : A) : A :=
  if line.length ≤ 16 then
    (line.head?.bind (userNamed host)).elim app fun user => application.act user line app
  else app

def lineCall (host : Host S) (line : List (List UInt8)) :
    Option (List UInt8 × List (List UInt8)) :=
  if line.length ≤ 16 then
    (line.head?.filter fun name =>
      (sessionCommands host).any fun command => decide (command.command = name)).map
      fun name => (name, line)
  else none

def CliEffect.call : CliEffect → Option (List UInt8 × List (List UInt8))
  | .put _ => none
  | .invoke command argv => some (command, argv)

def callsMade (effects : List CliEffect) : List (List UInt8 × List (List UInt8)) :=
  effects.filterMap CliEffect.call

/-- Memory whose greeting runs no command. -/
def CliEvent.Harmless (host : Host S) : CliEvent ι → Prop
  | .accept _ _ _ conn => (greeting host conn.cliIntf).isSome
  | _ => True

/-- The texts of the user commands fit in the print buffer. -/
structure Modest (host : Host S) : Prop where
  command : ∀ user ∈ host.userCommands, user.command.length ≤ 501
  helpStr : ∀ user ∈ host.userCommands, user.helpStr.length ≤ 509
  prints : ∀ user ∈ host.userCommands, ∀ argv app, ∀ text ∈ (user.handler argv app).1,
    text.length ≤ 511

end KongjaExpress.Cli
