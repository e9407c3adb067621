import KongjaExpress.Cli.LineEffects

/-! Every line that a client ends is carried out once, and the lines of all clients in the order in
which they were ended. -/

namespace KongjaExpress.Cli

open Memory Protocols Tokens Transport Utils

variable {S A : Type} {host : Host S}

section Reader

theorem readerAfter_same {tr tr' : TelnetReader} (same : SameReader tr tr') (bytes : List UInt8) :
    SameReader (readerAfter tr bytes) (readerAfter tr' bytes) ∧
      keysFrom tr bytes = keysFrom tr' bytes := by
  have fed := @telnetReaderFeed_rel _ telnetLog (fun log log' => received log = received log')
    (fun d log log' alike => by
      rw [telnetLog, received_append, received_append, alike])
    (fun tr tr' log log' alike => by
      rw [telnetLog, received_append, received_append, alike]
      rfl) bytes (tr, []) (tr', []) same rfl
  constructor
  · exact fed.1
  · rw [keysFrom, keysFrom, fed.2]

theorem keysFrom_append (tr : TelnetReader) (early late : List UInt8) :
    keysFrom tr (early ++ late) = keysFrom tr early ++ keysFrom (readerAfter tr early) late := by
  rw [keysFrom, telnetReaderFeed_append, feed_log, ← readerAfter, feed_log, received_append,
    List.filter_append]
  rfl

theorem keysFrom_nonzero (tr : TelnetReader) (bytes : List UInt8) : 0 ∉ keysFrom tr bytes := by
  intro member
  have kept := (List.mem_filter.mp member).2
  exact absurd kept (by decide)

def typed (host : Host S) (start : CliIntf × Terminal S) (log : List TelnetEvent) :
    Option (CliIntf × Terminal S) :=
  cliHandleRx (cliContext host) start ((received log).filter (· ≠ 0))

theorem typed_databack (start : CliIntf × Terminal S) (d : UInt8) (log : List TelnetEvent) :
    (telnetCallbacks host).databack d (typed host start log) =
      typed host start (telnetLog.databack d log) := by
  have more : received (telnetLog.databack d log) = received log ++ [d] := by
    rw [telnetLog, received_append]
    rfl
  change telnetRxDataback host d _ = _
  rw [telnetRxDataback, typed, typed, more, List.filter_append]
  split_ifs with zero
  · rw [List.filter_cons_of_neg (by simpa using zero), List.filter_nil, List.append_nil]
  · rw [List.filter_cons_of_pos (by simpa using zero), List.filter_nil]
    simp only [cliHandleRx, List.foldlM_append]
    rfl

theorem typed_cmdback (start : CliIntf × Terminal S) (tr : TelnetReader) (log : List TelnetEvent) :
    (telnetCallbacks host).cmdback tr (typed host start log) =
      typed host start (telnetLog.cmdback tr log) := by
  have same : received (telnetLog.cmdback tr log) = received log := by
    rw [telnetLog, received_append]
    exact List.append_nil _
  rw [typed, typed, same]
  rfl

theorem feed_keys (tr : TelnetReader) (start : CliIntf × Terminal S) (bytes : List UInt8) :
    telnetReaderFeed (telnetCallbacks host) (tr, some start) bytes =
      (readerAfter tr bytes, cliHandleRx (cliContext host) start (keysFrom tr bytes)) := by
  have fed := @telnetReaderFeed_map _ _ telnetLog (telnetCallbacks host) (typed host start)
    (typed_databack start) (typed_cmdback start) tr [] bytes
  exact fed

end Reader

section Sessions

variable {application : Application host A} {s next : CliSession S} {history : List UInt8}

structure HasRead (history : List UInt8) (s : CliSession S) : Prop where
  reader : SameReader s.telnet (readerAfter freshReader history)
  within : WithinLine s.cliIntf
  line : s.cliIntf.line = (typing (keysOf history)).1

def newLines (history chunk : List UInt8) : List (List (List UInt8)) :=
  endedFrom (typing (keysOf history)).1 (keysFrom (readerAfter freshReader history) chunk)

theorem typing_chunk (history chunk : List UInt8) :
    typing (keysOf (history ++ chunk)) =
      ((keysFrom (readerAfter freshReader history) chunk).foldl nextLine
        (typing (keysOf history)).1, (typing (keysOf history)).2 ++ newLines history chunk) :=
  calc typing (keysOf (history ++ chunk))
    _ = typing (keysOf history ++ keysFrom (readerAfter freshReader history) chunk) :=
        congrArg typing (keysFrom_append freshReader history chunk)
    _ = _ := typing_append _ _

theorem foldl_nextLine_nonzero {keys line : List UInt8} (nonzero : 0 ∉ keys) (clean : 0 ∉ line) :
    0 ∉ keys.foldl nextLine line := by
  induction keys generalizing line with
  | nil => exact clean
  | cons key keys ih =>
      rw [List.mem_cons, not_or] at nonzero
      exact ih nonzero.2 (nextLine_nonzero clean (Ne.symm nonzero.1))

theorem typing_nonzero (history : List UInt8) : 0 ∉ (typing (keysOf history)).1 := by
  rw [typing, foldl_typeKey]
  exact foldl_nextLine_nonzero (keysFrom_nonzero _ _) List.not_mem_nil

theorem session_rx (read : HasRead history s) {chunk : List UInt8}
    (ran : sessionStep host s (.rx chunk) = some next) :
    HasRead (history ++ chunk) next ∧
      CarriedOut application (newLines history chunk) s.terminal next.terminal := by
  simp only [sessionStep, feed_keys] at ran
  rcases Option.map_eq_some_iff.mp ran with ⟨⟨intf, terminal⟩, handled, rfl⟩
  have alike := readerAfter_same read.reader chunk
  rw [alike.2] at handled
  have edited := cliHandleRx_line read.within handled
  have clean : 0 ∉ s.cliIntf.line := read.line ▸ typing_nonzero history
  have carried : CarriedOut application _ (s.terminal.received chunk) terminal :=
    cliHandleRx_carries (keysFrom_nonzero _ _) read.within clean handled
  constructor
  · constructor
    · rw [readerAfter_append]
      exact alike.1
    · exact edited.1
    · rw [typing_chunk, ← read.line]
      exact edited.2
  · rw [newLines, ← read.line]
    exact ⟨carried.view, carried.calls⟩

theorem session_runs (modest : Modest host) (read : HasRead history s) (chunk : List UInt8) :
    (sessionStep host s (.rx chunk)).isSome := by
  simp only [sessionStep, feed_keys, Option.isSome_map]
  exact cliHandleRx_runs modest _ read.within _

end Sessions

section Servers

variable {ι : Type} [DecidableEq ι] {application : Application host A} {start : S}
  {server next : CliServer ι S} {journal : Journal ι}

def Journal.linesOf (journal : Journal ι) (i : ι) : List (List (List UInt8)) :=
  (journal.lines.filter fun entry => entry.1 = i).map Prod.snd

structure LinesKept (application : Application host A) (start : S) (journal : Journal ι)
    (server : CliServer ι S) : Prop where
  app : application.view server.app =
    journal.lines.foldl (fun app entry => application.run entry.2 app) (application.view start)
  own : ∀ i, journal.linesOf i = (typing (keysOf (journal.bytes i))).2
  read : ∀ i s, server.conns i = some s → HasRead (journal.bytes i) s
  calls : ∀ i s, server.conns i = some s →
    callsMade s.terminal.effects =
      (typing (keysOf (journal.bytes i))).2.filterMap (lineCall host)
  idle : ∀ i, server.accepted i = false → journal.bytes i = []

theorem foldl_puts_write (texts : List (List UInt8)) (terminal : Terminal S) :
    OnlyWrites application terminal
      (texts.foldl (fun terminal text => cliPutTxData host text terminal) terminal) := by
  induction texts generalizing terminal with
  | nil => exact .refl application terminal
  | cons text texts ih => exact (cliPutTxData_writes text terminal).trans (ih _)

theorem greeted_writes {conn : CliConnection} (harmless : (greeting host conn.cliIntf).isSome)
    {newsd : Int} {heap : Vector UInt8 128} {app : S} {s : CliSession S}
    (accepted : allocCliConnection host newsd heap app conn = some s) :
    HasRead [] s ∧ application.view s.terminal.app = application.view app ∧
      callsMade s.terminal.effects = [] := by
  rcases Option.isSome_iff_exists.mp harmless with ⟨hello, greets⟩
  rcases @greeted S host newsd heap app conn hello greets with ⟨cmdBuffer, same⟩
  obtain rfl := Option.some.inj (same.symm.trans accepted)
  have negotiated : OnlyWrites application ⟨streamStart (streamInitWithFd newsd 128 heap), app, []⟩
      (freshTerminal host newsd heap app) := cliPutTxData_writes iacsToSend _
  have greeted := negotiated.trans (foldl_puts_write hello.texts _)
  have prompted := greeted.trans (cliPutTxData_writes (ascii "\r\nkjexpr > ") _)
  constructor
  · exact ⟨⟨rfl, rfl⟩, Nat.zero_le 252, front_zero _⟩
  · exact ⟨prompted.view, prompted.calls⟩

theorem put_conns {i j : ι} {s session : CliSession S}
    (found : (server.put i session).conns j = some s) :
    (j = i ∧ s = session) ∨ (j ≠ i ∧ server.conns j = some s) := by
  change Function.update server.conns i (some session) j = some s at found
  by_cases same : j = i
  · subst same
    rw [Function.update_self] at found
    exact .inl ⟨rfl, (Option.some.inj found).symm⟩
  · rw [Function.update_of_ne same] at found
    exact .inr ⟨same, found⟩

theorem put_accepted {i j : ι} {session : CliSession S}
    (free : (server.put i session).accepted j = false) : j ≠ i ∧ server.accepted j = false := by
  change Function.update server.accepted i true j = false at free
  by_cases same : j = i
  · subst same
    rw [Function.update_self] at free
    contradiction
  · rw [Function.update_of_ne same] at free
    exact ⟨same, free⟩

/-- One session has run, and only what its client has sent may have changed. -/
theorem LinesKept.put (kept : LinesKept application start journal server) {i : ι}
    {session : CliSession S} {later : Journal ι}
    (others : ∀ j, j ≠ i → later.bytes j = journal.bytes j)
    (app : application.view session.terminal.app =
      later.lines.foldl (fun app entry => application.run entry.2 app) (application.view start))
    (own : ∀ j, later.linesOf j = (typing (keysOf (later.bytes j))).2)
    (read : HasRead (later.bytes i) session)
    (calls : callsMade session.terminal.effects =
      (typing (keysOf (later.bytes i))).2.filterMap (lineCall host)) :
    LinesKept application start later (server.put i session) := by
  constructor
  · exact app
  · exact own
  · intro j s found
    rcases put_conns found with ⟨rfl, rfl⟩ | ⟨other, found⟩
    · exact read
    · rw [others j other]
      exact kept.read j s found
  · intro j s found
    rcases put_conns found with ⟨rfl, rfl⟩ | ⟨other, found⟩
    · exact calls
    · rw [others j other]
      exact kept.calls j s found
  · intro j free
    have old := put_accepted free
    rw [others j old.1]
    exact kept.idle j old.2

theorem kept_accept (kept : LinesKept application start journal server) {i : ι} {newsd : Int}
    {heap : Vector UInt8 128} {conn : CliConnection}
    (harmless : (greeting host conn.cliIntf).isSome)
    (ran : cliServerStep host server (.accept i newsd heap conn) = some next) :
    LinesKept application start journal next := by
  rw [cliServerStep] at ran
  split_ifs at ran with old
  rcases Option.map_eq_some_iff.mp ran with ⟨session, allocated, rfl⟩
  have fresh := @greeted_writes S A host application conn harmless newsd heap _ session allocated
  have unheard : journal.bytes i = [] := kept.idle i (by simpa using old)
  apply kept.put (fun _ _ => rfl)
  · exact fresh.2.1.trans kept.app
  · exact kept.own
  · rw [unheard]
    exact fresh.1
  · rw [unheard]
    exact fresh.2.2

theorem sessionStep_tx {s next : CliSession S} {result : WriteResult}
    (ran : sessionStep host s (.tx result) = some next) :
    next.cliIntf = s.cliIntf ∧ next.telnet = s.telnet ∧ next.terminal.app = s.terminal.app ∧
      next.terminal.effects = s.terminal.effects := by
  rw [sessionStep] at ran
  rcases Option.map_eq_some_iff.mp ran with ⟨_, _, rfl⟩
  exact ⟨rfl, rfl, rfl, rfl⟩

theorem kept_tx (kept : LinesKept application start journal server) {i : ι}
    {result : WriteResult}
    (ran : cliServerStep host server (.session i (.tx result)) = some next) :
    LinesKept application start journal next := by
  rw [cliServerStep] at ran
  rcases Option.bind_eq_some_iff.mp ran with ⟨session, here, taken⟩
  rcases Option.map_eq_some_iff.mp taken with ⟨after, sent, rfl⟩
  rcases sessionStep_tx sent with ⟨intf, telnet, app, effects⟩
  have read := kept.read i session here
  apply kept.put (fun _ _ => rfl)
  · rw [app]
    exact kept.app
  · exact kept.own
  · constructor
    · rw [telnet]
      exact read.reader
    · rw [intf]
      exact read.within
    · rw [intf]
      exact read.line
  · rw [effects]
    exact kept.calls i session here

theorem note_rx (journal : Journal ι) (i : ι) (chunk : List UInt8) :
    journal.note (.session i (.rx chunk)) =
      ⟨Function.update journal.bytes i (journal.bytes i ++ chunk),
        journal.lines ++ (newLines (journal.bytes i) chunk).map (Prod.mk i)⟩ := by
  rw [Journal.note, typing_chunk, List.drop_left]

theorem linesOf_note (journal : Journal ι) (i j : ι) (chunk : List UInt8) :
    (journal.note (.session i (.rx chunk))).linesOf j =
      journal.linesOf j ++ if j = i then newLines (journal.bytes i) chunk else [] := by
  rw [note_rx, Journal.linesOf, List.filter_append, List.map_append, ← Journal.linesOf]
  congr 1
  split_ifs with same
  · subst same
    rw [List.filter_eq_self.mpr, List.map_map]
    · exact List.map_id _
    · intro entry member
      rcases List.mem_map.mp member with ⟨line, -, rfl⟩
      exact decide_eq_true rfl
  · rw [List.filter_eq_nil_iff.mpr, List.map_nil]
    intro entry member
    rcases List.mem_map.mp member with ⟨line, -, rfl⟩
    simpa using Ne.symm same

theorem kept_rx (kept : LinesKept application start journal server) {i : ι} {chunk : List UInt8}
    (ran : cliServerStep host server (.session i (.rx chunk)) = some next) :
    LinesKept application start (journal.note (.session i (.rx chunk))) next := by
  rw [cliServerStep] at ran
  rcases Option.bind_eq_some_iff.mp ran with ⟨session, here, taken⟩
  rcases Option.map_eq_some_iff.mp taken with ⟨after, fed, rfl⟩
  have read := kept.read i session here
  have entered : HasRead (journal.bytes i) (session.enter server.app) := ⟨read.1, read.2, read.3⟩
  rcases @session_rx S A host application _ after _ entered chunk fed with ⟨reads, carried⟩
  have told := carried.calls
  rw [show (session.enter server.app).terminal.effects = session.terminal.effects from rfl,
    kept.calls i session here, ← List.filterMap_append] at told
  have bytes : (journal.note (.session i (.rx chunk))).bytes =
      Function.update journal.bytes i (journal.bytes i ++ chunk) := rfl
  apply kept.put
  · intro j other
    rw [bytes, Function.update_of_ne other]
  · calc application.view after.terminal.app
      _ = (newLines (journal.bytes i) chunk).foldl (fun app line => application.run line app)
          (application.view server.app) := carried.view
      _ = (journal.note (.session i (.rx chunk))).lines.foldl
          (fun app entry => application.run entry.2 app) (application.view start) := by
          rw [kept.app, note_rx, List.foldl_append, List.foldl_map]
  · intro j
    rw [linesOf_note, kept.own, bytes]
    by_cases same : j = i
    · subst same
      rw [if_pos rfl, Function.update_self, typing_chunk]
    · rw [if_neg same, Function.update_of_ne same, List.append_nil]
  · rw [bytes, Function.update_self]
    exact reads
  · rw [bytes, Function.update_self, typing_chunk]
    exact told

theorem kept_close (kept : LinesKept application start journal server) {i : ι}
    (ran : cliServerStep host server (.close i) = some next) :
    LinesKept application start journal next := by
  rw [cliServerStep] at ran
  rcases Option.map_eq_some_iff.mp ran with ⟨session, -, rfl⟩
  have remains : ∀ j s, Function.update server.conns i none j = some s →
      server.conns j = some s := by
    intro j s found
    by_cases same : j = i
    · subst same
      rw [Function.update_self] at found
      contradiction
    · rwa [Function.update_of_ne same] at found
  exact ⟨kept.app, kept.own, fun j s found => kept.read j s (remains j s found),
    fun j s found => kept.calls j s (remains j s found), kept.idle⟩

theorem kept_step (kept : LinesKept application start journal server) {event : CliEvent ι}
    (harmless : event.Harmless host) (ran : cliServerStep host server event = some next) :
    LinesKept application start (journal.note event) next := by
  cases event with
  | accept i newsd heap conn => exact kept_accept kept harmless ran
  | session i event =>
      cases event with
      | rx chunk => exact kept_rx kept ran
      | tx result => exact kept_tx kept ran
  | close i => exact kept_close kept ran

theorem kept_run {events : List (CliEvent ι)} (kept : LinesKept application start journal server)
    (harmless : ∀ event ∈ events, event.Harmless host)
    (ran : events.foldlM (cliServerStep host) server = some next) :
    LinesKept application start (events.foldl Journal.note journal) next := by
  induction events generalizing server journal with
  | nil =>
      obtain rfl := Option.some.inj ran
      exact kept
  | cons event events ih =>
      rw [List.forall_mem_cons] at harmless
      rcases Run.foldlM_cons_some ran with ⟨middle, taken, rest⟩
      exact ih (kept_step kept harmless.1 taken) harmless.2 rest

theorem kept_init (application : Application host A) (start : S) :
    LinesKept application start ⟨fun _ => [], []⟩ (cliServerInit start : CliServer ι S) := by
  constructor
  · rfl
  · intro i
    rfl
  · intro i s found
    contradiction
  · intro i s found
    contradiction
  · intro i _
    rfl

/-- What holds of a server behind any run. -/
structure LinesCarriedOut (application : Application host A) (start : S)
    (events : List (CliEvent ι)) (server : CliServer ι S) : Prop where
  /-- The lines of all clients were carried out, in the order in which they were ended. -/
  app : application.view server.app = (Cli.journal events).lines.foldl
    (fun app entry => application.run entry.2 app) (application.view start)
  /-- Each client's are the lines that it has typed, in its order. -/
  own : ∀ i, (Cli.journal events).linesOf i = (typing (keysOf ((Cli.journal events).bytes i))).2
  /-- A session has called the commands of its lines only, and keeps the line being typed. -/
  session : ∀ i s, server.conns i = some s →
    s.cliIntf.line = (typing (keysOf ((Cli.journal events).bytes i))).1 ∧
      callsMade s.terminal.effects =
        (typing (keysOf ((Cli.journal events).bytes i))).2.filterMap (lineCall host)
  /-- Bytes that come next are taken in. -/
  goes : Modest host → ∀ i s chunk, server.conns i = some s →
    (cliServerStep host server (.session i (.rx chunk))).isSome

/-- Whatever the clients type, and however what they send is cut and mixed. -/
theorem cli_lines (application : Application host A) (start : S) (events : List (CliEvent ι))
    (harmless : ∀ event ∈ events, event.Harmless host)
    (ran : events.foldlM (cliServerStep host) (cliServerInit start) = some server) :
    LinesCarriedOut application start events server := by
  have kept : LinesKept application start (Cli.journal events) server :=
    kept_run (kept_init application start) harmless ran
  constructor
  · exact kept.app
  · exact kept.own
  · intro i s found
    exact ⟨(kept.read i s found).line, kept.calls i s found⟩
  · intro modest i s chunk found
    have read := kept.read i s found
    have entered : HasRead ((Cli.journal events).bytes i) (s.enter server.app) :=
      ⟨read.1, read.2, read.3⟩
    rw [cliServerStep, found, Option.bind_some, Option.isSome_map]
    exact session_runs modest entered chunk

end Servers

def countingHost : Host Nat where
  write data count := (.count data.length, count)
  userCommands := [⟨ascii "inc", ascii "count", fun _ count => ([], count + 1)⟩]

def countingApplication : Application countingHost Nat where
  view count := count
  act _ _ count := count + 1
  writes _ _ := rfl
  acts user member argv count := by
    rw [List.mem_singleton.mp member]

def twoClients : List (CliEvent Bool) :=
  [.accept false 7 (Vector.replicate 128 0) (usedMemory []),
    .accept true 8 (Vector.replicate 128 0) (usedMemory []),
    .session false (.rx (ascii "in")),
    .session true (.rx ([255, 253, 1] ++ ascii "inc\r")),
    .session false (.rx (ascii "c 5\r"))]

theorem cli_lines_two : ∃ server,
    twoClients.foldlM (cliServerStep countingHost) (cliServerInit 0) = some server ∧
      LinesCarriedOut countingApplication 0 twoClients server ∧ server.app = 2 := by
  have ran : ((twoClients.foldlM (cliServerStep countingHost) (cliServerInit 0)).map (·.app)) =
      some 2 := by decide +kernel
  rcases Option.map_eq_some_iff.mp ran with ⟨server, done, count⟩
  refine ⟨server, done, ?_, count⟩
  apply cli_lines countingApplication 0 twoClients _ done
  have silent : (greeting countingHost (usedMemory []).cliIntf).isSome := by decide +kernel
  simp only [twoClients, List.forall_mem_cons, CliEvent.Harmless, silent, true_and]
  exact fun _ => List.not_mem_nil.elim

end KongjaExpress.Cli
