import KongjaExpress.Modbus.TcpMasterLink
import KongjaExpress.Net.ConnectorCustody
import KongjaExpress.Stream.Drain

/-! Who owns the master's sockets and timers in each of its states. -/

namespace KongjaExpress.Modbus

open Custody EventLoop Memory Net Run Transport

/-- A deed in the master's ledger. A descriptor that is handed to the master's callback
stays in it. -/
def SocketDeed.entries : SocketDeed → List (Entry Int)
  | .net (.opened sd) => [.take sd]
  | .net (.closed sd) => [.give sd]
  | .net (.handed _) => []
  | .net .astray => []
  | .wrote sd => [.use sd]
  | .unopened => [.stray]

/-- The parts of a master that deal with sockets and timers. -/
structure Wiring where
  tcpState : ModbusTCPMasterState
  stream : Option (Stream 512)
  connector : TcpAutoConnector
  log : List SocketDeed

def MasterLink.wiring (link : MasterLink) : Wiring where
  tcpState := link.master.tcpState
  stream := link.master.stream
  connector := link.connector
  log := link.log

namespace Wiring

def ledger (w : Wiring) : List (Entry Int) := w.log.flatMap SocketDeed.entries

def owned (w : Wiring) : List Int :=
  heldIn w.connector.tcpConnector ++ (w.stream.map (·.watcher.fd)).toList

def Attempting (w : Wiring) : Prop :=
  w.connector.tcpConnector.isInProg = true ∧ watched w.connector.tcpConnector = true ∧
    w.connector.tcpConnector.tmr = some .running ∧
    heldIn w.connector.tcpConnector = [w.connector.tcpConnector.sd]

def Armed (w : Wiring) : Prop := w.connector.reconnWaitTmr = .running

def Resting (w : Wiring) : Prop :=
  watched w.connector.tcpConnector = false ∧ w.connector.tcpConnector.tmr ≠ some .running ∧
    heldIn w.connector.tcpConnector = [] ∧ w.connector.reconnWaitTmr = .stopped

def Open (w : Wiring) : Prop := ∃ stream, w.stream = some stream ∧ isStarted stream.watcher = true

end Wiring

/-- What the master's state says about its connections. `accounts`: nothing is written to or
closed that is not open, nothing is closed twice, and all that is open is in the connector
or in the stream. -/
structure Lifecycle (w : Wiring) : Prop where
  connected : w.tcpState = .connected ↔ w.Open
  closed : w.tcpState ≠ .connected → w.stream = none
  connecting : w.tcpState = .connecting ↔ Xor w.Attempting w.Armed
  resting : w.tcpState ≠ .connecting → w.Resting
  accounts : settle w.ledger = some w.owned

inductive Stage (w : Wiring) : Prop
  | notConnected (state : w.tcpState = .notConnected) (closed : w.stream = none)
      (rest : w.Resting)
  | attempting (state : w.tcpState = .connecting) (closed : w.stream = none)
      (begun : watched w.connector.tcpConnector = true)
      (socket : 0 ≤ w.connector.tcpConnector.sd)
      (timer : w.connector.reconnWaitTmr = .stopped)
  | waiting (state : w.tcpState = .connecting) (closed : w.stream = none)
      (idle : watched w.connector.tcpConnector = false)
      (still : w.connector.tcpConnector.isInProg = false)
      (empty : w.connector.tcpConnector.sd = -1) (conn : w.connector.state = .reconnectWait)
      (armed : w.connector.reconnWaitTmr = .running)
  | connected (state : w.tcpState = .connected) (opened : w.Open) (rest : w.Resting)

/-- The accounts are kept, and nothing uninitialised was used unless the memory claimed an
attempt in progress. -/
structure Sound (held : Bool) (w : Wiring) : Prop where
  known : Known w.connector.tcpConnector
  accounts : settle w.ledger = some w.owned
  stage : Stage w
  tame : held = false → .net .astray ∉ w.log ∧
    (Untouched w.connector.tcpConnector → w.connector.tcpConnector.isInProg = false)

theorem accounts_append {w next : Wiring} {owned : List Int} {deeds : List SocketDeed}
    (accounts : settle w.ledger = some owned) (log : next.log = w.log ++ deeds) :
    settle next.ledger = (deeds.flatMap SocketDeed.entries).foldlM post owned := by
  rw [Wiring.ledger, log, List.flatMap_append]
  exact settle_append accounts _

theorem owned_closed {w : Wiring} (closed : w.stream = none) :
    w.owned = heldIn w.connector.tcpConnector := by
  rw [Wiring.owned, closed]
  exact List.append_nil _

theorem owned_opened {w : Wiring} {stream : Stream 512} (opened : w.stream = some stream)
    (empty : heldIn w.connector.tcpConnector = []) : w.owned = [stream.watcher.fd] := by
  rw [Wiring.owned, opened, empty]
  rfl

theorem resting_of {w : Wiring} (known : Known w.connector.tcpConnector)
    (idle : watched w.connector.tcpConnector = false)
    (empty : heldIn w.connector.tcpConnector = [])
    (timer : w.connector.reconnWaitTmr = .stopped) : w.Resting := by
  refine ⟨idle, ?_, empty, timer⟩
  rw [ne_eq, known.running, idle]
  exact Bool.false_ne_true

theorem streamStart_fd (sd : Int) (heap : Vector UInt8 512) :
    (streamStart (streamInitWithFd sd 128 heap)).watcher.fd = sd := by
  simp [streamStart, streamInitWithFd, watcherWatchErr, watcherWatchRx, watcherInitWithFd]

theorem streamStart_started (sd : Int) (heap : Vector UInt8 512) :
    isStarted (streamStart (streamInitWithFd sd 128 heap)).watcher = true :=
  isStarted_watcherStart _

structure Launching (held : Bool) (w : Wiring) : Prop where
  known : Known w.connector.tcpConnector
  empty : heldIn w.connector.tcpConnector = []
  timer : w.connector.reconnWaitTmr = .stopped
  state : w.tcpState = .connecting
  closed : w.stream = none
  accounts : settle w.ledger = some []
  tame : held = false → .net .astray ∉ w.log ∧
    (Untouched w.connector.tcpConnector → w.connector.tcpConnector.isInProg = false)

def Wiring.keep (w : Wiring) (conn : TcpAutoConnector) (deeds : List Deed) : Wiring :=
  { w with connector := conn, log := w.log ++ deeds.map .net }

theorem owned_keep {w : Wiring} (closed : w.stream = none) (conn : TcpAutoConnector)
    (deeds : List Deed) : (w.keep conn deeds).owned = heldIn conn.tcpConnector := by
  apply owned_closed
  exact closed

theorem take_silent (link : MasterLink) (heap : Vector UInt8 512) (conn : TcpAutoConnector)
    (deeds : List Deed) :
    (link.take heap (conn, deeds, none)).wiring = link.wiring.keep conn deeds := rfl

theorem take_failed (link : MasterLink) (heap : Vector UInt8 512) (conn : TcpAutoConnector)
    (deeds : List Deed) (after : Resumption) :
    (link.take heap (conn, deeds, some ⟨-1, after⟩)).wiring = link.wiring.keep conn deeds := rfl

theorem take_connected (link : MasterLink) (heap : Vector UInt8 512) (conn : TcpAutoConnector)
    (deeds : List Deed) {sd : Int} (good : 0 ≤ sd) (after : Resumption) :
    (link.take heap (conn, deeds, some ⟨sd, after⟩)).wiring =
      { link.wiring.keep conn deeds with
        tcpState := .connected
        stream := some (streamStart (streamInitWithFd sd 128 heap)) } := by
  have connects : sd ≥ 0 := good
  simp only [MasterLink.take, MasterLink.connectorCallback, modbusTcpMasterTcpConnectorCallback,
    if_pos connects]
  rfl

theorem keep_clean {w : Wiring} {deeds : List Deed} (clean : .net .astray ∉ w.log)
    (harmless : .astray ∉ deeds) : .net .astray ∉ w.log ++ deeds.map SocketDeed.net := by
  simp only [List.mem_append, List.mem_map, SocketDeed.net.injEq, exists_eq_right, not_or]
  exact ⟨clean, harmless⟩

theorem attempt_sound {held : Bool} {link : MasterLink} (answer : Answer)
    (ready : Launching held link.wiring) :
    Sound held (link.take answer.heap
      (tcpAutoConnectorConnect answer.kernel link.connector)).wiring := by
  have known : Known link.connector.tcpConnector := ready.known
  by_cases failed : answer.kernel.socket < 0
  · rcases tcpConnectorDeinit_known known.emptied with ⟨afterKnown, still, empty, idle⟩
    rw [connect_refused failed, tcpConnectorDeinit_emptied known, take_failed]
    refine ⟨afterKnown, ?_, .waiting ready.state ready.closed idle still empty rfl rfl, ?_⟩
    · rw [accounts_append ready.accounts rfl, owned_keep ready.closed, heldIn_empty empty]
      split_ifs <;> rfl
    · intro sane
      obtain ⟨clean, tame⟩ := ready.tame sane
      have idleMemory : ¬ (Untouched link.connector.tcpConnector ∧
          link.connector.tcpConnector.isInProg = true) := by
        rintro ⟨untouched, begun⟩
        exact Bool.false_ne_true ((tame untouched).symm.trans begun)
      rw [if_neg idleMemory]
      exact ⟨keep_clean clean List.not_mem_nil, fun _ => still⟩
  · have harmless : ∀ (deeds : List Deed) (conn : TcpAutoConnector), Tidy conn.tcpConnector →
        .astray ∉ deeds → held = false →
        .net .astray ∉ link.wiring.log ++ deeds.map SocketDeed.net ∧
          (Untouched conn.tcpConnector → conn.tcpConnector.isInProg = false) :=
      fun deeds conn tidy harmless sane =>
        ⟨keep_clean (ready.tame sane).1 harmless, fun raw => absurd raw tidy.touched⟩
    rcases connect_opened (Int.not_lt.mp failed) link.connector with
      ⟨after, tidy, ⟨begun, socket, moved⟩ | ⟨ended, empty, moved | moved⟩⟩
    · have good : 0 ≤ after.sd := socket ▸ Int.not_lt.mp failed
      have full : after.sd ≠ -1 := by omega
      rw [moved, take_silent]
      refine ⟨Or.inl tidy, ?_, .attempting ready.state ready.closed (tidy.watched.trans begun)
        good ready.timer, harmless _ _ tidy (by simp)⟩
      rw [accounts_append ready.accounts rfl, owned_keep ready.closed, heldIn_tidy tidy,
        if_neg full, socket]
      rfl
    · rw [moved, take_connected _ _ _ _ (Int.not_lt.mp failed)]
      have known : Known after := Or.inl tidy
      refine ⟨known, ?_, .connected rfl ⟨_, rfl, streamStart_started _ _⟩
        (resting_of known (tidy.watched.trans ended) (heldIn_empty empty) ready.timer),
        harmless _ _ tidy (by simp)⟩
      rw [accounts_append ready.accounts rfl, owned_opened rfl (heldIn_empty empty), streamStart_fd]
      simp [SocketDeed.entries]
    · rw [moved, take_failed]
      refine ⟨Or.inl tidy, ?_, .waiting ready.state ready.closed (tidy.watched.trans ended) ended
        empty rfl rfl, harmless _ _ tidy (by simp)⟩
      rw [accounts_append ready.accounts rfl, owned_keep ready.closed, heldIn_empty empty]
      simp [SocketDeed.entries]

theorem Sound.opened {held : Bool} {w : Wiring} (sound : Sound held w) {stream : Stream 512}
    (opened : w.stream = some stream) :
    w.tcpState = .connected ∧ isStarted stream.watcher = true ∧ w.Resting := by
  cases sound.stage with
  | connected state inside rest =>
      rcases inside with ⟨other, same, started⟩
      obtain rfl := Option.some.inj (opened.symm.trans same)
      exact ⟨state, started, rest⟩
  | notConnected _ closed => cases opened.symm.trans closed
  | attempting _ closed => cases opened.symm.trans closed
  | waiting _ closed => cases opened.symm.trans closed

theorem Sound.attempting {held : Bool} {w : Wiring} (sound : Sound held w)
    (waits : watched w.connector.tcpConnector = true) :
    w.tcpState = .connecting ∧ w.stream = none ∧ 0 ≤ w.connector.tcpConnector.sd ∧
      w.connector.reconnWaitTmr = .stopped := by
  cases sound.stage with
  | attempting state closed _ socket timer => exact ⟨state, closed, socket, timer⟩
  | notConnected _ _ rest => cases waits.symm.trans rest.1
  | connected _ _ rest => cases waits.symm.trans rest.1
  | waiting _ _ idle => cases waits.symm.trans idle

theorem Sound.rests {held : Bool} {w : Wiring} (sound : Sound held w)
    (elsewhere : w.tcpState ≠ .connecting) : w.Resting := by
  cases sound.stage with
  | notConnected _ _ rest => exact rest
  | connected _ _ rest => exact rest
  | attempting state => exact absurd state elsewhere
  | waiting state => exact absurd state elsewhere

theorem Sound.stream {held : Bool} {w : Wiring} (sound : Sound held w)
    (connected : w.tcpState = .connected) : ∃ stream, w.stream = some stream := by
  cases sound.stage with
  | connected _ opened =>
      rcases opened with ⟨stream, present, -⟩
      exact ⟨stream, present⟩
  | notConnected state => cases connected.symm.trans state
  | attempting state => cases connected.symm.trans state
  | waiting state => cases connected.symm.trans state

theorem log_clean {log : List SocketDeed} {deed : SocketDeed} (clean : .net .astray ∉ log)
    (harmless : deed ≠ .net .astray) : .net .astray ∉ log ++ [deed] := by
  simp only [List.mem_append, List.mem_singleton, not_or]
  exact ⟨clean, harmless.symm⟩

theorem Sound.restream {held : Bool} {w : Wiring} (sound : Sound held w) {stream after : Stream 512}
    (opened : w.stream = some stream) (fd : after.watcher.fd = stream.watcher.fd)
    (started : isStarted after.watcher = isStarted stream.watcher) :
    Sound held { w with stream := some after } ∧
      Sound held { w with
        stream := some after
        log := w.log ++ [.wrote stream.watcher.fd] } := by
  obtain ⟨state, running, rest⟩ := sound.opened opened
  have accounts := sound.accounts
  have still : isStarted after.watcher = true := started.trans running
  rw [owned_opened opened rest.2.2.1] at accounts
  have owns : Wiring.owned { w with stream := some after } = [stream.watcher.fd] :=
    fd ▸ owned_opened rfl rest.2.2.1
  have stillOwns : Wiring.owned { w with
      stream := some after
      log := w.log ++ [.wrote stream.watcher.fd] } = [stream.watcher.fd] :=
    fd ▸ owned_opened rfl rest.2.2.1
  constructor
  · exact ⟨sound.known, accounts.trans (congrArg some owns.symm),
      .connected state ⟨after, rfl, still⟩ rest, sound.tame⟩
  · refine ⟨sound.known, ?_, .connected state ⟨after, rfl, still⟩ rest, fun sane => ?_⟩
    · rw [accounts_append accounts rfl, stillOwns]
      simp [SocketDeed.entries]
    · exact ⟨log_clean (sound.tame sane).1 (by simp), (sound.tame sane).2⟩

theorem startReconnect_sound {held : Bool} {link : MasterLink} (sound : Sound held link.wiring)
    {stream : Stream 512} (opened : link.master.stream = some stream) (answer : Answer) :
    Sound held (link.startReconnect answer).wiring := by
  obtain ⟨-, -, rest⟩ := sound.opened opened
  have accounts := sound.accounts
  rw [owned_opened opened rest.2.2.1] at accounts
  simp only [MasterLink.startReconnect, MasterLink.closeStream, opened]
  apply attempt_sound answer
  refine ⟨sound.known, rest.2.2.1, rfl, rfl, rfl, ?_, fun sane => ?_⟩
  · rw [accounts_append accounts rfl]
    simp [SocketDeed.entries]
  · exact ⟨log_clean (sound.tame sane).1 (by simp), (sound.tame sane).2⟩

theorem streamWrite_same (stream : Stream 512) (data : List UInt8) (result : WriteResult) :
    (streamWrite stream data result).stream.watcher.fd = stream.watcher.fd ∧
      isStarted (streamWrite stream data result).stream.watcher = isStarted stream.watcher := by
  rcases streamWrite_watcher stream data result with same | watched <;>
    simp [*, watcherWatchTx]

/-- A request keeps the master sound, also when it starts the next attempt. -/
theorem request_sound {held : Bool} {link : MasterLink} (sound : Sound held link.wiring)
    (write : List UInt8 → WriteResult) (answer : Answer) (ctx : ModbusMasterCTX) (slave : UInt8) :
    Sound held (link.request write answer ctx slave).wiring := by
  by_cases connected : link.master.tcpState = .connected
  · rcases sound.stream connected with ⟨stream, opened⟩
    rcases request_written connected opened write answer ctx slave with
      ⟨ctx', data, result, written⟩
    obtain ⟨fd, started⟩ := streamWrite_same stream data result
    have sent : Sound held (link.sent ctx' stream (streamWrite stream data result).stream).wiring :=
      (sound.restream opened fd started).2
    rcases written with written | retried
    · rw [written]
      exact sent
    · rw [retried]
      exact startReconnect_sound sent rfl answer
  · simp only [MasterLink.request, ne_eq, connected, not_false_eq_true, if_true]
    exact sound

theorem issue_sound {held : Bool} {link next : MasterLink} (sound : Sound held link.wiring)
    (request : IssuedRequest) (issued : link.issue request = some next) :
    Sound held next.wiring := by
  rcases MasterCall.run_some issued with ⟨ctx, -, requested⟩
  obtain rfl := Option.some.inj requested
  exact request_sound sound request.write request.answer ctx request.call.slave

theorem issues_sound {held : Bool} {link next : MasterLink} (sound : Sound held link.wiring)
    {requests : List IssuedRequest}
    (issued : requests.foldlM MasterLink.issue link = some next) : Sound held next.wiring :=
  Run.invariant (J := fun link => Sound held link.wiring)
    (fun _ request _ before step => issue_sound before request step) sound issued

def SoundEnv (held : Bool) (env : Option (MasterLink × List (List IssuedRequest))) : Prop :=
  ∀ link script, env = some (link, script) → Sound held link.wiring

theorem gotFrame_sound {held : Bool} (mbap : MbapReader)
    (env : Option (MasterLink × List (List IssuedRequest))) (sound : SoundEnv held env) :
    SoundEnv held (MasterLink.gotFrame mbap env).2 := by
  rcases env with none | ⟨link, script⟩
  · exact sound
  · have here : Sound held link.wiring := sound link script rfl
    intro next rest after
    simp only [MasterLink.gotFrame] at after
    split at after
    · split at after
      · cases after
      · rename_i called
        obtain ⟨rfl, -⟩ := Prod.mk.inj (Option.some.inj after)
        refine issues_sound ?_ called
        exact here
    · obtain ⟨rfl, -⟩ := Prod.mk.inj (Option.some.inj after)
      exact here

theorem feedByte_sound {held : Bool} {connection : Nat}
    {fed next : MasterLink × List (List IssuedRequest)} (sound : Sound held fed.1.wiring)
    (data : UInt8) (step : MasterLink.feedByte connection fed data = some next) :
    Sound held next.1.wiring := by
  rcases fed with ⟨link, script⟩
  simp only [MasterLink.feedByte, bind, Option.bind_eq_some_iff] at step
  rcases step with ⟨⟨mbap, env⟩, ran, ⟨after, rest⟩, rfl, done⟩
  obtain rfl := Option.some.inj done
  have kept := mbapStateMachine_kept (P := SoundEnv held) gotFrame_sound ran
  refine kept ?_ after rest rfl
  intro noted script' same
  obtain ⟨rfl, -⟩ := Prod.mk.inj (Option.some.inj same)
  exact sound

/-- A chunk keeps the master sound, whatever the callbacks do in the middle of it. -/
theorem feed_sound {held : Bool} {connection : Nat}
    {fed next : MasterLink × List (List IssuedRequest)} (sound : Sound held fed.1.wiring)
    {bytes : List UInt8} (ran : MasterLink.feed connection fed bytes = some next) :
    Sound held next.1.wiring :=
  Run.invariant (J := fun fed => Sound held fed.1.wiring)
    (fun _ data _ before step => feedByte_sound before data step) sound ran

theorem Sound.waited {held : Bool} {link : MasterLink} (sound : Sound held link.wiring)
    (waits : watched link.connector.tcpConnector = true) :
    Tidy link.connector.tcpConnector ∧ link.connector.tcpConnector.isInProg = true ∧
      link.master.tcpState = .connecting ∧ link.master.stream = none ∧
      0 ≤ link.connector.tcpConnector.sd ∧ link.connector.reconnWaitTmr = .stopped ∧
      settle link.wiring.ledger = some [link.connector.tcpConnector.sd] := by
  have known : Known link.connector.tcpConnector := sound.known
  obtain ⟨tidy, begun⟩ := known.tidy waits
  obtain ⟨state, closed, socket, timer⟩ := sound.attempting waits
  have owns : link.wiring.owned = [link.connector.tcpConnector.sd] := by
    have holds := heldIn_tidy tidy
    rw [if_neg (tidy.progress begun)] at holds
    exact (owned_closed closed).trans holds
  exact ⟨tidy, begun, state, closed, socket, timer, owns ▸ sound.accounts⟩

theorem completed_sound {held : Bool} {link : MasterLink} (sound : Sound held link.wiring)
    (waits : watched link.connector.tcpConnector = true) (err : Int) (heap : Vector UInt8 512) :
    Sound held (link.take heap (attemptCompleted err link.connector)).wiring := by
  obtain ⟨tidy, begun, state, closed, socket, timer, accounts⟩ := sound.waited waits
  rcases attemptCompleted_cases tidy begun err with ⟨after, tidy, ended, empty, moved | moved⟩
  · rw [moved, take_connected _ _ _ _ socket]
    have known : Known after := Or.inl tidy
    refine ⟨known, ?_, .connected rfl ⟨_, rfl, streamStart_started _ _⟩
      (resting_of known (tidy.watched.trans ended) (heldIn_empty empty) timer), fun sane => ?_⟩
    · rw [accounts_append accounts rfl, owned_opened rfl (heldIn_empty empty), streamStart_fd]
      simp [SocketDeed.entries]
    · exact ⟨keep_clean (sound.tame sane).1 (by simp), fun raw => absurd raw tidy.touched⟩
  · rw [moved, take_failed]
    refine ⟨Or.inl tidy, ?_, .waiting state closed (tidy.watched.trans ended) ended empty rfl rfl,
      fun sane => ?_⟩
    · rw [accounts_append accounts rfl, owned_keep closed, heldIn_empty empty]
      simp [SocketDeed.entries]
    · exact ⟨keep_clean (sound.tame sane).1 (by simp), fun raw => absurd raw tidy.touched⟩

theorem timedOut_sound {held : Bool} {link : MasterLink} (sound : Sound held link.wiring)
    (expired : link.connector.tcpConnector.tmr = some .running) (answer : Answer) :
    Sound held ((link.take answer.heap (attemptTimedOut link.connector)).take answer.heap
      (tcpAutoConnectorConnect answer.kernel
        (link.take answer.heap (attemptTimedOut link.connector)).connector)).wiring := by
  have known : Known link.connector.tcpConnector := sound.known
  obtain ⟨tidy, begun, state, closed, socket, timer, accounts⟩ :=
    sound.waited (known.running.mp expired)
  rcases attemptTimedOut_eq tidy begun with ⟨after, tidy, ended, empty, moved⟩
  apply attempt_sound
  rw [moved, take_failed]
  refine ⟨Or.inl tidy, heldIn_empty empty, timer, state, closed, ?_, fun sane => ?_⟩
  · rw [accounts_append accounts rfl]
    simp [SocketDeed.entries]
  · exact ⟨keep_clean (sound.tame sane).1 (by simp), fun raw => absurd raw tidy.touched⟩

theorem expired_sound {held : Bool} {link : MasterLink} (sound : Sound held link.wiring)
    (armed : link.connector.reconnWaitTmr = .running) (answer : Answer) :
    Sound held (link.take answer.heap (reconnWaitTimeout answer.kernel link.connector)).wiring := by
  cases sound.stage with
  | notConnected _ _ rest => cases armed.symm.trans rest.2.2.2
  | connected _ _ rest => cases armed.symm.trans rest.2.2.2
  | attempting _ _ _ _ timer => cases armed.symm.trans timer
  | waiting state closed idle still empty =>
      let waited : MasterLink :=
        { link with connector := { link.connector with reconnWaitTmr := .stopped } }
      have ready : Launching held waited.wiring := by
        have accounts := sound.accounts
        rw [owned_closed closed, heldIn_empty empty] at accounts
        exact ⟨sound.known, heldIn_empty empty, rfl, state, closed, accounts, sound.tame⟩
      exact attempt_sound answer ready

theorem start_sound {held : Bool} {link : MasterLink} (sound : Sound held link.wiring)
    (state : link.master.tcpState = .notConnected) (answer : Answer) :
    Sound held (link.start answer).wiring := by
  have elsewhere : link.wiring.tcpState ≠ .connecting := fun other => nomatch state.symm.trans other
  obtain ⟨-, -, empty, timer⟩ := sound.rests elsewhere
  cases sound.stage with
  | notConnected _ closed =>
      have accounts := sound.accounts
      rw [owned_closed closed, empty] at accounts
      apply attempt_sound answer
      exact ⟨sound.known, empty, timer, rfl, closed, accounts, sound.tame⟩
  | connected other => cases state.symm.trans other
  | attempting other => cases state.symm.trans other
  | waiting other => cases state.symm.trans other

def Wiring.abandoned (w : Wiring) (conn : TcpAutoConnector) (deeds : List Deed) : Wiring where
  tcpState := .notConnected
  stream := none
  connector := conn
  log := w.log ++ deeds.map .net

theorem abandoned_sound {held : Bool} {w : Wiring} (sound : Sound held w) {conn : TcpAutoConnector}
    {deeds : List Deed} (known : Known conn.tcpConnector)
    (rest : (w.abandoned conn deeds).Resting)
    (balance : ((deeds.map SocketDeed.net).flatMap SocketDeed.entries).foldlM post w.owned = some [])
    (harmless : .astray ∉ deeds)
    (tame : held = false → Untouched conn.tcpConnector → conn.tcpConnector.isInProg = false) :
    Sound held (w.abandoned conn deeds) where
  known := known
  accounts := by
    have owns : (w.abandoned conn deeds).owned = [] := (owned_closed rfl).trans rest.2.2.1
    rw [accounts_append sound.accounts rfl, balance, owns]
  stage := .notConnected rfl rfl rest
  tame := fun sane => ⟨keep_clean (sound.tame sane).1 harmless, tame sane⟩

theorem stop_connecting {link : MasterLink} (state : link.master.tcpState = .connecting)
    (closed : link.master.stream = none) :
    link.stop.wiring = link.wiring.abandoned (tcpAutoConnectorStop link.connector).1
      (tcpAutoConnectorStop link.connector).2 := by
  simp only [MasterLink.stop, state, MasterLink.wiring, closed]
  rfl

theorem stop_connected {link : MasterLink} {stream : Stream 512}
    (state : link.master.tcpState = .connected) (opened : link.master.stream = some stream) :
    link.stop.wiring = link.wiring.abandoned link.connector [.closed stream.watcher.fd] := by
  simp only [MasterLink.stop, state, MasterLink.closeStream, opened]
  rfl

theorem stop_sound {held : Bool} {link : MasterLink} (sound : Sound held link.wiring) :
    Sound held link.stop.wiring := by
  cases sound.stage with
  | notConnected state closed rest =>
      have unchanged : link.stop.wiring = link.wiring := by
        have same : link.master.tcpState = .notConnected := state
        simp only [MasterLink.stop, same, MasterLink.wiring]
      rw [unchanged]
      exact sound
  | attempting state closed begun socket timer =>
      obtain ⟨tidy, -⟩ := sound.waited begun
      have full : link.connector.tcpConnector.sd ≠ -1 := by
        intro empty
        rw [MasterLink.wiring, empty] at socket
        omega
      have owns : link.wiring.owned = [link.connector.tcpConnector.sd] := by
        have holds := heldIn_tidy tidy
        rw [if_neg full] at holds
        exact (owned_closed closed).trans holds
      rcases tcpConnectorDeinit_wired tidy.toWired with ⟨after, given, tidy, ended, empty⟩
      rw [if_neg full] at given
      rw [stop_connecting state closed, tcpAutoConnectorStop_eq, given]
      have known : Known after := Or.inl tidy
      apply abandoned_sound sound known
      · apply resting_of known (tidy.watched.trans ended) (heldIn_empty empty)
        exact ite_eq_left_iff.mpr fun _ => timer
      · rw [owns]
        simp [SocketDeed.entries]
      · simp
      · exact fun _ raw => absurd raw tidy.touched
  | waiting state closed idle still empty conn =>
      have nothing : tcpConnectorDeinit link.connector.tcpConnector =
          (link.connector.tcpConnector, []) := by
        have done : link.connector.tcpConnector.isInProg = false := still
        have none : link.connector.tcpConnector.sd = -1 := empty
        simp [tcpConnectorDeinit, done, none]
      have owns : link.wiring.owned = [] := (owned_closed closed).trans (heldIn_empty empty)
      rw [stop_connecting state closed, tcpAutoConnectorStop_eq, nothing]
      apply abandoned_sound sound
      · exact sound.known
      · exact resting_of sound.known idle (heldIn_empty empty) (if_pos conn)
      · rw [owns]
        rfl
      · exact List.not_mem_nil
      · exact fun _ _ => still
  | connected state opened rest =>
      rcases opened with ⟨stream, present, -⟩
      rw [stop_connected state present]
      apply abandoned_sound sound sound.known
      · exact rest
      · rw [owned_opened present rest.2.2.1]
        simp [SocketDeed.entries]
      · simp
      · exact fun sane => (sound.tame sane).2

theorem txEvent_same {stream after : Stream 512} {result : WriteResult} {accepted : List UInt8}
    (ran : streamHandleTxEvent stream result = some (after, accepted)) :
    after.watcher.fd = stream.watcher.fd ∧
      isStarted after.watcher = isStarted stream.watcher := by
  unfold streamHandleTxEvent at ran
  split at ran
  · obtain ⟨rfl, -⟩ := Prod.mk.inj (Option.some.inj ran)
    simp [watcherNoWatchTx]
  · dsimp only at ran
    split at ran
    · cases ran
    · obtain ⟨rfl, -⟩ := Prod.mk.inj (Option.some.inj ran)
      dsimp only
      split <;> simp [watcherNoWatchTx]

theorem linkStep_sound {held : Bool} {link next : MasterLink} (sound : Sound held link.wiring)
    (event : LinkEvent) (step : linkStep link event = some next) : Sound held next.wiring := by
  cases event with
  | start answer =>
      obtain ⟨state, done⟩ := Option.ite_none_right_eq_some.mp step
      obtain rfl := Option.some.inj done
      exact start_sound sound state answer
  | stop =>
      obtain rfl := Option.some.inj step
      exact stop_sound sound
  | request request => exact issue_sound sound request step
  | rx bytes script =>
      rcases linkStep_rx step with ⟨stream, rest, opened, ran⟩
      let received : Stream 512 := { stream with rxData := bytes }
      have same : received.watcher.fd = stream.watcher.fd := rfl
      refine feed_sound ?_ ran
      exact (sound.restream opened same rfl).1
  | lost answer =>
      obtain ⟨present, done⟩ := Option.ite_none_right_eq_some.mp step
      obtain rfl := Option.some.inj done
      rcases Option.isSome_iff_exists.mp present with ⟨stream, opened⟩
      exact startReconnect_sound sound opened answer
  | tx result =>
      rcases linkStep_tx step with ⟨stream, after, accepted, opened, ran, rfl⟩
      obtain ⟨fd, started⟩ := txEvent_same ran
      exact (sound.restream opened fd started).2
  | completed err heap =>
      obtain ⟨waits, done⟩ := Option.ite_none_right_eq_some.mp step
      obtain rfl := Option.some.inj done
      exact completed_sound sound waits err heap
  | timedOut answer =>
      obtain ⟨running, done⟩ := Option.ite_none_right_eq_some.mp step
      obtain rfl := Option.some.inj done
      exact timedOut_sound sound running answer
  | expired answer =>
      obtain ⟨armed, done⟩ := Option.ite_none_right_eq_some.mp step
      obtain rfl := Option.some.inj done
      exact expired_sound sound armed answer

theorem Sound.lifecycle {held : Bool} {w : Wiring} (sound : Sound held w) : Lifecycle w := by
  have opens (stream : Stream 512) (opened : w.stream = some stream) : w.tcpState = .connected :=
    (sound.opened opened).1
  constructor
  · constructor
    · intro connected
      rcases sound.stream connected with ⟨stream, opened⟩
      exact ⟨stream, opened, (sound.opened opened).2.1⟩
    · rintro ⟨stream, opened, -⟩
      exact opens stream opened
  · intro elsewhere
    cases opened : w.stream with
    | none => rfl
    | some stream => exact absurd (opens stream opened) elsewhere
  · have idle (rest : w.Resting) : ¬ Xor w.Attempting w.Armed := by
      rintro (⟨attempting, -⟩ | ⟨armed, -⟩)
      · cases rest.1.symm.trans attempting.2.1
      · cases rest.2.2.2.symm.trans armed
    cases sound.stage with
    | notConnected state _ rest => simp [state, idle rest]
    | connected state _ rest => simp [state, idle rest]
    | attempting state _ begun _ timer =>
        obtain ⟨tidy, progress⟩ := sound.known.tidy begun
        have holds := heldIn_tidy tidy
        rw [if_neg (tidy.progress progress)] at holds
        have disarmed : ¬ w.Armed := fun armed => nomatch timer.symm.trans armed
        exact iff_of_true state
          (Or.inl ⟨⟨progress, begun, sound.known.running.mpr begun, holds⟩, disarmed⟩)
    | waiting state _ still _ _ _ armed =>
        have ended : ¬ w.Attempting := fun attempting => nomatch still.symm.trans attempting.2.1
        exact iff_of_true state (Or.inr ⟨armed, ended⟩)
  · exact sound.rests
  · exact sound.accounts

theorem masterLink_sound (memory : ModbusTCPMaster) (sd : Int) (isInProg : Bool)
    (state : TcpAutoConnectorState) :
    Sound isInProg (masterLink memory sd isInProg state).wiring where
  known := Or.inr ⟨rfl, rfl⟩
  accounts := rfl
  stage := .notConnected rfl rfl ⟨rfl, nofun, rfl, rfl⟩
  tame := fun idle => ⟨List.not_mem_nil, fun _ => idle⟩

/-- In every run, in whatever order the events come and whatever the callbacks do, a master
is connected exactly when its stream is open and connecting exactly when it either attempts
to connect or waits to try again; it writes to open streams only, and closes every socket it
opens at most once and forgets none. Nothing uninitialised is used unless the memory of the
connector claims an attempt in progress. -/
theorem master_lifecycle (memory : ModbusTCPMaster) (sd : Int) (isInProg : Bool)
    (state : TcpAutoConnectorState) (events : List LinkEvent) :
    Lifecycle (masterLink memory sd isInProg state).wiring ∧
      Along linkStep (fun _ _ next => Lifecycle next.wiring ∧
        (isInProg = false → .net .astray ∉ next.log))
        (masterLink memory sd isInProg state) events := by
  have start := masterLink_sound memory sd isInProg state
  refine ⟨start.lifecycle, ?_⟩
  apply along_of_invariant (J := fun link => Sound isInProg link.wiring) _ _ events start
  · exact fun _ event _ sound step => linkStep_sound sound event step
  · intro link event next sound step
    have after := linkStep_sound sound event step
    exact ⟨after.lifecycle, fun idle => (after.tame idle).1⟩

end KongjaExpress.Modbus
