import KongjaExpress.Net.TcpConnector

/-! The connector of `tcp_auto_connector.c`, which tries again until it is connected. The
user's callback stands outside: a function that calls it returns the call and what is
still to be done after it. -/

namespace KongjaExpress.Net

open EventLoop

/-- `tcp_auto_connector_state_t`. -/
inductive TcpAutoConnectorState
  | notStarted | connecting | reconnectWait
  deriving DecidableEq, Repr

structure TcpAutoConnector where
  tcpConnector : TcpConnector
  reconnWaitTmr : TaskTimer
  state : TcpAutoConnectorState
  deriving DecidableEq, Repr

/-- What a function does after the callback has returned to it. -/
inductive Resumption
  | done
  /-- `tcp_auto_connector_connect`. -/
  | reconnect
  deriving DecidableEq, Repr

/-- `conn->cb(conn, sd)`. -/
structure Callback where
  sd : Int
  after : Resumption
  deriving DecidableEq, Repr

abbrev Outcome := TcpAutoConnector × List Deed × Option Callback

def handleTcpConnectEvent (conn : TcpAutoConnector) : TcpConnectorStatus → Outcome
  | .success =>
      let conn := { conn with state := .notStarted }
      let (sd, tcpConnector) := tcpConnectGetSd conn.tcpConnector
      ({ conn with tcpConnector := tcpConnector }, [.handed sd], some ⟨sd, .done⟩)
  | .failure =>
      let (tcpConnector, deeds) := tcpConnectorDeinit conn.tcpConnector
      ({ conn with
          tcpConnector := tcpConnector
          state := .reconnectWait
          reconnWaitTmr := taskTimerStart conn.reconnWaitTmr }, deeds, some ⟨-1, .done⟩)
  | .inProgress => ({ conn with state := .connecting }, [], none)
  | .timeout =>
      let (tcpConnector, deeds) := tcpConnectorDeinit conn.tcpConnector
      ({ conn with tcpConnector := tcpConnector }, deeds, some ⟨-1, .reconnect⟩)

def tcpAutoConnectorConnect (kernel : Kernel) (conn : TcpAutoConnector) : Outcome :=
  let (ret, tcpConnector, deeds) := tcpConnectorTryIpv4 kernel conn.tcpConnector
  let (conn, more, call) := handleTcpConnectEvent { conn with tcpConnector := tcpConnector } ret
  (conn, deeds ++ more, call)

/-- The timer that has expired is not running any more. -/
def reconnWaitTimeout (kernel : Kernel) (conn : TcpAutoConnector) : Outcome :=
  tcpAutoConnectorConnect kernel { conn with reconnWaitTmr := .stopped }

/-- `__tcp_connector_watcher_callback` with the callback it calls. -/
def attemptCompleted (err : Int) (conn : TcpAutoConnector) : Outcome :=
  let (status, tcpConnector) := tcpConnectorWatcherCallback conn.tcpConnector err
  handleTcpConnectEvent { conn with tcpConnector := tcpConnector } status

/-- `__tcp_connector_timeout` with the callback it calls. -/
def attemptTimedOut (conn : TcpAutoConnector) : Outcome :=
  let (status, tcpConnector) := tcpConnectorTimeout conn.tcpConnector
  handleTcpConnectEvent { conn with tcpConnector := tcpConnector } status

/-- `tcp_auto_connector_init`, which leaves the connector inside as it is. -/
def tcpAutoConnectorInit (memory : TcpAutoConnector) : TcpAutoConnector :=
  { memory with reconnWaitTmr := taskTimerInit, state := .notStarted }

def tcpAutoConnectorStart (kernel : Kernel) (conn : TcpAutoConnector) : Outcome :=
  tcpAutoConnectorConnect kernel conn

def tcpAutoConnectorStop (conn : TcpAutoConnector) : TcpAutoConnector × List Deed :=
  let (conn, deeds) :=
    match conn.state with
    | .notStarted | .connecting =>
        let (tcpConnector, deeds) := tcpConnectorDeinit conn.tcpConnector
        ({ conn with tcpConnector := tcpConnector }, deeds)
    | .reconnectWait =>
        let (tcpConnector, deeds) := tcpConnectorDeinit conn.tcpConnector
        ({ conn with
            tcpConnector := tcpConnector
            reconnWaitTmr := taskTimerStop conn.reconnWaitTmr }, deeds)
  ({ conn with state := .notStarted }, deeds)

/-- Memory with arbitrary contents; nothing can be said of the timer and the watcher
in it. -/
def rawMemory (sd : Int) (isInProg : Bool) (state : TcpAutoConnectorState) : TcpAutoConnector where
  tcpConnector := ⟨sd, isInProg, none, none⟩
  reconnWaitTmr := .stopped
  state := state

def watched (conn : TcpConnector) : Bool :=
  match conn.watcher with
  | some watcher => evIo watcher .tx
  | none => false

theorem Wired.watched {conn : TcpConnector} (wired : Wired conn) :
    watched conn = conn.isInProg := by
  rcases wired.watcher with ⟨sd, same⟩
  rw [Net.watched, same]
  exact evIo_connectWatcher sd conn.isInProg

theorem Wired.running {conn : TcpConnector} (wired : Wired conn) :
    conn.tmr = some .running ↔ conn.isInProg = true := by
  rw [wired.tmr]
  cases conn.isInProg <;> decide

def Known (conn : TcpConnector) : Prop := Tidy conn ∨ Untouched conn

theorem Known.running {conn : TcpConnector} (known : Known conn) :
    conn.tmr = some .running ↔ watched conn = true := by
  rcases known with tidy | untouched
  · rw [tidy.running, tidy.watched]
  · rw [watched, untouched.1, untouched.2]
    decide

theorem Known.tidy {conn : TcpConnector} (known : Known conn) (waits : watched conn = true) :
    Tidy conn ∧ conn.isInProg = true := by
  rcases known with tidy | untouched
  · exact ⟨tidy, tidy.watched ▸ waits⟩
  · rw [watched, untouched.2] at waits
    cases waits

/-- What is known of a connector when its field `sd` is overwritten. -/
theorem Known.emptied {conn : TcpConnector} (known : Known conn) :
    Wired { conn with sd := -1 } ∨ Untouched { conn with sd := -1 } :=
  known.imp (fun tidy => ⟨tidy.watcher, tidy.tmr⟩) id

theorem tcpConnectorDeinit_known {conn : TcpConnector} (given : Wired conn ∨ Untouched conn) :
    Known (tcpConnectorDeinit conn).1 ∧ (tcpConnectorDeinit conn).1.isInProg = false ∧
      (tcpConnectorDeinit conn).1.sd = -1 ∧ watched (tcpConnectorDeinit conn).1 = false := by
  rcases given with wired | untouched
  · rcases tcpConnectorDeinit_wired wired with ⟨after, given, tidy, idle, empty⟩
    rw [given]
    exact ⟨Or.inl tidy, idle, empty, tidy.watched.trans idle⟩
  · rw [tcpConnectorDeinit_untouched untouched]
    refine ⟨Or.inr untouched, rfl, rfl, ?_⟩
    rw [watched, untouched.2]

/-- A connector whose field `sd` has been overwritten uses what was never initialised if the
memory claims an attempt in progress. -/
theorem tcpConnectorDeinit_emptied {conn : TcpConnector} (known : Known conn) :
    (tcpConnectorDeinit { conn with sd := -1 }).2 =
      if Untouched conn ∧ conn.isInProg = true then [.astray] else [] := by
  rcases known with tidy | untouched
  · have emptied : Wired { conn with sd := -1 } := ⟨tidy.watcher, tidy.tmr⟩
    rcases tcpConnectorDeinit_wired emptied with ⟨after, given, -⟩
    have touched : ¬ (Untouched conn ∧ conn.isInProg = true) := fun both => tidy.touched both.1
    rw [given, if_neg touched]
    rfl
  · have still : Untouched { conn with sd := -1 } := untouched
    rw [tcpConnectorDeinit_untouched still]
    simp [untouched]

theorem connect_refused {kernel : Kernel} (failed : kernel.socket < 0) (conn : TcpAutoConnector) :
    tcpAutoConnectorConnect kernel conn =
      ({ conn with
          tcpConnector := (tcpConnectorDeinit { conn.tcpConnector with sd := -1 }).1
          state := .reconnectWait
          reconnWaitTmr := .running },
        (tcpConnectorDeinit { conn.tcpConnector with sd := -1 }).2, some ⟨-1, .done⟩) := by
  rw [tcpAutoConnectorConnect, tcpConnectorTryIpv4, if_pos failed]
  rfl

theorem connect_opened {kernel : Kernel} (opened : 0 ≤ kernel.socket) (conn : TcpAutoConnector) :
    ∃ after, Tidy after ∧
      (after.isInProg = true ∧ after.sd = kernel.socket ∧
          tcpAutoConnectorConnect kernel conn =
            ({ conn with tcpConnector := after, state := .connecting },
              [.opened kernel.socket], none) ∨
        after.isInProg = false ∧ after.sd = -1 ∧
          (tcpAutoConnectorConnect kernel conn =
              ({ conn with tcpConnector := after, state := .notStarted },
                [.opened kernel.socket, .handed kernel.socket], some ⟨kernel.socket, .done⟩) ∨
            tcpAutoConnectorConnect kernel conn =
              ({ conn with
                  tcpConnector := after, state := .reconnectWait, reconnWaitTmr := .running },
                [.opened kernel.socket, .closed kernel.socket], some ⟨-1, .done⟩))) := by
  rcases tcpConnectorTryIpv4_cases kernel conn.tcpConnector with
    ⟨failed, -⟩ | ⟨-, status, held, tried, tidy, same, progress⟩
  · omega
  · rw [tcpAutoConnectorConnect, tried]
    rcases progress with ⟨rfl, begun⟩ | ⟨rfl | rfl, ended⟩
    · exact ⟨held, tidy, Or.inl ⟨begun, same, rfl⟩⟩
    · have kept : Tidy { held with sd := -1 } := ⟨⟨tidy.watcher, tidy.tmr⟩, by simp [ended]⟩
      refine ⟨_, kept, Or.inr ⟨ended, rfl, Or.inl ?_⟩⟩
      rw [← same]
      rfl
    · rcases tcpConnectorDeinit_wired tidy.toWired with ⟨after, given, tidy, idle, empty⟩
      refine ⟨after, tidy, Or.inr ⟨idle, empty, Or.inr ?_⟩⟩
      have full : held.sd ≠ -1 := by omega
      rw [if_neg full, same] at given
      simp only [handleTcpConnectEvent, given]
      rfl

theorem attemptCompleted_cases {conn : TcpAutoConnector} (tidy : Tidy conn.tcpConnector)
    (begun : conn.tcpConnector.isInProg = true) (err : Int) :
    ∃ after, Tidy after ∧ after.isInProg = false ∧ after.sd = -1 ∧
      (attemptCompleted err conn =
          ({ conn with tcpConnector := after, state := .notStarted },
            [.handed conn.tcpConnector.sd], some ⟨conn.tcpConnector.sd, .done⟩) ∨
        attemptCompleted err conn =
          ({ conn with
              tcpConnector := after, state := .reconnectWait, reconnWaitTmr := .running },
            [.closed conn.tcpConnector.sd], some ⟨-1, .done⟩)) := by
  have full := tidy.progress begun
  have ended := watcherCallback_tidy tidy err
  by_cases good : err = 0
  · have kept : Tidy { (tcpConnectorWatcherCallback conn.tcpConnector err).2 with sd := -1 } :=
      ⟨⟨ended.watcher, ended.tmr⟩, nofun⟩
    refine ⟨_, kept, rfl, rfl, Or.inl ?_⟩
    simp only [attemptCompleted, tcpConnectorWatcherCallback, if_pos good]
    rfl
  · rcases tcpConnectorDeinit_wired ended.toWired with ⟨after, given, tidy, idle, empty⟩
    refine ⟨after, tidy, idle, empty, Or.inr ?_⟩
    have closes : (tcpConnectorWatcherCallback conn.tcpConnector err).2.sd ≠ -1 := full
    rw [if_neg closes] at given
    simp only [tcpConnectorWatcherCallback] at given
    simp only [attemptCompleted, tcpConnectorWatcherCallback, if_neg good, handleTcpConnectEvent,
      given]
    rfl

theorem attemptTimedOut_eq {conn : TcpAutoConnector} (tidy : Tidy conn.tcpConnector)
    (begun : conn.tcpConnector.isInProg = true) :
    ∃ after, Tidy after ∧ after.isInProg = false ∧ after.sd = -1 ∧
      attemptTimedOut conn =
        ({ conn with tcpConnector := after }, [.closed conn.tcpConnector.sd],
          some ⟨-1, .reconnect⟩) := by
  have full := tidy.progress begun
  rcases tcpConnectorDeinit_wired (timeout_tidy tidy).toWired with ⟨after, given, tidy, idle, empty⟩
  refine ⟨after, tidy, idle, empty, ?_⟩
  have closes : (tcpConnectorTimeout conn.tcpConnector).2.sd ≠ -1 := full
  rw [if_neg closes] at given
  simp only [tcpConnectorTimeout] at given
  simp only [attemptTimedOut, tcpConnectorTimeout, handleTcpConnectEvent, given]

theorem tcpAutoConnectorStop_eq (conn : TcpAutoConnector) :
    tcpAutoConnectorStop conn =
      ({ tcpConnector := (tcpConnectorDeinit conn.tcpConnector).1
         reconnWaitTmr :=
          if conn.state = .reconnectWait then .stopped else conn.reconnWaitTmr
         state := .notStarted }, (tcpConnectorDeinit conn.tcpConnector).2) := by
  rcases conn with ⟨tcpConnector, reconnWaitTmr, state⟩
  cases state <;> rfl

end KongjaExpress.Net
