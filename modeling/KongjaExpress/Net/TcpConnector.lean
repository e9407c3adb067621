import KongjaExpress.Core.Watcher

/-! The connect attempts of `tcp_connector.c`. What `socket` and `connect` return comes
from the kernel. -/

namespace KongjaExpress.Net

open EventLoop

/-- A `task_timer_t` that is initialised: whether it is started on the event loop. -/
inductive TaskTimer
  | stopped | running
  deriving DecidableEq, Repr

def taskTimerInit : TaskTimer := .stopped
def taskTimerStart (_t : TaskTimer) : TaskTimer := .running
def taskTimerStop (_t : TaskTimer) : TaskTimer := .stopped

inductive ConnectResult
  | success | inProgress | error
  deriving DecidableEq, Repr

/-- What the kernel answers to one attempt: a descriptor or a negative number, and the
outcome of `connect`. -/
structure Kernel where
  socket : Int
  connect : ConnectResult
  deriving DecidableEq, Repr

/-- What is done with descriptors. `astray` is the use of a timer and a watcher in memory
that was never initialised. -/
inductive Deed
  | opened (sd : Int)
  | closed (sd : Int)
  | handed (sd : Int)
  | astray
  deriving DecidableEq, Repr

/-- `tcp_connector_status_t`. -/
inductive TcpConnectorStatus
  | success | failure | inProgress | timeout
  deriving DecidableEq, Repr

/-- `tcp_connector_t`; timer and watcher are none before `tcp_connector_init`. -/
structure TcpConnector where
  sd : Int
  isInProg : Bool
  tmr : Option TaskTimer
  watcher : Option Watcher
  deriving DecidableEq, Repr

def tcpConnectorInit (conn : TcpConnector) (sd : Int) : TcpConnector :=
  { conn with
    sd := sd
    isInProg := false
    watcher := some (watcherWatchTx (watcherInitWithFd sd))
    tmr := some taskTimerInit }

def tcpConnectorConnect (conn : TcpConnector) (result : ConnectResult) :
    TcpConnectorStatus × TcpConnector :=
  if conn.isInProg then (.failure, conn)
  else
    match result with
    | .success => (.success, conn)
    | .error => (.failure, conn)
    | .inProgress =>
        (.inProgress, { conn with
          isInProg := true
          watcher := conn.watcher.map watcherStart
          tmr := conn.tmr.map taskTimerStart })

def tcpConnectorTryIpv4 (kernel : Kernel) (conn : TcpConnector) :
    TcpConnectorStatus × TcpConnector × List Deed :=
  let conn := { conn with sd := -1 }
  if kernel.socket < 0 then (.failure, conn, [])
  else
    let (status, conn) := tcpConnectorConnect (tcpConnectorInit conn kernel.socket) kernel.connect
    (status, conn, [.opened kernel.socket])

def tcpConnectorDeinit (conn : TcpConnector) : TcpConnector × List Deed :=
  let (conn, deeds) :=
    if conn.isInProg then
      ({ conn with
          isInProg := false
          watcher := conn.watcher.map watcherStop
          tmr := conn.tmr.map taskTimerStop },
        if conn.tmr.isNone then [Deed.astray] else [])
    else (conn, [])
  if conn.sd ≠ -1 then ({ conn with sd := -1 }, deeds ++ [.closed conn.sd]) else (conn, deeds)

def tcpConnectGetSd (conn : TcpConnector) : Int × TcpConnector := (conn.sd, { conn with sd := -1 })

/-- `__tcp_connector_watcher_callback`, with the value of `SO_ERROR`. -/
def tcpConnectorWatcherCallback (conn : TcpConnector) (err : Int) :
    TcpConnectorStatus × TcpConnector :=
  (if err = 0 then .success else .failure,
    { conn with
      isInProg := false
      watcher := conn.watcher.map watcherStop
      tmr := conn.tmr.map taskTimerStop })

/-- `__tcp_connector_timeout`; a timer that has expired is not running any more. -/
def tcpConnectorTimeout (conn : TcpConnector) : TcpConnectorStatus × TcpConnector :=
  (.timeout, { conn with
    isInProg := false
    watcher := conn.watcher.map watcherStop
    tmr := some .stopped })

/-- The watcher of an attempt on `sd`, and how it is while the attempt is in progress. -/
def connectWatcher (sd : Int) (isInProg : Bool) : Watcher :=
  if isInProg then watcherStart (watcherWatchTx (watcherInitWithFd sd))
  else watcherWatchTx (watcherInitWithFd sd)

def connectTimer (isInProg : Bool) : TaskTimer := if isInProg then .running else .stopped

/-- A connector that has been initialised: timer and watcher run exactly while an attempt
is in progress. -/
structure Wired (conn : TcpConnector) : Prop where
  watcher : ∃ sd, conn.watcher = some (connectWatcher sd conn.isInProg)
  tmr : conn.tmr = some (connectTimer conn.isInProg)

structure Tidy (conn : TcpConnector) : Prop extends Wired conn where
  progress : conn.isInProg = true → conn.sd ≠ -1

/-- Memory that `tcp_connector_init` has not seen. -/
def Untouched (conn : TcpConnector) : Prop := conn.tmr = none ∧ conn.watcher = none

instance (conn : TcpConnector) : Decidable (Untouched conn) := inferInstanceAs (Decidable (_ ∧ _))

theorem Wired.touched {conn : TcpConnector} (wired : Wired conn) : ¬ Untouched conn := by
  rintro ⟨none, -⟩
  rw [wired.tmr] at none
  cases none

theorem connectWatcher_idle (sd : Int) :
    connectWatcher sd false = ⟨sd, 0x02, false, false, false⟩ := by
  simp +decide [connectWatcher, watcherWatchTx, watcherInitWithFd, watcherStartTarget, isWatching,
    isStarted, watcherStarted, WatchTarget.mask]

theorem connectWatcher_active (sd : Int) :
    connectWatcher sd true = ⟨sd, 0x0a, false, true, false⟩ := by
  have idle := connectWatcher_idle sd
  rw [connectWatcher, if_neg Bool.false_ne_true] at idle
  rw [connectWatcher, if_pos rfl, idle]
  simp +decide [watcherStart, isStarted, watcherStarted, startWatched, isWatching,
    WatchTarget.mask, setEvIo]

theorem watcherStop_connectWatcher (sd : Int) (isInProg : Bool) :
    watcherStop (connectWatcher sd isInProg) = connectWatcher sd false := by
  cases isInProg with
  | false =>
      rw [connectWatcher_idle]
      simp +decide [watcherStop, isStarted, watcherStarted]
  | true =>
      rw [connectWatcher_idle, connectWatcher_active]
      simp +decide [watcherStop, isStarted, watcherStarted, stopWatched, isWatching,
        WatchTarget.mask, setEvIo]

theorem evIo_connectWatcher (sd : Int) (isInProg : Bool) :
    evIo (connectWatcher sd isInProg) .tx = isInProg := by
  cases isInProg with
  | false => rw [connectWatcher_idle, evIo]
  | true => rw [connectWatcher_active, evIo]

theorem tidy_init (conn : TcpConnector) {sd : Int} :
    Tidy (tcpConnectorInit conn sd) where
  watcher := ⟨sd, rfl⟩
  tmr := rfl
  progress := nofun

theorem tcpConnectorTryIpv4_cases (kernel : Kernel) (conn : TcpConnector) :
    (kernel.socket < 0 ∧
      tcpConnectorTryIpv4 kernel conn = (.failure, { conn with sd := -1 }, [])) ∨
    (0 ≤ kernel.socket ∧ ∃ status after,
      tcpConnectorTryIpv4 kernel conn = (status, after, [.opened kernel.socket]) ∧
      Tidy after ∧ after.sd = kernel.socket ∧
      (status = .inProgress ∧ after.isInProg = true ∨
        (status = .success ∨ status = .failure) ∧ after.isInProg = false)) := by
  by_cases failed : kernel.socket < 0
  · exact Or.inl ⟨failed, by rw [tcpConnectorTryIpv4, if_pos failed]⟩
  · refine Or.inr ⟨by omega, ?_⟩
    have fresh := @tidy_init { conn with sd := -1 } kernel.socket
    rw [tcpConnectorTryIpv4, if_neg failed]
    cases kernel.connect with
    | success => exact ⟨_, _, rfl, fresh, rfl, Or.inr ⟨Or.inl rfl, rfl⟩⟩
    | error => exact ⟨_, _, rfl, fresh, rfl, Or.inr ⟨Or.inr rfl, rfl⟩⟩
    | inProgress =>
        refine ⟨_, _, rfl, ⟨⟨⟨kernel.socket, rfl⟩, rfl⟩, ?_⟩, rfl, Or.inl ⟨rfl, rfl⟩⟩
        intro _
        change kernel.socket ≠ -1
        omega

theorem Wired.stopped {conn : TcpConnector} (wired : Wired conn) (sd : Int) :
    Tidy { conn with
      sd := sd
      isInProg := false
      watcher := conn.watcher.map watcherStop
      tmr := some .stopped } where
  watcher := by
    rcases wired.watcher with ⟨old, same⟩
    exact ⟨old, by rw [same, Option.map_some, watcherStop_connectWatcher]⟩
  tmr := rfl
  progress := nofun

theorem tcpConnectorDeinit_wired {conn : TcpConnector} (wired : Wired conn) :
    ∃ after, tcpConnectorDeinit conn = (after, if conn.sd = -1 then [] else [.closed conn.sd]) ∧
      Tidy after ∧ after.isInProg = false ∧ after.sd = -1 := by
  have stopped := wired.stopped (-1)
  rcases wired.watcher with ⟨old, same⟩
  have timer := wired.tmr
  rcases conn with ⟨sd, isInProg, tmr, watcher⟩
  dsimp only at same timer stopped
  subst same timer
  rw [Option.map_some, watcherStop_connectWatcher] at stopped
  refine ⟨⟨-1, false, some .stopped, some (connectWatcher old false)⟩, ?_, stopped, rfl, rfl⟩
  by_cases empty : sd = -1 <;> cases isInProg <;>
    simp [tcpConnectorDeinit, empty, connectTimer, taskTimerStop, watcherStop_connectWatcher]

/-- Giving up memory that was never initialised does harm unless it looks empty. -/
theorem tcpConnectorDeinit_untouched {conn : TcpConnector} (untouched : Untouched conn) :
    tcpConnectorDeinit conn = ({ conn with sd := -1, isInProg := false },
      (if conn.isInProg then [.astray] else []) ++
        (if conn.sd = -1 then [] else [.closed conn.sd])) := by
  rcases conn with ⟨sd, isInProg, tmr, watcher⟩
  obtain ⟨rfl, rfl⟩ : tmr = none ∧ watcher = none := untouched
  by_cases empty : sd = -1 <;> cases isInProg <;> simp [tcpConnectorDeinit, empty]

theorem watcherCallback_tidy {conn : TcpConnector} (tidy : Tidy conn) (err : Int) :
    Tidy (tcpConnectorWatcherCallback conn err).2 := by
  have stopped := tidy.stopped conn.sd
  rw [tcpConnectorWatcherCallback, tidy.tmr]
  exact stopped

theorem timeout_tidy {conn : TcpConnector} (tidy : Tidy conn) :
    Tidy (tcpConnectorTimeout conn).2 := tidy.stopped conn.sd

end KongjaExpress.Net
