import KongjaExpress.Net.ConnectorSession

/-! What is left of a connector that the user has stopped. -/

namespace KongjaExpress.Net

open Run

/-- No attempt in progress, no timer armed, no socket owned. -/
def Quiet (conn : TcpAutoConnector) : Prop :=
  conn.tcpConnector.isInProg = false ∧ conn.tcpConnector.sd = -1 ∧
    watched conn.tcpConnector = false ∧ conn.tcpConnector.tmr ≠ some .running ∧
    conn.reconnWaitTmr = .stopped

instance (conn : TcpAutoConnector) : Decidable (Quiet conn) := inferInstanceAs (Decidable (_ ∧ _))

def ConnectorEvent.isStart : ConnectorEvent → Bool
  | .start _ => true
  | _ => false

/-- A connector that is stopped is quiet once its functions have returned, and then does
not call back until it is started. -/
def StaysStopped (s : ConnectorSession) (event : ConnectorEvent) (next : ConnectorSession) : Prop :=
  (next.stopped = true → next.pending = [] → Quiet next.conn) ∧
    (s.stopped = true → s.pending = [] → event.isStart = false → next.calls = s.calls)

instance (s : ConnectorSession) (event : ConnectorEvent) (next : ConnectorSession) :
    Decidable (StaysStopped s event next) := inferInstanceAs (Decidable (_ ∧ _))

/-- The stop does not come while the callback for a timeout has not returned. -/
def OutsideTimeout (s : ConnectorSession) (event : ConnectorEvent) : Prop :=
  event = .stop → .reconnect ∉ s.pending

instance (s : ConnectorSession) (event : ConnectorEvent) : Decidable (OutsideTimeout s event) :=
  inferInstanceAs (Decidable (_ → _))

inductive Phase (s : ConnectorSession) : Prop
  | notStarted (state : s.conn.state = .notStarted) (outside : .reconnect ∉ s.pending)
      (idle : watched s.conn.tcpConnector = false) (timer : s.conn.reconnWaitTmr = .stopped)
  | connecting (state : s.conn.state = .connecting) (outside : .reconnect ∉ s.pending)
      (begun : watched s.conn.tcpConnector = true) (timer : s.conn.reconnWaitTmr = .stopped)
  | waiting (state : s.conn.state = .reconnectWait) (outside : .reconnect ∉ s.pending)
      (idle : watched s.conn.tcpConnector = false) (timer : s.conn.reconnWaitTmr = .running)
  /-- Inside the callback for a timeout. -/
  | timedOut (state : s.conn.state = .connecting) (inside : s.pending = [.reconnect])
      (idle : watched s.conn.tcpConnector = false) (timer : s.conn.reconnWaitTmr = .stopped)

structure Orderly (s : ConnectorSession) : Prop where
  known : Known s.conn.tcpConnector
  phase : Phase s
  quiet : s.stopped = true → Quiet s.conn
  outside : s.stopped = true → .reconnect ∉ s.pending

theorem attempt_orderly {before : ConnectorSession} (kernel : Kernel)
    (known : Known before.conn.tcpConnector) (timer : before.conn.reconnWaitTmr = .stopped)
    (outside : .reconnect ∉ before.pending) (running : before.stopped = false) :
    Orderly (before.follow (tcpAutoConnectorConnect kernel before.conn)) := by
  have still : (before.follow (tcpAutoConnectorConnect kernel before.conn)).stopped ≠ true := by
    rw [follow_stopped, running]
    exact Bool.false_ne_true
  have called : .reconnect ∉ Resumption.done :: before.pending := by
    simpa using outside
  by_cases failed : kernel.socket < 0
  · rcases tcpConnectorDeinit_known known.emptied with ⟨afterKnown, -, -, idle⟩
    refine ⟨?_, ?_, fun stopped => absurd stopped still, fun stopped => absurd stopped still⟩
    · rw [connect_refused failed]
      exact afterKnown
    · rw [connect_refused failed]
      exact .waiting rfl called idle rfl
  · rcases connect_opened (Int.not_lt.mp failed) before.conn with
      ⟨after, tidy, ⟨begun, -, moved⟩ | ⟨ended, -, moved | moved⟩⟩
    all_goals
      refine ⟨?_, ?_, fun stopped => absurd stopped still, fun stopped => absurd stopped still⟩
      · rw [moved]
        exact Or.inl tidy
      rw [moved]
    · exact .connecting rfl outside (tidy.watched.trans begun) timer
    · exact .notStarted rfl called (tidy.watched.trans ended) timer
    · exact .waiting rfl called (tidy.watched.trans ended) rfl

theorem Phase.beforeStart {s : ConnectorSession} (phase : Phase s)
    (state : s.conn.state = .notStarted) :
    .reconnect ∉ s.pending ∧ s.conn.reconnWaitTmr = .stopped := by
  cases phase with
  | notStarted _ outside _ timer => exact ⟨outside, timer⟩
  | connecting other => cases state.symm.trans other
  | waiting other => cases state.symm.trans other
  | timedOut other => cases state.symm.trans other

theorem Phase.whileWatched {s : ConnectorSession} (phase : Phase s)
    (waits : watched s.conn.tcpConnector = true) :
    s.conn.state = .connecting ∧ .reconnect ∉ s.pending ∧ s.conn.reconnWaitTmr = .stopped := by
  cases phase with
  | connecting state outside _ timer => exact ⟨state, outside, timer⟩
  | notStarted _ _ idle => cases waits.symm.trans idle
  | waiting _ _ idle => cases waits.symm.trans idle
  | timedOut _ _ idle => cases waits.symm.trans idle

theorem Phase.whileArmed {s : ConnectorSession} (phase : Phase s)
    (armed : s.conn.reconnWaitTmr = .running) : .reconnect ∉ s.pending := by
  cases phase with
  | waiting _ outside => exact outside
  | notStarted _ _ _ timer => cases armed.symm.trans timer
  | connecting _ _ _ timer => cases armed.symm.trans timer
  | timedOut _ _ _ timer => cases armed.symm.trans timer

theorem Orderly.running {s : ConnectorSession} (orderly : Orderly s)
    (live : watched s.conn.tcpConnector = true ∨ s.conn.reconnWaitTmr = .running ∨
      .reconnect ∈ s.pending) : s.stopped = false := by
  by_contra stopped
  have stopped : s.stopped = true := by simpa using stopped
  obtain ⟨-, -, idle, -, timer⟩ := orderly.quiet stopped
  rcases live with waits | armed | inside
  · cases waits.symm.trans idle
  · cases armed.symm.trans timer
  · exact orderly.outside stopped inside

theorem start_orderly {s next : ConnectorSession} {kernel : Kernel} (orderly : Orderly s)
    (taken : connectorStep s (.start kernel) = some next) : Orderly next := by
  rw [connectorStep] at taken
  split_ifs at taken with state
  obtain rfl := Option.some.inj taken
  obtain ⟨outside, timer⟩ := orderly.phase.beforeStart state
  exact attempt_orderly kernel orderly.known timer outside rfl

theorem stop_orderly {s next : ConnectorSession} (orderly : Orderly s)
    (outside : .reconnect ∉ s.pending) (taken : connectorStep s .stop = some next) :
    Orderly next ∧ next.calls = s.calls := by
  rw [connectorStep, tcpAutoConnectorStop_eq] at taken
  obtain rfl := Option.some.inj taken
  rcases tcpConnectorDeinit_known (orderly.known.imp_left Tidy.toWired) with
    ⟨known, ended, empty, idle⟩
  have timer : (if s.conn.state = .reconnectWait then TaskTimer.stopped else s.conn.reconnWaitTmr) =
      .stopped := by
    split_ifs with waiting
    · rfl
    · cases orderly.phase with
      | notStarted _ _ _ timer => exact timer
      | connecting _ _ _ timer => exact timer
      | waiting state => exact absurd state waiting
      | timedOut _ _ _ timer => exact timer
  have dead : (tcpConnectorDeinit s.conn.tcpConnector).1.tmr ≠ some .running := by
    rw [ne_eq, known.running, idle]
    exact Bool.false_ne_true
  exact ⟨{
    known := known
    phase := .notStarted rfl outside idle timer
    quiet := fun _ => ⟨ended, empty, idle, dead, timer⟩
    outside := fun _ => outside }, rfl⟩

theorem completed_orderly {s next : ConnectorSession} {err : Int} (orderly : Orderly s)
    (taken : connectorStep s (.completed err) = some next) : Orderly next := by
  rw [connectorStep] at taken
  split_ifs at taken with enabled
  obtain rfl := Option.some.inj taken
  obtain ⟨returned, waits⟩ := enabled
  have running := orderly.running (Or.inl waits)
  have still : (s.follow (attemptCompleted err s.conn)).stopped ≠ true := by
    rw [follow_stopped, running]
    exact Bool.false_ne_true
  obtain ⟨tidy, begun⟩ := orderly.known.tidy waits
  obtain ⟨-, outside, timer⟩ := orderly.phase.whileWatched waits
  have called : .reconnect ∉ Resumption.done :: s.pending := by
    simpa using outside
  rcases attemptCompleted_cases tidy begun err with ⟨after, kept, ended, -, moved | moved⟩
  all_goals
    refine ⟨?_, ?_, fun stopped => absurd stopped still, fun stopped => absurd stopped still⟩
    · rw [moved]
      exact Or.inl kept
    rw [moved]
  · exact .notStarted rfl called (kept.watched.trans ended) timer
  · exact .waiting rfl called (kept.watched.trans ended) rfl

theorem timedOut_orderly {s next : ConnectorSession} (orderly : Orderly s)
    (taken : connectorStep s .timedOut = some next) : Orderly next := by
  rw [connectorStep] at taken
  split_ifs at taken with enabled
  obtain rfl := Option.some.inj taken
  obtain ⟨returned, armed⟩ := enabled
  have waits := orderly.known.running.mp armed
  have running := orderly.running (Or.inl waits)
  have still : (s.follow (attemptTimedOut s.conn)).stopped ≠ true := by
    rw [follow_stopped, running]
    exact Bool.false_ne_true
  obtain ⟨tidy, begun⟩ := orderly.known.tidy waits
  obtain ⟨state, -, timer⟩ := orderly.phase.whileWatched waits
  rcases attemptTimedOut_eq tidy begun with ⟨after, kept, ended, -, moved⟩
  refine ⟨?_, ?_, fun stopped => absurd stopped still, fun stopped => absurd stopped still⟩
  · rw [moved]
    exact Or.inl kept
  · rw [moved]
    refine .timedOut state ?_ (kept.watched.trans ended) timer
    change Resumption.reconnect :: s.pending = [.reconnect]
    rw [returned]

theorem expired_orderly {s next : ConnectorSession} {kernel : Kernel} (orderly : Orderly s)
    (taken : connectorStep s (.expired kernel) = some next) : Orderly next := by
  rw [connectorStep] at taken
  split_ifs at taken with enabled
  obtain rfl := Option.some.inj taken
  have running := orderly.running (Or.inr (Or.inl enabled.2))
  have outside := orderly.phase.whileArmed enabled.2
  have begun := @attempt_orderly { s with conn := { s.conn with reconnWaitTmr := .stopped } }
    kernel orderly.known rfl outside running
  exact begun

theorem returned_orderly {s next : ConnectorSession} {kernel : Kernel} (orderly : Orderly s)
    (taken : connectorStep s (.returned kernel) = some next) :
    Orderly next ∧ (s.stopped = true → next.calls = s.calls) := by
  rcases s with ⟨conn, _ | ⟨_ | _, pending⟩, log, calls, stopped⟩
  · cases taken
  · obtain rfl := Option.some.inj taken
    refine ⟨⟨orderly.known, ?_, orderly.quiet, ?_⟩, fun _ => rfl⟩
    · cases orderly.phase with
      | notStarted state outside idle timer =>
          exact .notStarted state (List.not_mem_of_not_mem_cons outside) idle timer
      | connecting state outside begun timer =>
          exact .connecting state (List.not_mem_of_not_mem_cons outside) begun timer
      | waiting state outside idle timer =>
          exact .waiting state (List.not_mem_of_not_mem_cons outside) idle timer
      | timedOut _ inside => cases inside
    · exact fun stopped => List.not_mem_of_not_mem_cons (orderly.outside stopped)
  · have running : stopped = false := orderly.running (Or.inr (Or.inr List.mem_cons_self))
    obtain rfl := Option.some.inj taken
    refine ⟨?_, fun stopped => ?_⟩
    · cases orderly.phase with
      | notStarted _ outside => exact absurd List.mem_cons_self outside
      | connecting _ outside => exact absurd List.mem_cons_self outside
      | waiting _ outside => exact absurd List.mem_cons_self outside
      | timedOut _ inside _ timer =>
          obtain rfl : pending = [] := by simpa using inside
          exact @attempt_orderly ⟨conn, [], log, calls, stopped⟩ kernel orderly.known timer
            List.not_mem_nil running
    · exact absurd (running.symm.trans stopped) Bool.false_ne_true

theorem fired_running {s next : ConnectorSession} {event : ConnectorEvent} (orderly : Orderly s)
    (taken : connectorStep s event = some next)
    (fires : event = .timedOut ∨ (∃ err, event = .completed err) ∨
      ∃ kernel, event = .expired kernel) : s.stopped = false := by
  apply orderly.running
  rcases fires with rfl | ⟨err, rfl⟩ | ⟨kernel, rfl⟩
  all_goals
    rw [connectorStep] at taken
    split_ifs at taken with enabled
  · exact Or.inl (orderly.known.running.mp enabled.2)
  · exact Or.inl enabled.2
  · exact Or.inr (Or.inl enabled.2)

theorem connectorStep_orderly {s next : ConnectorSession} {event : ConnectorEvent}
    (orderly : Orderly s) (careful : OutsideTimeout s event)
    (taken : connectorStep s event = some next) :
    Orderly next ∧ (s.stopped = true → event.isStart = false → next.calls = s.calls) := by
  cases event with
  | start kernel => exact ⟨start_orderly orderly taken, nofun⟩
  | stop =>
      obtain ⟨orderly, same⟩ := stop_orderly orderly (careful rfl) taken
      exact ⟨orderly, fun _ _ => same⟩
  | completed err =>
      have running := fired_running orderly taken (Or.inr (Or.inl ⟨err, rfl⟩))
      exact ⟨completed_orderly orderly taken, fun stopped => by simp [running] at stopped⟩
  | timedOut =>
      have running := fired_running orderly taken (Or.inl rfl)
      exact ⟨timedOut_orderly orderly taken, fun stopped => by simp [running] at stopped⟩
  | expired kernel =>
      have running := fired_running orderly taken (Or.inr (Or.inr ⟨kernel, rfl⟩))
      exact ⟨expired_orderly orderly taken, fun stopped => by simp [running] at stopped⟩
  | returned kernel =>
      obtain ⟨orderly, same⟩ := returned_orderly orderly taken
      exact ⟨orderly, fun stopped _ => same stopped⟩

/-- In every run in which no stop comes while the callback for a timeout has not returned,
a stopped connector stays stopped. -/
theorem connector_stays_stopped (sd : Int) (isInProg : Bool) (state : TcpAutoConnectorState)
    (events : List ConnectorEvent)
    (careful : Along connectorStep (fun s event _ => OutsideTimeout s event)
      (connectorSession sd isInProg state) events) :
    Along connectorStep StaysStopped (connectorSession sd isInProg state) events := by
  apply along_imp (J := Orderly) _ _ careful
  · intro s event next orderly taken outside
    obtain ⟨after, same⟩ := connectorStep_orderly orderly outside taken
    exact ⟨⟨fun stopped _ => after.quiet stopped, fun stopped _ => same stopped⟩, after⟩
  · exact {
      known := Or.inr ⟨rfl, rfl⟩
      phase := .notStarted rfl List.not_mem_nil rfl rfl
      quiet := nofun
      outside := nofun }

def refused : Kernel := ⟨-1, .error⟩

def waits (sd : Int) : Kernel := ⟨sd, .inProgress⟩

/-- A stop from each kind of callback but the one for a timeout. -/
theorem connector_stays_stopped_twice :
    Along connectorStep StaysStopped (connectorSession 0 false .notStarted)
      [.start refused, .stop, .returned refused, .start (waits 3), .completed 0, .stop,
        .returned refused] :=
  connector_stays_stopped 0 false .notStarted _ (by decide)

/-- A stop from the callback for a timeout is undone when the callback returns. -/
theorem stop_undone :
    ¬ Along connectorStep StaysStopped (connectorSession 0 false .notStarted)
      [.start (waits 3), .timedOut, .stop, .returned (waits 4)] := by
  decide

end KongjaExpress.Net
