import KongjaExpress.Library.Run
import KongjaExpress.Net.TcpAutoConnector

/-! A connector in the hands of its user, whose callback may start and stop it before it
returns. -/

namespace KongjaExpress.Net

/-- The connector, the calls of the user's callback that have not returned (the innermost
one first), what was done with descriptors, what the callback was called with, and whether
the user has stopped the connector and not started it again. -/
structure ConnectorSession where
  conn : TcpAutoConnector
  pending : List Resumption
  log : List Deed
  calls : List Int
  stopped : Bool
  deriving DecidableEq, Repr

inductive ConnectorEvent
  | start (kernel : Kernel)
  | stop
  | completed (err : Int)
  | timedOut
  | expired (kernel : Kernel)
  /-- The innermost callback returns. -/
  | returned (kernel : Kernel)
  deriving DecidableEq, Repr

def ConnectorSession.follow (s : ConnectorSession) (outcome : Outcome) : ConnectorSession :=
  let (conn, deeds, call) := outcome
  let s := { s with conn := conn, log := s.log ++ deeds }
  match call with
  | none => s
  | some callback =>
      { s with calls := s.calls ++ [callback.sd], pending := callback.after :: s.pending }

/-- `none` is an event that cannot happen: the event loop waits for the callbacks, only
what runs can fire, and the user starts the connector only when it is not started. -/
def connectorStep (s : ConnectorSession) : ConnectorEvent → Option ConnectorSession
  | .start kernel =>
      if s.conn.state = .notStarted then
        some ({ s with stopped := false }.follow (tcpAutoConnectorStart kernel s.conn))
      else none
  | .stop =>
      let (conn, deeds) := tcpAutoConnectorStop s.conn
      some { s with conn := conn, log := s.log ++ deeds, stopped := true }
  | .completed err =>
      if s.pending = [] ∧ watched s.conn.tcpConnector then
        some (s.follow (attemptCompleted err s.conn))
      else none
  | .timedOut =>
      if s.pending = [] ∧ s.conn.tcpConnector.tmr = some .running then
        some (s.follow (attemptTimedOut s.conn))
      else none
  | .expired kernel =>
      if s.pending = [] ∧ s.conn.reconnWaitTmr = .running then
        some (s.follow (reconnWaitTimeout kernel s.conn))
      else none
  | .returned kernel =>
      match s.pending with
      | [] => none
      | .done :: pending => some { s with pending := pending }
      | .reconnect :: pending =>
          some ({ s with pending := pending }.follow (tcpAutoConnectorConnect kernel s.conn))

def connectorSession (sd : Int) (isInProg : Bool) (state : TcpAutoConnectorState) :
    ConnectorSession :=
  ⟨tcpAutoConnectorInit (rawMemory sd isInProg state), [], [], [], false⟩

@[simp] theorem follow_conn (s : ConnectorSession) (outcome : Outcome) :
    (s.follow outcome).conn = outcome.1 := by
  rcases outcome with ⟨conn, deeds, _ | callback⟩ <;> rfl

@[simp] theorem follow_log (s : ConnectorSession) (outcome : Outcome) :
    (s.follow outcome).log = s.log ++ outcome.2.1 := by
  rcases outcome with ⟨conn, deeds, _ | callback⟩ <;> rfl

@[simp] theorem follow_stopped (s : ConnectorSession) (outcome : Outcome) :
    (s.follow outcome).stopped = s.stopped := by
  rcases outcome with ⟨conn, deeds, _ | callback⟩ <;> rfl

def attemptOf (s : ConnectorSession) : ConnectorEvent → Option Kernel
  | .start kernel => some kernel
  | .expired kernel => some kernel
  | .returned kernel => if s.pending.head? = some .reconnect then some kernel else none
  | .stop | .completed _ | .timedOut => none

/-- What an event can do, callbacks and the note of a stop apart: nothing, begin an
attempt, end one, or stop. -/
theorem connectorStep_cases {s next : ConnectorSession} {event : ConnectorEvent}
    (taken : connectorStep s event = some next) :
    (attemptOf s event = none ∧ event ≠ .stop ∧ next.conn = s.conn ∧ next.log = s.log) ∨
    (∃ (kernel : Kernel) (before : ConnectorSession), attemptOf s event = some kernel ∧ event ≠ .stop ∧
      before.conn.tcpConnector = s.conn.tcpConnector ∧ before.log = s.log ∧
      next = before.follow (tcpAutoConnectorConnect kernel before.conn)) ∨
    (attemptOf s event = none ∧ event ≠ .stop ∧ s.pending = [] ∧
      (∃ err, watched s.conn.tcpConnector = true ∧ next = s.follow (attemptCompleted err s.conn) ∨
        s.conn.tcpConnector.tmr = some .running ∧ next = s.follow (attemptTimedOut s.conn))) ∨
    (event = .stop ∧ next = { s with
      conn := (tcpAutoConnectorStop s.conn).1
      log := s.log ++ (tcpAutoConnectorStop s.conn).2
      stopped := true }) := by
  cases event with
  | start kernel =>
      rw [connectorStep] at taken
      split_ifs at taken
      obtain rfl := Option.some.inj taken
      exact Or.inr (Or.inl ⟨kernel, { s with stopped := false }, rfl, nofun, rfl, rfl, rfl⟩)
  | stop =>
      obtain rfl := Option.some.inj taken
      exact Or.inr (Or.inr (Or.inr ⟨rfl, rfl⟩))
  | completed err =>
      rw [connectorStep] at taken
      split_ifs at taken with enabled
      obtain rfl := Option.some.inj taken
      exact Or.inr (Or.inr (Or.inl ⟨rfl, nofun, enabled.1, err, Or.inl ⟨enabled.2, rfl⟩⟩))
  | timedOut =>
      rw [connectorStep] at taken
      split_ifs at taken with enabled
      obtain rfl := Option.some.inj taken
      exact Or.inr (Or.inr (Or.inl ⟨rfl, nofun, enabled.1, 0, Or.inr ⟨enabled.2, rfl⟩⟩))
  | expired kernel =>
      rw [connectorStep] at taken
      split_ifs at taken
      obtain rfl := Option.some.inj taken
      exact Or.inr (Or.inl ⟨kernel, { s with conn := { s.conn with reconnWaitTmr := .stopped } },
        rfl, nofun, rfl, rfl, rfl⟩)
  | returned kernel =>
      rcases s with ⟨conn, _ | ⟨_ | _, pending⟩, log, calls, stopped⟩
      · cases taken
      · obtain rfl := Option.some.inj taken
        exact Or.inl ⟨rfl, nofun, rfl, rfl⟩
      · obtain rfl := Option.some.inj taken
        exact Or.inr (Or.inl ⟨kernel, ⟨conn, pending, log, calls, stopped⟩, rfl, nofun, rfl, rfl, rfl⟩)

end KongjaExpress.Net
