import KongjaExpress.Library.Custody
import KongjaExpress.Net.ConnectorSession

/-! Who answers for the descriptors a connector opens. -/

namespace KongjaExpress.Net

open Custody Run

/-- A deed in the connector's own ledger: a descriptor leaves it when it is closed or
handed to the user. -/
def Deed.entry : Deed → Entry Int
  | .opened sd => .take sd
  | .closed sd => .give sd
  | .handed sd => .give sd
  | .astray => .stray

/-- The descriptor in the field `sd`, once that field means anything. -/
def heldIn (conn : TcpConnector) : List Int :=
  if Untouched conn ∨ conn.sd = -1 then [] else [conn.sd]

/-- Every descriptor that was closed or handed over had been opened and not been closed or
handed over since; those that were neither are held in the field `sd`. -/
def Accounted (s : ConnectorSession) : Prop :=
  settle (s.log.map Deed.entry) = some (heldIn s.conn.tcpConnector)

instance (s : ConnectorSession) : Decidable (Accounted s) := inferInstanceAs (Decidable (_ = _))

/-- An attempt may begin when no descriptor is held, and in memory without an attempt in
progress if there is no descriptor to be had. -/
def AttemptSafe (kernel : Kernel) (conn : TcpConnector) : Prop :=
  if Untouched conn then kernel.socket < 0 → conn.isInProg = false else conn.sd = -1

def Safe (s : ConnectorSession) (event : ConnectorEvent) : Prop :=
  (event = .stop → Untouched s.conn.tcpConnector →
    s.conn.tcpConnector.isInProg = false ∧ s.conn.tcpConnector.sd = -1) ∧
  ∀ kernel, attemptOf s event = some kernel → AttemptSafe kernel s.conn.tcpConnector

theorem heldIn_tidy {conn : TcpConnector} (tidy : Tidy conn) :
    heldIn conn = if conn.sd = -1 then [] else [conn.sd] := by
  simp only [heldIn, tidy.touched, false_or]

theorem heldIn_untouched {conn : TcpConnector} (untouched : Untouched conn) : heldIn conn = [] :=
  if_pos (Or.inl untouched)

theorem heldIn_empty {conn : TcpConnector} (empty : conn.sd = -1) : heldIn conn = [] :=
  if_pos (Or.inr empty)

theorem accounted_append {s next : ConnectorSession} {deeds : List Deed} (accounted : Accounted s)
    (log : next.log = s.log ++ deeds) :
    Accounted next ↔
      (deeds.map Deed.entry).foldlM post (heldIn s.conn.tcpConnector) =
        some (heldIn next.conn.tcpConnector) := by
  rw [Accounted, log, List.map_append, settle_append accounted]

theorem heldIn_nil {conn : TcpConnector} : heldIn conn = [] ↔ Untouched conn ∨ conn.sd = -1 := by
  rw [heldIn]
  split_ifs with empty <;> simp [empty]

theorem attemptSafe_refused {kernel : Kernel} (failed : kernel.socket < 0) {conn : TcpConnector}
    (untouched : Untouched conn) : AttemptSafe kernel conn ↔ conn.isInProg = false := by
  rw [AttemptSafe, if_pos untouched]
  exact ⟨fun idle => idle failed, fun idle _ => idle⟩

theorem attemptSafe_opened {kernel : Kernel} (opened : ¬ kernel.socket < 0) (conn : TcpConnector) :
    AttemptSafe kernel conn ↔ heldIn conn = [] := by
  rw [AttemptSafe, heldIn_nil]
  split_ifs with untouched
  · exact ⟨fun _ => Or.inl untouched, fun _ failed => absurd failed opened⟩
  · exact ⟨Or.inr, fun empty => empty.resolve_left untouched⟩

/-- An attempt keeps the accounts exactly when it may begin. -/
theorem attempt_accounted {s before : ConnectorSession} (kernel : Kernel) (accounted : Accounted s)
    (known : Known s.conn.tcpConnector)
    (same : before.conn.tcpConnector = s.conn.tcpConnector) (log : before.log = s.log) :
    Known (before.follow (tcpAutoConnectorConnect kernel before.conn)).conn.tcpConnector ∧
      (Accounted (before.follow (tcpAutoConnectorConnect kernel before.conn)) ↔
        AttemptSafe kernel s.conn.tcpConnector) := by
  have entries : (before.follow (tcpAutoConnectorConnect kernel before.conn)).log =
      s.log ++ (tcpAutoConnectorConnect kernel before.conn).2.1 := by
    rw [follow_log, log]
  rw [accounted_append accounted entries, follow_conn]
  by_cases failed : kernel.socket < 0
  · rcases tcpConnectorDeinit_known known.emptied with ⟨after, -, empty, -⟩
    rw [connect_refused failed, same, tcpConnectorDeinit_emptied known]
    refine ⟨after, ?_⟩
    rw [heldIn_empty empty]
    rcases known with tidy | untouched
    · have touched : ¬ (Untouched s.conn.tcpConnector ∧ s.conn.tcpConnector.isInProg = true) :=
        fun both => tidy.touched both.1
      rw [if_neg touched, AttemptSafe, if_neg tidy.touched, heldIn_tidy tidy]
      by_cases free : s.conn.tcpConnector.sd = -1 <;> simp [free]
    · rw [attemptSafe_refused failed untouched, heldIn_untouched untouched]
      cases s.conn.tcpConnector.isInProg <;> simp [untouched, Deed.entry]
  · rw [attemptSafe_opened failed]
    rcases connect_opened (Int.not_lt.mp failed) before.conn with
      ⟨after, tidy, ⟨begun, held, moved⟩ | ⟨ended, empty, moved | moved⟩⟩
    · -- the descriptor stays in the field
      have full : after.sd ≠ -1 := by omega
      rw [moved]
      refine ⟨Or.inl tidy, ?_⟩
      rw [heldIn_tidy tidy, if_neg full, held]
      simp [Deed.entry]
    · rw [moved]
      refine ⟨Or.inl tidy, ?_⟩
      rw [heldIn_empty empty]
      simp [Deed.entry]
    · rw [moved]
      refine ⟨Or.inl tidy, ?_⟩
      rw [heldIn_empty empty]
      simp [Deed.entry]

theorem end_accounted {s : ConnectorSession} {outcome : Outcome} (deed : Int → Deed)
    (accounted : Accounted s) (tidy : Tidy s.conn.tcpConnector)
    (begun : s.conn.tcpConnector.isInProg = true) (gives : ∀ sd, (deed sd).entry = .give sd)
    (deeds : outcome.2.1 = [deed s.conn.tcpConnector.sd]) (empty : outcome.1.tcpConnector.sd = -1) :
    Accounted (s.follow outcome) := by
  rw [accounted_append accounted (follow_log s outcome), follow_conn, heldIn_empty empty,
    heldIn_tidy tidy, if_neg (tidy.progress begun), deeds]
  simp [gives]

/-- One event keeps the accounts exactly when it finds a safe state. -/
theorem connectorStep_accounted {s next : ConnectorSession} {event : ConnectorEvent}
    (accounted : Accounted s) (known : Known s.conn.tcpConnector)
    (taken : connectorStep s event = some next) :
    Known next.conn.tcpConnector ∧ (Accounted next ↔ Safe s event) := by
  rcases connectorStep_cases taken with
    ⟨no, other, conn, log⟩ | ⟨kernel, before, attempt, other, same, log, rfl⟩ |
    ⟨no, other, -, err, ended⟩ | ⟨rfl, rfl⟩
  · refine ⟨conn ▸ known, ?_⟩
    rw [Accounted, conn, log]
    exact ⟨fun _ => ⟨fun stop => absurd stop other, by simp [no]⟩, fun _ => accounted⟩
  · rcases attempt_accounted kernel accounted known same log with ⟨known, agree⟩
    refine ⟨known, agree.trans ?_⟩
    simp only [Safe, attempt, Option.some.injEq, forall_eq', other, false_implies, true_and]
  · have safe : Safe s event := ⟨fun stop => absurd stop other, by simp [no]⟩
    have both : Known next.conn.tcpConnector ∧ Accounted next := by
      rcases known with tidy | untouched
      · rcases ended with ⟨waits, rfl⟩ | ⟨waits, rfl⟩
        · rw [tidy.watched] at waits
          rcases attemptCompleted_cases tidy waits err with
            ⟨after, afterTidy, -, empty, moved | moved⟩
          · rw [moved]
            exact ⟨Or.inl (by simpa using afterTidy),
              end_accounted .handed accounted tidy waits (fun _ => rfl) rfl empty⟩
          · rw [moved]
            exact ⟨Or.inl (by simpa using afterTidy),
              end_accounted .closed accounted tidy waits (fun _ => rfl) rfl empty⟩
        · rw [tidy.running] at waits
          rcases attemptTimedOut_eq tidy waits with ⟨after, afterTidy, -, empty, moved⟩
          rw [moved]
          exact ⟨Or.inl (by simpa using afterTidy),
            end_accounted .closed accounted tidy waits (fun _ => rfl) rfl empty⟩
      · -- nothing runs in memory that was never initialised
        rcases ended with ⟨waits, -⟩ | ⟨waits, -⟩
        · rw [watched, untouched.2] at waits
          cases waits
        · rw [untouched.1] at waits
          cases waits
    exact ⟨both.1, fun _ => safe, fun _ => both.2⟩
  · rw [accounted_append accounted rfl, tcpAutoConnectorStop_eq]
    simp only [Safe, attemptOf, true_implies, reduceCtorEq, false_implies, implies_true, and_true]
    rcases known with tidy | untouched
    · rcases tcpConnectorDeinit_wired tidy.toWired with ⟨after, given, afterTidy, -, empty⟩
      rw [given]
      refine ⟨Or.inl afterTidy, fun _ raw => absurd raw tidy.touched, fun _ => ?_⟩
      rw [heldIn_empty empty, heldIn_tidy tidy]
      split_ifs <;> simp [Deed.entry]
    · rw [tcpConnectorDeinit_untouched untouched]
      refine ⟨Or.inr untouched, ?_⟩
      rw [heldIn_untouched untouched, heldIn_empty rfl]
      by_cases free : s.conn.tcpConnector.sd = -1 <;> cases s.conn.tcpConnector.isInProg <;>
        simp [free, untouched, Deed.entry]

/-- Whatever the memory held, the accounts are kept along a run exactly when every event
finds a state in which it is safe. -/
theorem connector_custody_iff (sd : Int) (isInProg : Bool) (state : TcpAutoConnectorState)
    (events : List ConnectorEvent) :
    Along connectorStep (fun _ _ next => Accounted next)
        (connectorSession sd isInProg state) events ↔
      Along connectorStep (fun s event _ => Safe s event)
        (connectorSession sd isInProg state) events := by
  have every : Along connectorStep (fun _ _ _ => True) (connectorSession sd isInProg state)
      events :=
    along_of_invariant (J := fun _ => True) (fun _ _ _ _ _ => trivial) (fun _ _ _ _ _ => trivial)
      events trivial
  apply along_iff (J := fun s => Accounted s ∧ Known s.conn.tcpConnector) _ _ _ every
  · rintro s event next ⟨accounted, known⟩ - taken
    exact (connectorStep_accounted accounted known taken).2
  · rintro s event next ⟨accounted, known⟩ - taken kept
    exact ⟨kept, (connectorStep_accounted accounted known taken).1⟩
  · exact ⟨rfl, Or.inr ⟨rfl, rfl⟩⟩

/-- A connector in zeroed memory that is stopped before it was started closes descriptor 0. -/
theorem stopped_before_start :
    (connectorStep (connectorSession 0 false .notStarted) .stop).map (·.log) =
        some [.closed 0] ∧
      ¬ Along connectorStep (fun _ _ next => Accounted next)
        (connectorSession 0 false .notStarted) [.stop] := by
  decide

end KongjaExpress.Net
