import KongjaExpress.Library.Run
import KongjaExpress.Modbus.TcpMasterLink

/-! Whose bytes the master's frames are made of, when a connection can be lost and another
one made in the middle of a chunk. -/

namespace KongjaExpress.Modbus

open Memory Net Run Transport

/-- Every frame was received on one connection, and every connection found the reader
reset. -/
structure ConnectionsApart (trace : ByteTrace) : Prop where
  frames : ∀ origins ∈ trace.frames, ∀ one ∈ origins, ∀ other ∈ origins, one = other
  starts : ∀ mbap ∈ trace.starts, mbapReaderReset mbap = mbap

def discard (mbap : MbapReader) (_ : Unit) : MbapReader × Unit := (mbap, ())

def EndsReset (mbap : MbapReader) (bytes : List UInt8) : Prop :=
  (mbapReaderFeed discard (mbap, ()) bytes).map (fun fed => fed.1.ndx) = some 0

instance (mbap : MbapReader) (bytes : List UInt8) : Decidable (EndsReset mbap bytes) :=
  inferInstanceAs (Decidable (_ = _))

/-- From the start of a frame the bytes lead to the start of a frame. -/
def WholeFrames (bytes : List UInt8) : Prop := EndsReset (readerAt (.replicate 260 0) 0) bytes

instance (bytes : List UInt8) : Decidable (WholeFrames bytes) := inferInstanceAs (Decidable (_ = _))

/-- Where a byte of a chunk leads to a new connection, what is left of the chunk are whole
frames. -/
def LeftoversWhole (connection : Nat) :
    MasterLink × List (List IssuedRequest) → List UInt8 → Prop
  | _, [] => True
  | fed, data :: back =>
      ∀ next, MasterLink.feedByte connection fed data = some next →
        (fed.1.connections < next.1.connections → WholeFrames back) ∧
          LeftoversWhole connection next back

instance decidableLeftoversWhole (connection : Nat) :
    ∀ fed bytes, Decidable (LeftoversWhole connection fed bytes)
  | _, [] => isTrue trivial
  | fed, data :: back =>
      match taken : MasterLink.feedByte connection fed data with
      | none => isTrue fun next impossible => by
          rw [taken] at impossible
          cases impossible
      | some next =>
          have := decidableLeftoversWhole connection next back
          decidable_of_iff ((fed.1.connections < next.1.connections → WholeFrames back) ∧
              LeftoversWhole connection next back)
            ⟨fun holds other same => by
              obtain rfl := Option.some.inj (taken.symm.trans same)
              exact holds, fun all => all next taken⟩

def MasterLink.received (link : MasterLink) (bytes : List UInt8) : MasterLink :=
  { link with master := { link.master with
    stream := link.master.stream.map fun stream => { stream with rxData := bytes } } }

def ReconnectsCleanly (link : MasterLink) (event : LinkEvent) (_ : MasterLink) : Prop :=
  match event with
  | .rx bytes script => LeftoversWhole link.connections (link.received bytes, script) bytes
  | _ => True

instance (link : MasterLink) (event : LinkEvent) (next : MasterLink) :
    Decidable (ReconnectsCleanly link event next) := by
  cases event
  case rx => exact decidableLeftoversWhole _ _ _
  all_goals exact isTrue trivial

/-- What everything but the reader's own work does to the bytes that are held: nothing, or
the next connection starts with a reset reader. -/
structure PassesOn (link next : MasterLink) : Prop where
  trace : next.trace = link.trace
  frame : next.master.mbapReader.frame = link.master.mbapReader.frame
  connections : link.connections ≤ next.connections
  reader : next.master.stream.isSome →
    (next.connections = link.connections ∧ link.master.stream.isSome ∧
      next.master.mbapReader = link.master.mbapReader) ∨
    (link.connections < next.connections ∧
      next.master.mbapReader = readerAt link.master.mbapReader.frame 0)

namespace PassesOn

theorem of_same {link next : MasterLink} (trace : next.trace = link.trace)
    (reader : next.master.mbapReader = link.master.mbapReader)
    (connections : next.connections = link.connections)
    (present : next.master.stream.isSome → link.master.stream.isSome) : PassesOn link next where
  trace := trace
  frame := congrArg MbapReader.frame reader
  connections := connections.ge
  reader := fun inside => .inl ⟨connections, present inside, reader⟩

theorem refl (link : MasterLink) : PassesOn link link := of_same rfl rfl rfl id

theorem trans {link middle next : MasterLink} (first : PassesOn link middle)
    (second : PassesOn middle next) : PassesOn link next where
  trace := second.trace.trans first.trace
  frame := second.frame.trans first.frame
  connections := first.connections.trans second.connections
  reader := by
    intro present
    rcases second.reader present with ⟨same, inside, kept⟩ | ⟨more, reset⟩
    · rcases first.reader inside with ⟨same', inside', kept'⟩ | ⟨more', reset'⟩
      · exact .inl ⟨same.trans same', inside', kept.trans kept'⟩
      · exact .inr ⟨same ▸ more', kept.trans reset'⟩
    · rw [first.frame] at reset
      exact .inr ⟨first.connections.trans_lt more, reset⟩

theorem of_closed {link next : MasterLink} (trace : next.trace = link.trace)
    (frame : next.master.mbapReader.frame = link.master.mbapReader.frame)
    (connections : next.connections = link.connections) (closed : next.master.stream = none) :
    PassesOn link next where
  trace := trace
  frame := frame
  connections := connections.ge
  reader := fun present => by
    rw [closed] at present
    cases present

end PassesOn

theorem take_passes (link : MasterLink) (heap : Vector UInt8 512) (outcome : Outcome) :
    PassesOn link (link.take heap outcome) := by
  rcases outcome with ⟨conn, deeds, _ | ⟨sd, after⟩⟩
  · exact .of_same rfl rfl rfl id
  · simp only [MasterLink.take, MasterLink.connectorCallback, modbusTcpMasterTcpConnectorCallback]
    split_ifs
    · exact ⟨rfl, rfl, Nat.le_succ _, fun _ => .inr ⟨Nat.lt_succ_self _, mbapReaderReset_eq _⟩⟩
    · exact .of_same rfl rfl rfl id

theorem closeStream_passes (link : MasterLink) :
    PassesOn link link.closeStream ∧ link.closeStream.master.stream = none := by
  cases opened : link.master.stream with
  | none =>
      simp only [MasterLink.closeStream, opened, and_true]
      exact .of_same rfl rfl rfl id
  | some stream =>
      simp only [MasterLink.closeStream, opened, and_true]
      exact .of_closed rfl rfl rfl rfl

theorem startReconnect_passes (link : MasterLink) (answer : Answer) :
    PassesOn link (link.startReconnect answer) := by
  obtain ⟨closes, closed⟩ := closeStream_passes link
  rw [MasterLink.startReconnect]
  refine closes.trans (PassesOn.trans ?_ (take_passes _ _ _))
  exact .of_closed rfl rfl rfl closed

theorem request_passes (link : MasterLink) (write : List UInt8 → WriteResult) (answer : Answer)
    (ctx : ModbusMasterCTX) (slave : UInt8) :
    PassesOn link (link.request write answer ctx slave) := by
  by_cases connected : link.master.tcpState = .connected
  · cases opened : link.master.stream with
    | none =>
        rw [MasterLink.request, if_neg (not_not.mpr connected)]
        dsimp only
        rw [opened]
        exact .of_closed rfl rfl rfl rfl
    | some stream =>
        have present : link.master.stream.isSome := by rw [opened, Option.isSome_some]
        rcases request_written connected opened write answer ctx slave with
          ⟨ctx', data, result, written | retried⟩
        · rw [written]
          exact .of_same rfl rfl rfl fun _ => present
        · let sent := link.sent ctx' stream (streamWrite stream data result).stream
          have writes : PassesOn link sent := .of_same rfl rfl rfl fun _ => present
          have advances : PassesOn (sent.startReconnect answer)
            (sent.startReconnect answer).advanced := .of_same rfl rfl rfl id
          rw [retried]
          exact writes.trans ((startReconnect_passes sent answer).trans advances)
  · rw [MasterLink.request, if_pos connected]
    exact .of_same rfl rfl rfl id

theorem issue_passes {link next : MasterLink} (request : IssuedRequest)
    (issued : link.issue request = some next) : PassesOn link next := by
  rcases MasterCall.run_some issued with ⟨ctx, -, requested⟩
  obtain rfl := Option.some.inj requested
  exact request_passes link request.write request.answer ctx request.call.slave

theorem issues_passes {link next : MasterLink} {requests : List IssuedRequest}
    (issued : requests.foldlM MasterLink.issue link = some next) : PassesOn link next :=
  Run.invariant (J := PassesOn link)
    (fun _ request _ before step => before.trans (issue_passes request step)) (.refl link) issued

/-- What a frame that is complete does: it is noted with the origins of its bytes. -/
theorem gotFrame_noted {mbap : MbapReader} {link after : MasterLink}
    {script rest : List (List IssuedRequest)}
    (called : (MasterLink.gotFrame mbap (some (link, script))).2 = some (after, rest)) :
    (MasterLink.gotFrame mbap (some (link, script))).1.frame = mbap.frame ∧
      after.trace = { link.trace with frames := link.trace.frames ++ [link.trace.origins] } ∧
      link.connections ≤ after.connections := by
  simp only [MasterLink.gotFrame] at called ⊢
  split at called
  · split at called
    · cases called
    · rename_i issued
      have passes := issues_passes issued
      obtain ⟨rfl, -⟩ := Prod.mk.inj (Option.some.inj called)
      exact ⟨passes.frame, passes.trace, passes.connections⟩
  · obtain ⟨rfl, -⟩ := Prod.mk.inj (Option.some.inj called)
    exact ⟨rfl, rfl, le_rfl⟩

theorem stop_passes (link : MasterLink) : PassesOn link link.stop := by
  rw [MasterLink.stop]
  split
  · exact .of_same rfl rfl rfl id
  · exact .of_same rfl rfl rfl id
  · refine (closeStream_passes link).1.trans ?_
    exact .of_same rfl rfl rfl id

theorem linkStep_passes {link next : MasterLink} {event : LinkEvent}
    (step : linkStep link event = some next) (silent : ∀ bytes script, event ≠ .rx bytes script) :
    PassesOn link next := by
  cases event with
  | start answer =>
      obtain ⟨-, done⟩ := Option.ite_none_right_eq_some.mp step
      obtain rfl := Option.some.inj done
      rw [MasterLink.start]
      refine PassesOn.trans ?_ (take_passes _ _ _)
      exact .of_same rfl rfl rfl id
  | stop =>
      obtain rfl := Option.some.inj step
      exact stop_passes link
  | request request => exact issue_passes request step
  | rx bytes script => exact absurd rfl (silent bytes script)
  | lost answer =>
      obtain ⟨-, done⟩ := Option.ite_none_right_eq_some.mp step
      obtain rfl := Option.some.inj done
      exact startReconnect_passes link answer
  | tx result =>
      rcases linkStep_tx step with ⟨stream, after, accepted, opened, -, rfl⟩
      exact .of_same rfl rfl rfl fun _ => by rw [opened, Option.isSome_some]
  | completed err heap =>
      obtain ⟨-, done⟩ := Option.ite_none_right_eq_some.mp step
      obtain rfl := Option.some.inj done
      exact take_passes _ _ _
  | timedOut answer =>
      obtain ⟨-, done⟩ := Option.ite_none_right_eq_some.mp step
      obtain rfl := Option.some.inj done
      exact (take_passes _ _ _).trans (take_passes _ _ _)
  | expired answer =>
      obtain ⟨-, done⟩ := Option.ite_none_right_eq_some.mp step
      obtain rfl := Option.some.inj done
      exact take_passes _ _ _

structure Reading (connection : Nat) (link : MasterLink) : Prop where
  shape : ∃ frame count, link.master.mbapReader = readerAt frame count
  held : link.master.mbapReader.ndx ≠ 0 →
    link.trace.lastFed = connection ∧ ∀ origin ∈ link.trace.origins, origin = connection

/-- A chunk of this connection is being fed; when another connection has been made meanwhile,
the bytes that are left bring the reader back to its start. -/
structure Feeding (connection : Nat) (back : List UInt8) (link : MasterLink) : Prop
    extends Reading connection link where
  apart : ConnectionsApart link.trace
  current : connection ≤ link.connections
  leftover : connection < link.connections → EndsReset link.master.mbapReader back

structure Separated (link : MasterLink) : Prop where
  apart : ConnectionsApart link.trace
  reading : link.master.stream.isSome → Reading link.connections link

theorem note_origins {trace : ByteTrace} {connection : Nat} {mbap : MbapReader}
    (held : mbap.ndx ≠ 0 → ∀ origin ∈ trace.origins, origin = connection) :
    ∀ origin ∈ (trace.note connection mbap).origins, origin = connection := by
  intro origin member
  simp only [ByteTrace.note] at member
  split_ifs at member with fresh
  · exact List.mem_singleton.mp member
  · rcases List.mem_append.mp member with old | last
    · exact held fresh origin old
    · exact List.mem_singleton.mp last

theorem note_apart {trace : ByteTrace} {connection count : Nat} {frame : Vector UInt8 260}
    (apart : ConnectionsApart trace) (held : count ≠ 0 → trace.lastFed = connection) :
    ConnectionsApart (trace.note connection (readerAt frame count)) where
  frames := apart.frames
  starts := by
    intro mbap member
    simp only [ByteTrace.note] at member
    split_ifs at member with same
    · exact apart.starts mbap member
    · rcases List.mem_append.mp member with old | first
      · exact apart.starts mbap old
      · obtain rfl : count = 0 := by
          by_contra nonzero
          exact same (held nonzero).symm
        rw [List.mem_singleton.mp first, mbapReaderReset_readerAt]

theorem step_discarded {S : Type} (cb : MbapReader → S → MbapReader × S)
    (frame : Vector UInt8 260) (count : Nat) (env : S) (data : UInt8) :
    ∃ frame' count',
      mbapStateMachine discard (readerAt frame count, ()) data = some (readerAt frame' count', ()) ∧
      (mbapStateMachine cb (readerAt frame count, env) data = some (readerAt frame' count', env) ∨
        ∃ mbap, count' = 0 ∧ mbap.frame = frame' ∧
          mbapStateMachine cb (readerAt frame count, env) data =
            some (readerAt (cb mbap env).1.frame 0, (cb mbap env).2)) := by
  rcases Nat.lt_or_ge count 7 with header | body
  · exact ⟨_, _, step_header header () data, .inl (step_header header env data)⟩
  rcases Nat.lt_or_ge count 260 with room | full
  · rw [step_pdu body room, step_pdu body room]
    split_ifs
    · exact ⟨_, 0, rfl, .inr ⟨_, rfl, rfl, rfl⟩⟩
    · exact ⟨_, _, rfl, .inl rfl⟩
  · exact ⟨_, _, step_overflow full () data, .inl (step_overflow full env data)⟩

theorem endsReset_cons {mbap mbap' : MbapReader} {data : UInt8} {back : List UInt8}
    (step : mbapStateMachine discard (mbap, ()) data = some (mbap', ())) :
    EndsReset mbap (data :: back) ↔ EndsReset mbap' back := by
  simp only [EndsReset, mbapReaderFeed, List.foldlM_cons, step, Option.bind_eq_bind,
    Option.bind_some]

/-- What the reader makes of bytes does not depend on what the frame held beyond its count. -/
theorem endsReset_congr {left right : Vector UInt8 260} {count : Nat}
    (agree : AgreeBelow count left right) (bytes : List UInt8) :
    EndsReset (readerAt left count) bytes ↔ EndsReset (readerAt right count) bytes := by
  induction bytes generalizing left right count with
  | nil => simp [EndsReset, mbapReaderFeed]
  | cons data back ih =>
      rcases Nat.lt_or_ge count 7 with header | body
      · rw [endsReset_cons (step_header header () data), endsReset_cons (step_header header () data)]
        exact ih (agree.set_succ _ data)
      rcases Nat.lt_or_ge count 260 with room | full
      · have field : lengthField left = lengthField right := by
          rw [lengthField, lengthField, agree 4 (by omega) (by omega),
            agree 5 (by omega) (by omega)]
        have first := @step_pdu Unit discard left count body room () data
        have second := @step_pdu Unit discard right count body room () data
        have same : Completes right count ↔ Completes left count := by
          simp only [Completes, field]
        by_cases completes : Completes left count
        · rw [if_pos completes] at first
          rw [if_pos (same.mpr completes)] at second
          rw [endsReset_cons first, endsReset_cons second]
          exact ih (agreeBelow_zero _ _)
        · rw [if_neg completes] at first
          rw [if_neg (mt same.mp completes)] at second
          rw [endsReset_cons first, endsReset_cons second]
          exact ih (agree.set_succ _ data)
      · rw [endsReset_cons (step_overflow full () data), endsReset_cons (step_overflow full () data)]
        exact ih (agreeBelow_zero _ _)

theorem WholeFrames.endsReset {bytes : List UInt8} (whole : WholeFrames bytes)
    (frame : Vector UInt8 260) : EndsReset (readerAt frame 0) bytes :=
  (endsReset_congr (agreeBelow_zero _ _) bytes).mp whole

theorem frames_apart {trace : ByteTrace} {connection : Nat} (apart : ConnectionsApart trace)
    (uniform : ∀ origin ∈ trace.origins, origin = connection) :
    ConnectionsApart { trace with frames := trace.frames ++ [trace.origins] } where
  frames := by
    intro origins member one first other second
    rcases List.mem_append.mp member with old | last
    · exact apart.frames origins old one first other second
    · rw [List.mem_singleton.mp last] at first second
      exact (uniform one first).trans (uniform other second).symm
  starts := apart.starts

theorem feedByte_feeding {connection : Nat} {fed next : MasterLink × List (List IssuedRequest)}
    {data : UInt8} {back : List UInt8} (feeding : Feeding connection (data :: back) fed.1)
    (clean : fed.1.connections < next.1.connections → WholeFrames back)
    (step : MasterLink.feedByte connection fed data = some next) :
    Feeding connection back next.1 := by
  rcases fed with ⟨link, script⟩
  rcases feeding.shape with ⟨frame, count, shape⟩
  have held := feeding.held
  have leftover := feeding.leftover
  dsimp only at shape held leftover clean
  rw [shape, readerAt_ndx, Nat.cast_ne_zero] at held
  rw [shape] at leftover
  let trace := link.trace.note connection (readerAt frame count)
  have apart : ConnectionsApart trace := note_apart feeding.apart fun nonzero => (held nonzero).1
  have uniform : ∀ origin ∈ trace.origins, origin = connection := by
    apply note_origins
    rw [readerAt_ndx, Nat.cast_ne_zero]
    exact fun nonzero => (held nonzero).2
  simp only [MasterLink.feedByte, bind, Option.bind_eq_some_iff, shape] at step
  rcases step with ⟨⟨mbap, env⟩, ran, ⟨after, rest⟩, rfl, done⟩
  obtain rfl := Option.some.inj done
  rcases step_discarded MasterLink.gotFrame frame count
    (some ({ link with trace := trace }, script)) data with
    ⟨frame', count', quiet, same | ⟨complete, rfl, whole, called⟩⟩
  · obtain ⟨rfl, env⟩ := Prod.mk.inj (Option.some.inj (ran.symm.trans same))
    obtain ⟨rfl, -⟩ := Prod.mk.inj (Option.some.inj env)
    exact {
      shape := ⟨frame', count', rfl⟩
      held := fun _ => ⟨rfl, uniform⟩
      apart := apart
      current := feeding.current
      leftover := fun more => (endsReset_cons quiet).mp (leftover more) }
  · obtain ⟨rfl, env⟩ := Prod.mk.inj (Option.some.inj (ran.symm.trans called))
    obtain ⟨kept, noted, connections⟩ := gotFrame_noted env.symm
    refine {
      shape := ⟨_, 0, rfl⟩
      held := fun nonzero => absurd (readerAt_ndx _ _) nonzero
      apart := ?_
      current := feeding.current.trans connections
      leftover := fun more => ?_ }
    · rw [noted]
      exact frames_apart apart uniform
    · rw [kept, whole]
      rcases connections.eq_or_lt with same | advanced
      · exact (endsReset_cons quiet).mp (leftover (same ▸ more))
      · exact (clean advanced).endsReset _

theorem feed_feeding {connection : Nat} {bytes : List UInt8}
    {fed next : MasterLink × List (List IssuedRequest)} (feeding : Feeding connection bytes fed.1)
    (clean : LeftoversWhole connection fed bytes)
    (ran : MasterLink.feed connection fed bytes = some next) : Feeding connection [] next.1 := by
  induction bytes generalizing fed with
  | nil =>
      obtain rfl := Option.some.inj ran
      exact feeding
  | cons data back ih =>
      rcases foldlM_cons_some ran with ⟨middle, step, rest⟩
      obtain ⟨whole, later⟩ := clean middle step
      exact ih (feedByte_feeding feeding whole step) later rest

/-- Between the events nothing but a chunk can mix connections. -/
theorem Separated.passes {link next : MasterLink} (separated : Separated link)
    (passes : PassesOn link next) : Separated next where
  apart := passes.trace ▸ separated.apart
  reading := by
    intro present
    rcases passes.reader present with ⟨same, inside, kept⟩ | ⟨-, reset⟩
    · have reading := separated.reading inside
      refine ⟨kept ▸ reading.shape, ?_⟩
      rw [kept, passes.trace, same]
      exact reading.held
    · exact ⟨⟨_, 0, reset⟩, fun nonzero => absurd (reset ▸ readerAt_ndx _ 0) nonzero⟩

/-- When a chunk has been fed, the reader holds bytes of the connection that is open now. -/
theorem Feeding.separated {link : MasterLink} {connection : Nat}
    (feeding : Feeding connection [] link) : Separated link where
  apart := feeding.apart
  reading := by
    intro _
    rcases feeding.current.eq_or_lt with rfl | more
    · exact feeding.toReading
    · have start : link.master.mbapReader.ndx = 0 := Option.some.inj (feeding.leftover more)
      exact ⟨feeding.shape, fun nonzero => absurd start nonzero⟩

theorem rx_fed {link next : MasterLink} {bytes : List UInt8}
    {script : List (List IssuedRequest)} (step : linkStep link (.rx bytes script) = some next) :
    link.master.stream.isSome ∧ ∃ rest,
      MasterLink.feed link.connections (link.received bytes, script) bytes = some (next, rest) := by
  rcases linkStep_rx step with ⟨stream, rest, opened, ran⟩
  have received : link.received bytes = { link with
      master := { link.master with stream := some { stream with rxData := bytes } } } := by
    rw [MasterLink.received, opened]
    rfl
  rw [← received] at ran
  exact ⟨Option.isSome_of_eq_some opened, rest, ran⟩

theorem linkStep_separated {link next : MasterLink} {event : LinkEvent}
    (separated : Separated link) (step : linkStep link event = some next)
    (clean : ReconnectsCleanly link event next) : Separated next := by
  cases event with
  | rx bytes script =>
      rcases rx_fed step with ⟨present, rest, ran⟩
      have reading := separated.reading present
      have feeding : Feeding link.connections bytes (link.received bytes) := {
        shape := reading.shape
        held := reading.held
        apart := separated.apart
        current := le_rfl
        leftover := fun more => absurd more (lt_irrefl _) }
      exact (feed_feeding feeding clean ran).separated
  | _ => exact separated.passes (linkStep_passes step nofun)

variable (memory : ModbusTCPMaster) (sd : Int) (isInProg : Bool) (state : TcpAutoConnectorState)

theorem masterLink_separated : Separated (masterLink memory sd isInProg state) :=
  ⟨⟨nofun, nofun⟩, nofun⟩

/-- In every run in which a connection that is made in the middle of a chunk finds nothing but
whole frames left of it, frames are made of the bytes of one connection, and each connection
finds the reader reset. -/
theorem connections_apart (events : List LinkEvent)
    (clean : Along linkStep ReconnectsCleanly (masterLink memory sd isInProg state) events) :
    Along linkStep (fun _ _ next => ConnectionsApart next.trace)
      (masterLink memory sd isInProg state) events := by
  apply along_imp (J := Separated) _ (masterLink_separated memory sd isInProg state) clean
  intro link event next separated step here
  have after := linkStep_separated separated step here
  exact ⟨after.apart, after⟩

def zeroedLink : MasterLink :=
  masterLink ⟨⟨.replicate 512 0, 0, 0, 0, 0, 0, 0, 0⟩, .notConnected, none, 0, 0,
    readerAt (.replicate 260 0) 0⟩ (-1) false .notStarted

def connectsAtOnce (sd : Int) : Answer := ⟨⟨sd, .success⟩, .replicate 512 0⟩

def reconnecting (leftover : List UInt8) : List LinkEvent :=
  let poll : MasterCall := .readHoldingRegisters 1 0 1
  [.start (connectsAtOnce 3),
    .request ⟨poll, fun tx => .count tx.length, connectsAtOnce 4⟩,
    .rx ([0, 0, 0, 0, 0, 5, 1, 3, 2, 0, 7] ++ leftover)
      [[⟨poll, fun _ => .error (.other 32), connectsAtOnce 4⟩]],
    .rx [0, 1, 0, 0, 0, 5, 1, 3, 2, 0, 8] []]

/-- With another reply left in the chunk all is well. -/
theorem connections_apart_whole :
    Along linkStep (fun _ _ next => ConnectionsApart next.trace) zeroedLink
      (reconnecting [0, 9, 0, 0, 0, 5, 1, 3, 2, 0, 7]) :=
  connections_apart _ _ _ _ _ (by decide +kernel)

/-- With a part of a reply left in the chunk the next connection finds the reader in the middle
of a frame, and that frame is made of the bytes of both. -/
theorem connections_mix :
    ¬ Along linkStep (fun _ _ next => ConnectionsApart next.trace) zeroedLink
      (reconnecting [0, 1, 0, 0, 0, 5]) ∧
    ∃ last, (reconnecting [0, 1, 0, 0, 0, 5]).foldlM linkStep zeroedLink = some last ∧
      (∃ origins ∈ last.trace.frames, 1 ∈ origins ∧ 2 ∈ origins) ∧
      ∃ mbap ∈ last.trace.starts, mbapReaderReset mbap ≠ mbap := by
  have computed : ((reconnecting [0, 1, 0, 0, 0, 5]).foldlM linkStep zeroedLink).any fun last =>
      decide ((∃ origins ∈ last.trace.frames, 1 ∈ origins ∧ 2 ∈ origins) ∧
        ∃ mbap ∈ last.trace.starts, mbap.ndx ≠ 0) := by decide +kernel
  rcases Option.any_eq_true _ _ |>.mp computed with ⟨last, ran, shown⟩
  obtain ⟨⟨origins, member, old, new⟩, mbap, first, busy⟩ := of_decide_eq_true shown
  refine ⟨fun along => ?_, last, ran, ⟨origins, member, old, new⟩, mbap, first, fun reset => ?_⟩
  · have apart : ConnectionsApart last.trace :=
      invariant_of_along (J := fun link => ConnectionsApart link.trace)
        (fun _ _ _ _ _ apart => apart) (masterLink_separated _ _ _ _).apart along ran
    exact absurd (apart.frames origins member 1 old 2 new) (by decide)
  · exact busy (congrArg MbapReader.ndx reset).symm

end KongjaExpress.Modbus
