import KongjaExpress.Modbus.TcpSlave

/-! The Modbus TCP slave with all its connections, as a server of requests. -/

namespace KongjaExpress.Modbus

open BigEndian Memory Framing Transport Utils

variable {ι σ : Type}

/-- `modbus_tcp_slave_connection_t`, with what the kernel accepted on it. -/
structure TcpConnection where
  mbapReader : MbapReader
  stream : Stream 512
  sent : List UInt8

/-- `modbus_tcp_slave_alloc_conn`, on the memory the connection and its queue get. -/
def modbusTcpSlaveAllocConn (memory : MbapReader) (newsd : Int) (heap : Vector UInt8 512) :
    TcpConnection where
  mbapReader := mbapReaderInit memory
  stream := streamStart (streamInitWithFd newsd 512 heap)
  sent := []

structure TcpServer (ι σ : Type) where
  slave : ModbusTCPSlave σ
  conns : ι → TcpConnection

variable [DecidableEq ι]

/-- `stream_event_rx` on a connection: the chunk goes to its reader. -/
def tcpServerRx (ctx : ModbusSlaveCTX σ) (kernel : List UInt8 → WriteResult)
    (server : TcpServer ι σ) (event : ι × List UInt8) : Option (TcpServer ι σ) :=
  let conn := server.conns event.1
  (mbapReaderFeed (modbusTcpSlaveHandleRxFrame ctx kernel)
      (conn.mbapReader, ⟨server.slave, conn.stream, conn.sent⟩) event.2).map
    fun (mbap, env) =>
      { slave := env.slave
        conns := Function.update server.conns event.1 ⟨mbap, env.stream, env.sent⟩ }

/-- A server to its clients: the registers, the callbacks made, and the bytes answered
on each connection. -/
structure Service (ι σ : Type) where
  store : σ
  calls : List RegCall
  answered : ι → List UInt8

/-- One request of a connection. The request handler works on memory that holds the
PDU in front. -/
inductive Serves (ctx : ModbusSlaveCTX σ) (myAddress : UInt8) :
    ι × Adu → Service ι σ → Service ι σ → Prop
  | ignored {conn : ι} {request : Adu} (s : Service ι σ)
      (foreign : request.uid ≠ myAddress) (unicast : request.uid ≠ 0) :
      Serves ctx myAddress (conn, request) s s
  | broadcast {conn : ι} {request : Adu} (s : Service ι σ) (pdu : Vector UInt8 (253 + 0))
      {r : RequestResult σ 0}
      (broadcast : request.uid = 0)
      (holds : front pdu request.pdu.length = request.pdu)
      (handled : r = modbusRtuHandlerRequestRx ctx request.uid
        (.ofNat request.pdu.length) pdu s.store) :
      Serves ctx myAddress (conn, request) s
        { s with store := r.store, calls := s.calls ++ r.calls }
  | answered {conn : ι} {request : Adu} (s : Service ι σ) (pdu : Vector UInt8 (253 + 0))
      {r : RequestResult σ 0} (response : Adu)
      (addressed : request.uid = myAddress) (unicast : request.uid ≠ 0)
      (holds : front pdu request.pdu.length = request.pdu)
      (handled : r = modbusRtuHandlerRequestRx ctx request.uid
        (.ofNat request.pdu.length) pdu s.store)
      (tid : response.tid = request.tid) (pid : response.pid = request.pid)
      (uid : response.uid = request.uid)
      (payload : response.pdu = front r.pdu r.rspLen.toNat) :
      Serves ctx myAddress (conn, request) s
        { store := r.store
          calls := s.calls ++ r.calls
          answered := Function.update s.answered conn (s.answered conn ++ response.bytes) }

/-- The requests in the order in which their last bytes arrive, from connections that
have received `count` bytes each. -/
def arrivals (sent : ι → List Adu) : (ι → Nat) → List (ι × List UInt8) → List (ι × Adu)
  | _, [] => []
  | count, (conn, chunk) :: events =>
      (between (fun adu : Adu => adu.bytes) (sent conn) (count conn)
          (count conn + chunk.length)).map (Prod.mk conn) ++
        arrivals sent (Function.update count conn (count conn + chunk.length)) events

def receivedOn (conn : ι) (events : List (ι × List UInt8)) : List UInt8 :=
  (events.filter fun event => event.1 = conn).flatMap Prod.snd

def TcpServer.service (server : TcpServer ι σ) : Service ι σ where
  store := server.slave.store
  calls := server.slave.calls
  answered conn := (server.conns conn).sent

def serviceOf (answered : ι → List UInt8) (conn : ι) (env : SlaveEnv σ) : Service ι σ where
  store := env.slave.store
  calls := env.slave.calls
  answered := Function.update answered conn env.sent

def Ready (myAddress : UInt8) (env : SlaveEnv σ) : Prop :=
  env.slave.myAddress = myAddress ∧ circBufferIsEmpty env.stream.txBuf = true

theorem handleRxFrame_serves (ctx : ModbusSlaveCTX σ) {myAddress : UInt8}
    (answered : ι → List UInt8) (conn : ι) {request : Adu} {mbap : MbapReader}
    (carries : Carries request.toRawAdu mbap) {env : SlaveEnv σ} (ready : Ready myAddress env) :
    Ready myAddress (modbusTcpSlaveHandleRxFrame ctx acceptAll mbap env).2 ∧
      Serves ctx myAddress (conn, request) (serviceOf answered conn env)
        (serviceOf answered conn (modbusTcpSlaveHandleRxFrame ctx acceptAll mbap env).2) := by
  rcases ready with ⟨rfl, direct⟩
  have bounds := request.length_bounds
  have pduLength : mbap.length - 1 = .ofNat request.pdu.length := by
    apply UInt16.toNat_inj.mp
    rw [carries.length, pred_toNat (by omega), request.length_toNat, request.pdu_length_toNat]
    omega
  have length : PduLength (.ofNat request.pdu.length) := by
    rw [PduLength, request.pdu_length_toNat]
    exact ⟨request.nonempty, request.short⟩
  unfold modbusTcpSlaveHandleRxFrame
  dsimp only
  rw [carries.uid, pduLength]
  generalize handled : modbusRtuHandlerRequestRx ctx request.uid (.ofNat request.pdu.length)
    (pduArea mbap.frame) env.slave.store = r
  have rspLen : PduLength r.rspLen := handled ▸ requestRx_rspLen ctx _ length _ _
  by_cases addressed : request.uid = env.slave.myAddress ∨ request.uid = 0
  · rw [if_pos addressed]
    by_cases unicast : request.uid = 0
    · rw [if_neg (not_not.mpr unicast)]
      exact ⟨⟨rfl, direct⟩, .broadcast _ _ unicast carries.parts.2 handled.symm⟩
    · rw [if_pos unicast, front_responseFrame carries r rspLen, SlaveEnv.reply,
        show (env.execute r).stream = env.stream from rfl, streamWrite_acceptAll _ direct]
      refine ⟨⟨rfl, direct⟩, ?_⟩
      have served : Serves ctx env.slave.myAddress (conn, request) _ _ := .answered
        (serviceOf answered conn env) (pduArea mbap.frame) (responseAdu request r rspLen)
        (addressed.resolve_right unicast) unicast carries.parts.2 handled.symm rfl rfl rfl rfl
      simpa [serviceOf, SlaveEnv.execute] using served
  · rw [if_neg addressed]
    rw [not_or] at addressed
    exact ⟨⟨rfl, direct⟩, .ignored _ addressed.1 addressed.2⟩

/-- The connection's reader has taken in `count` bytes of its ADUs; nothing is queued. -/
structure Tracks (sent : List Adu) (count : Nat) (conn : TcpConnection) : Prop where
  reader : At (fun adu : Adu => adu.bytes) Held sent count conn.mbapReader
  direct : circBufferIsEmpty conn.stream.txBuf = true

@[simp] theorem receivedOn_nil (conn : ι) : receivedOn conn [] = [] := rfl

theorem receivedOn_cons_same (conn : ι) (chunk : List UInt8) (events : List (ι × List UInt8)) :
    receivedOn conn ((conn, chunk) :: events) = chunk ++ receivedOn conn events := by
  simp [receivedOn]

theorem receivedOn_cons_other {conn other : ι} (differ : other ≠ conn) (chunk : List UInt8)
    (events : List (ι × List UInt8)) :
    receivedOn conn ((other, chunk) :: events) = receivedOn conn events := by
  simp [receivedOn, differ]

theorem service_conn (server : TcpServer ι σ) (conn : ι) :
    serviceOf server.service.answered conn
        ⟨server.slave, (server.conns conn).stream, (server.conns conn).sent⟩ =
      server.service := by
  simp [serviceOf, TcpServer.service]

theorem service_update (server : TcpServer ι σ) (conn : ι) (mbap : MbapReader)
    (env : SlaveEnv σ) :
    ({ slave := env.slave
       conns := Function.update server.conns conn ⟨mbap, env.stream, env.sent⟩ } :
        TcpServer ι σ).service =
      serviceOf server.service.answered conn env := by
  simp only [serviceOf, TcpServer.service, Service.mk.injEq, true_and]
  funext other
  by_cases same : other = conn
  · subst same
    simp
  · simp [same]

/-- A chunk serves the requests it completes. -/
theorem chunk_serves (ctx : ModbusSlaveCTX σ) {sent : List Adu} {count : Nat} {conn : ι}
    {server : TcpServer ι σ} (tracks : Tracks sent count (server.conns conn))
    {chunk : List UInt8} (next : chunk <+: (sent.flatMap fun adu => adu.bytes).drop count) :
    ∃ served, tcpServerRx ctx acceptAll server (conn, chunk) = some served ∧
      served.slave.myAddress = server.slave.myAddress ∧
      Tracks sent (count + chunk.length) (served.conns conn) ∧
      (∀ other, other ≠ conn → served.conns other = server.conns other) ∧
      Emits (Serves ctx server.slave.myAddress)
        ((between (fun adu : Adu => adu.bytes) sent count (count + chunk.length)).map
          (Prod.mk conn)) server.service served.service := by
  let handler := modbusTcpSlaveHandleRxFrame ctx acceptAll
  let env : SlaveEnv σ := ⟨server.slave, (server.conns conn).stream, (server.conns conn).sent⟩
  rcases (aduDecoder handler).advance (s := ((server.conns conn).mbapReader, env))
    tracks.reader next with ⟨⟨mbap, env'⟩, run, reader, delivered⟩
  rcases delivered.image (f := serviceOf server.service.answered conn) (g := Prod.mk conn)
    (P := Ready server.slave.myAddress)
    (fun request s t ⟨mbap, carries, after⟩ ready =>
      after ▸ handleRxFrame_serves ctx _ conn carries ready)
    ⟨rfl, tracks.direct⟩ with ⟨ready, serves⟩
  refine ⟨_, by rw [tcpServerRx, mbapReaderFeed, run]; rfl, ready.1, ⟨?_, ?_⟩, ?_, ?_⟩
  · simp only [Function.update_self]
    exact reader
  · simpa using ready.2
  · intro other differ
    exact Function.update_of_ne differ _ _
  · rw [service_update]
    rwa [service_conn] at serves

theorem run_serves (ctx : ModbusSlaveCTX σ) (sent : ι → List Adu)
    (events : List (ι × List UInt8)) (count : ι → Nat) (server : TcpServer ι σ)
    (tracks : ∀ conn, Tracks (sent conn) (count conn) (server.conns conn))
    (within : ∀ conn, receivedOn conn events <+:
      ((sent conn).flatMap fun adu => adu.bytes).drop (count conn)) :
    ∃ final, events.foldlM (tcpServerRx ctx acceptAll) server = some final ∧
      Emits (Serves ctx server.slave.myAddress) (arrivals sent count events)
        server.service final.service := by
  induction events generalizing count server with
  | nil => exact ⟨server, rfl, .nil _⟩
  | cons event events ih =>
      rcases event with ⟨conn, chunk⟩
      have next := within conn
      rw [receivedOn_cons_same] at next
      rcases chunk_serves ctx (tracks conn) ((List.prefix_append _ _).trans next) with
        ⟨served, step, address, tracked, others, serves⟩
      have tracks' (other : ι) : Tracks (sent other)
          (Function.update count conn (count conn + chunk.length) other)
          (served.conns other) := by
        by_cases same : other = conn
        · subst same
          rwa [Function.update_self]
        · rw [Function.update_of_ne same, others other same]
          exact tracks other
      have within' (other : ι) : receivedOn other events <+:
          ((sent other).flatMap fun adu => adu.bytes).drop
            (Function.update count conn (count conn + chunk.length) other) := by
        by_cases same : other = conn
        · subst same
          rw [Function.update_self]
          rcases next with ⟨later, stream⟩
          exact ⟨later, by rw [← List.drop_drop, ← stream]; simp⟩
        · rw [Function.update_of_ne same]
          have old := within other
          rwa [receivedOn_cons_other (Ne.symm same)] at old
      rcases ih _ served tracks' within' with ⟨final, run, later⟩
      refine ⟨final, ?_, ?_⟩
      · rw [List.foldlM_cons, step]
        exact run
      · rw [address] at later
        exact serves.append later

/-- Each connection's requests are served in the order they were sent in. -/
theorem arrivals_on (sent : ι → List Adu) (conn : ι) (events : List (ι × List UInt8))
    (count : ι → Nat) :
    ((arrivals sent count events).filter fun request => request.1 = conn).map Prod.snd =
      between (fun adu : Adu => adu.bytes) (sent conn) (count conn)
        (count conn + (receivedOn conn events).length) := by
  induction events generalizing count with
  | nil => simp [arrivals, between_self]
  | cons event events ih =>
      rcases event with ⟨other, chunk⟩
      rw [arrivals, List.filter_append, List.map_append, ih]
      by_cases same : other = conn
      · subst same
        rw [Function.update_self, receivedOn_cons_same, List.length_append, ← Nat.add_assoc,
          ← between_append (sent other) (Nat.le_add_right (count other) chunk.length)
            (Nat.le_add_right _ _)]
        congr 1
        simp [List.filter_map, Function.comp_def]
      · rw [Function.update_of_ne (Ne.symm same), receivedOn_cons_other same]
        simp [List.filter_map, Function.comp_def, same]

structure Echoes (request response : Adu) : Prop where
  tid : response.tid = request.tid
  pid : response.pid = request.pid
  uid : response.uid = request.uid

def addressedOn (myAddress : UInt8) (conn : ι) (requests : List (ι × Adu)) : List Adu :=
  (requests.filter fun request =>
    request.1 = conn ∧ request.2.uid = myAddress ∧ request.2.uid ≠ 0).map Prod.snd

theorem emits_answered {ctx : ModbusSlaveCTX σ} {myAddress : UInt8} {requests : List (ι × Adu)}
    {s t : Service ι σ} (serves : Emits (Serves ctx myAddress) requests s t) (conn : ι) :
    ∃ responses : List Adu,
      t.answered conn = s.answered conn ++ responses.flatMap (fun adu => adu.bytes) ∧
      List.Forall₂ Echoes (addressedOn myAddress conn requests) responses := by
  induction serves with
  | nil s => exact ⟨[], by simp, .nil⟩
  | cons head _ ih =>
      rcases ih with ⟨responses, bytes, echoes⟩
      cases head with
      | ignored s foreign unicast =>
          exact ⟨responses, bytes, by simpa [addressedOn, foreign] using echoes⟩
      | broadcast s pdu broadcast =>
          exact ⟨responses, bytes, by simpa [addressedOn, broadcast] using echoes⟩
      | @answered other request s pdu r response addressed unicast holds handled tid pid uid =>
          by_cases same : other = conn
          · subst same
            refine ⟨response :: responses, ?_, ?_⟩
            · rw [bytes]
              simp
            · have chosen : (other, request).1 = other ∧ (other, request).2.uid = myAddress ∧
                  (other, request).2.uid ≠ 0 := ⟨rfl, addressed, unicast⟩
              rw [addressedOn, List.filter_cons, if_pos (decide_eq_true chosen)]
              exact .cons ⟨tid, pid, uid⟩ echoes
          · refine ⟨responses, ?_, by simpa [addressedOn, same] using echoes⟩
            rw [bytes]
            dsimp only
            rw [Function.update_of_ne (Ne.symm same)]

def tcpServer (myAddress : UInt8) (store : σ) (memory : ι → MbapReader) (newsd : ι → Int)
    (heap : ι → Vector UInt8 512) : TcpServer ι σ where
  slave := modbusTcpSlaveInit myAddress store
  conns conn := modbusTcpSlaveAllocConn (memory conn) (newsd conn) (heap conn)

/-- In whatever chunks and order the ADUs of the connections arrive, they are served one
at a time in the order of their last bytes, and every one addressed to the slave is
answered on its connection. -/
theorem tcpServer_serves (ctx : ModbusSlaveCTX σ) (myAddress : UInt8) (store : σ)
    (memory : ι → MbapReader) (newsd : ι → Int) (heap : ι → Vector UInt8 512)
    (sent : ι → List Adu) (events : List (ι × List UInt8))
    (within : ∀ conn, receivedOn conn events <+: (sent conn).flatMap fun adu => adu.bytes) :
    ∃ final requests,
      events.foldlM (tcpServerRx ctx acceptAll)
        (tcpServer myAddress store memory newsd heap) = some final ∧
      requests = arrivals sent (fun _ => 0) events ∧
      (∀ conn, (requests.filter fun request => request.1 = conn).map Prod.snd =
        complete (fun adu : Adu => adu.bytes) (receivedOn conn events).length (sent conn)) ∧
      Emits (Serves ctx myAddress) requests
        { store := store, calls := [], answered := fun _ => [] } final.service ∧
      ∀ conn, ∃ responses : List Adu,
        (final.conns conn).sent = responses.flatMap (fun adu => adu.bytes) ∧
        List.Forall₂ Echoes (addressedOn myAddress conn requests) responses := by
  have tracks (conn : ι) : Tracks (sent conn) 0
      ((tcpServer myAddress store memory newsd heap).conns conn) :=
    ⟨at_zero (fun adu => adu.bytes_ne_nil) (sent conn) (held_init (memory conn)), rfl⟩
  rcases run_serves ctx sent events (fun _ => 0) _ tracks (by simpa using within) with
    ⟨final, run, serves⟩
  refine ⟨final, _, run, rfl, fun conn => ?_, serves, fun conn => ?_⟩
  · rw [arrivals_on, Nat.zero_add]
    exact between_zero (fun adu => adu.bytes_ne_nil) _ _
  · rcases emits_answered serves conn with ⟨responses, bytes, echoes⟩
    exact ⟨responses, bytes.trans (List.nil_append _), echoes⟩

/-- A request to read eight coils, cut in two, is answered. -/
theorem tcpServer_serves_coils :
    ∃ final, [(true, [0, 1, 0, 0]), (false, []), (true, [0, 6, 2, 1, 0, 0, 0, 8])].foldlM
        (tcpServerRx testSlave acceptAll)
        (tcpServer 2 () (fun _ => readerAt (.replicate 260 0) 0) (fun _ => 5)
          fun _ => .replicate 512 0) = some final ∧
      ∃ response : Adu, (final.conns true).sent = response.bytes ∧
        response.tid = 1 ∧ response.uid = 2 := by
  let request : Adu := {
    tid := 1, pid := 0, uid := 2, pdu := [1, 0, 0, 0, 8]
    counted := by decide, nonempty := by decide, short := by decide }
  rcases tcpServer_serves testSlave 2 () (fun _ => readerAt (.replicate 260 0) 0) (fun _ => 5)
    (fun _ => .replicate 512 0) (fun conn => if conn then [request] else [])
    [(true, [0, 1, 0, 0]), (false, []), (true, [0, 6, 2, 1, 0, 0, 0, 8])] (by decide) with
    ⟨final, _, run, rfl, -, -, answered⟩
  rcases answered true with ⟨responses, bytes, echoes⟩
  have one : addressedOn 2 true (arrivals (fun conn => if conn then [request] else [])
      (fun _ => 0) [(true, [0, 1, 0, 0]), (false, []), (true, [0, 6, 2, 1, 0, 0, 0, 8])]) =
      [request] := rfl
  rw [one] at echoes
  cases echoes with
  | cons first rest =>
      cases rest
      exact ⟨final, run, _, by simpa using bytes, first.tid, first.uid⟩

end KongjaExpress.Modbus
