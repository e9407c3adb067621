import KongjaExpress.Library.Custody
import KongjaExpress.Modbus.MbapSafety
import KongjaExpress.Modbus.TcpServer
import KongjaExpress.Net.TcpServer
import KongjaExpress.Stream.Attached
import KongjaExpress.Utils.ListHead

/-! The connections of the Modbus TCP slave as they come and go: the listening socket, the memory
and the descriptors of the connections, and the list they are on. -/

namespace KongjaExpress.Modbus

open Custody EventLoop LinkedCells Net Transport Utils

variable {α σ : Type}

/-- What the slave has to give back: descriptors, and the memory of the connection `p` and of
the queue of its stream. -/
inductive Resource (α : Type)
  | sd (sd : Int)
  | conn (p : α)
  | queue (p : α)
  deriving DecidableEq, Repr

/-- A slave with the blocks that `malloc` has given out, what was in memory at every address, and
the list of connections: `some p` is the cell in the connection at `p`, `none` the head. -/
structure SlaveHost (α σ : Type) where
  server : TcpListener
  tcp : TcpServer α σ
  links : Links (Option α)
  heap : List α
  log : List (Entry (Resource α))

def reach (cell : Option α) : List (Entry (Resource α)) := (cell.map fun p => .use (.conn p)).toList

def reportedBy : WatcherEvent → WatchTarget
  | .rx => .rx
  | .tx => .tx
  | .error => .er

inductive HostEvent (α : Type)
  | start
  | stop
  /-- What `accept` and `malloc` return. -/
  | incoming (newsd : Int) (memory : Option α) (queue : Vector UInt8 512)
  /-- The event loop finds a connection ready. -/
  | ready (conn : α) (event : WatcherEvent) (read : ReadResult) (written : WriteResult)
      (kernel : List UInt8 → WriteResult)

variable [DecidableEq α]

namespace SlaveHost

def note (host : SlaveHost α σ) (entries : List (Entry (Resource α))) : SlaveHost α σ :=
  { host with log := host.log ++ entries }

def malloc (host : SlaveHost α σ) (memory : Option α) : Option α :=
  memory.filter fun p => decide (p ∉ host.heap)

/-- `modbus_tcp_slave_alloc_conn`. -/
def allocConn (host : SlaveHost α σ) (newsd : Int) (memory : Option α)
    (queue : Vector UInt8 512) : SlaveHost α σ :=
  (host.malloc memory).elim (host.note [.give (.sd newsd)]) fun p =>
    let host := host.note [.take (.conn p), .take (.queue p), .use (.sd newsd), .use (.conn p)]
    let conn := modbusTcpSlaveAllocConn (host.tcp.conns p).mbapReader newsd queue
    let links := initListHead (some p) host.links
    let host := host.note (reach (links.prev none))
    { host with
      tcp := { host.tcp with conns := Function.update host.tcp.conns p conn }
      links := listAddTail (some p) none links
      heap := p :: host.heap }

/-- `modbus_tcp_slave_dealloc_conn`. -/
def deallocConn (host : SlaveHost α σ) (p : α) : SlaveHost α σ :=
  let conn := host.tcp.conns p
  let host := host.note [.use (.conn p), .give (.queue p), .give (.sd conn.stream.watcher.fd)]
  let host := host.note (reach (host.links.prev (some p)) ++ reach (host.links.next (some p)))
  let host := host.note [.give (.conn p)]
  { host with
    tcp := { host.tcp with
      conns := Function.update host.tcp.conns p { conn with stream := streamStop conn.stream } }
    links := listDelInit (some p) host.links
    heap := host.heap.erase p }

/-- `tcp_server_ipv4_rx_event`. -/
def rxEvent (host : SlaveHost α σ) (newsd : Int) (memory : Option α)
    (queue : Vector UInt8 512) : SlaveHost α σ :=
  let host := host.note [.use (.sd host.server.sd)]
  if newsd < 0 then host
  else (host.note [.take (.sd newsd)]).allocConn newsd memory queue

/-- `modbus_tcp_slave_handle_stream_event`. -/
def handleStreamEvent (ctx : ModbusSlaveCTX σ) (kernel : List UInt8 → WriteResult)
    (host : SlaveHost α σ) (p : α) : StreamEvent → Option (SlaveHost α σ)
  | .rx =>
      (tcpServerRx ctx kernel host.tcp (p, (host.tcp.conns p).stream.rxData)).map fun tcp =>
        { host with tcp := tcp }
  | .eof | .err => some (host.deallocConn p)
  | .tx => some host

def withStream (host : SlaveHost α σ) (p : α) (stream : Stream 512) (accepted : List UInt8) :
    SlaveHost α σ :=
  let conn := host.tcp.conns p
  let host := host.note [.use (.conn p), .use (.sd conn.stream.watcher.fd)]
  let conn := { conn with stream := stream, sent := conn.sent ++ accepted }
  { host with tcp := { host.tcp with conns := Function.update host.tcp.conns p conn } }

/-- `stream_watcher_callback` on a connection. -/
def ready (ctx : ModbusSlaveCTX σ) (host : SlaveHost α σ) (p : α) (event : WatcherEvent)
    (read : ReadResult) (written : WriteResult) (kernel : List UInt8 → WriteResult) :
    Option (SlaveHost α σ) :=
  (streamWatcherCallback (host.tcp.conns p).stream event read written).bind fun seen =>
    let host := host.withStream p seen.1 seen.2.1
    seen.2.2.elim (some host) (handleStreamEvent ctx kernel host p)

/-- The loop of `modbus_tcp_slave_stop`, from the connection `pos` on; `n` is the next one. -/
def deallocAll : Nat → Option α → Option α → SlaveHost α σ → Option (SlaveHost α σ)
  | _, none, _, host => some host
  | 0, some _, _, _ => none
  | fuel + 1, some pos, n, host =>
      let host := host.deallocConn pos
      deallocAll fuel n (host.links.next n) (host.note (reach n))

/-- `modbus_tcp_slave_stop`. -/
def stop (host : SlaveHost α σ) : Option (SlaveHost α σ) :=
  let host := { host with server := tcpServerStop host.server }
  let pos := host.links.next none
  deallocAll host.heap.length pos (host.links.next pos) (host.note (reach pos))

/-- The event loop calls back for descriptors it watches. -/
def step (ctx : ModbusSlaveCTX σ) (host : SlaveHost α σ) : HostEvent α → Option (SlaveHost α σ)
  | .start => some { host with server := tcpServerStart host.server }
  | .stop => host.stop
  | .incoming newsd memory queue =>
      some (if evIo host.server.watcher .rx then host.rxEvent newsd memory queue else host)
  | .ready p event read written kernel =>
      if evIo (host.tcp.conns p).stream.watcher (reportedBy event) then
        host.ready ctx p event read written kernel
      else some host

end SlaveHost

/-- `modbus_tcp_slave_init`, which does not look at what `tcp_server_ipv4_init` returns. -/
def slaveHost (deviceAddr : UInt8) (store : σ) (kernel : ListenKernel) (listener : TcpListener)
    (memory : α → TcpConnection) (links : Links (Option α)) : SlaveHost α σ where
  server := (tcpServerIpv4Init kernel listener).2.1
  tcp := ⟨modbusTcpSlaveInit deviceAddr store, memory⟩
  links := initListHead none links
  heap := []
  log := (tcpServerIpv4Init kernel listener).2.2.map (Entry.map .sd)

/-! What is held. -/

def SlaveHost.fd (host : SlaveHost α σ) (p : α) : Int := (host.tcp.conns p).stream.watcher.fd

def holdings (sd : Int) (fd : α → Int) (conns : List α) : List (Resource α) :=
  .sd sd :: conns.flatMap fun p => [.sd (fd p), .conn p, .queue p]

omit [DecidableEq α] in
theorem holdings_congr {sd : Int} {fd fd' : α → Int} {conns : List α}
    (same : ∀ p ∈ conns, fd p = fd' p) : holdings sd fd conns = holdings sd fd' conns := by
  rw [holdings, holdings, List.flatMap_congr]
  intro p member
  rw [same p member]

omit [DecidableEq α] in
theorem holdings_snoc (sd : Int) (fd : α → Int) (conns : List α) (p : α) :
    (.queue p :: .conn p :: .sd (fd p) :: holdings sd fd conns).Perm
      (holdings sd fd (conns ++ [p])) := by
  have last : holdings sd fd (conns ++ [p]) =
      holdings sd fd conns ++ [.sd (fd p), .conn p, .queue p] := by
    simp [holdings]
  rw [last]
  change ([Resource.queue p, .conn p, .sd (fd p)] ++ holdings sd fd conns).Perm _
  apply List.perm_append_comm.trans
  apply List.Perm.append_left
  exact List.reverse_perm [Resource.sd (fd p), .conn p, .queue p]

omit [DecidableEq α] in
theorem holdings_middle (sd : Int) (fd : α → Int) (front back : List α) (p : α) :
    (holdings sd fd (front ++ p :: back)).Perm
      (.queue p :: .sd (fd p) :: .conn p :: holdings sd fd (front ++ back)) := by
  have moved : (holdings sd fd (front ++ p :: back)).Perm
      (holdings sd fd ((front ++ back) ++ [p])) := by
    apply List.Perm.cons
    apply List.Perm.flatMap_right
    apply List.perm_middle.trans
    exact (List.perm_append_singleton p (front ++ back)).symm
  apply moved.trans
  apply (holdings_snoc sd fd (front ++ back) p).symm.trans
  exact (List.Perm.swap (Resource.sd (fd p)) (.conn p) _).cons _

omit [DecidableEq α] in
theorem conn_mem_holdings {sd : Int} {fd : α → Int} {conns : List α} {p : α} (member : p ∈ conns) :
    Resource.conn p ∈ holdings sd fd conns ∧ Resource.sd (fd p) ∈ holdings sd fd conns := by
  constructor
  all_goals
    apply List.mem_cons_of_mem
    rw [List.mem_flatMap]
    exact ⟨p, member, by simp⟩

theorem reach_balances {cell : Option α} {conns : List α} {sd : Int} {fd : α → Int}
    (inside : cell ∈ none :: conns.map some) (extra : List (Resource α))
    {entries : List (Entry (Resource α))} {after : List (Resource α)}
    (later : Balances entries (extra ++ holdings sd fd conns) after) :
    Balances (reach cell ++ entries) (extra ++ holdings sd fd conns) after := by
  cases cell with
  | none => exact later
  | some p =>
      have member : p ∈ conns := by simpa using inside
      exact .use (List.mem_append_right extra (conn_mem_holdings member).1) later

/-! The connections that are open. -/

def Between (mbap : MbapReader) : Prop :=
  ∃ frame count, count ≤ 260 ∧ mbap = readerAt frame count

/-- The list, the blocks and the accounts are those of these connections; each of them is on the
event loop, and nothing else is. -/
structure Tended (extra : List (Resource α)) (host : SlaveHost α σ) (conns : List α) : Prop where
  list : Circular host.links none (conns.map some)
  heap : host.heap.Perm conns
  ledger : Balances host.log [] (extra ++ holdings host.server.sd host.fd conns)
  attached : ∀ p ∈ conns, Attached (host.fd p) (host.tcp.conns p).stream
  reader : ∀ p ∈ conns, Between (host.tcp.conns p).mbapReader
  released : ∀ p, p ∉ conns → ∀ target, evIo (host.tcp.conns p).stream.watcher target = false

variable {host : SlaveHost α σ} {conns : List α} {extra extra' : List (Resource α)}

theorem Tended.nodup (tended : Tended extra host conns) : conns.Nodup :=
  List.Nodup.of_map some (List.nodup_cons.mp tended.list.nodup).2

theorem Tended.note (tended : Tended extra host conns) {entries : List (Entry (Resource α))}
    (balances : Balances entries (extra ++ holdings host.server.sd host.fd conns)
      (extra' ++ holdings host.server.sd host.fd conns)) :
    Tended extra' (host.note entries) conns where
  list := tended.list
  heap := tended.heap
  ledger := tended.ledger.append balances
  attached := tended.attached
  reader := tended.reader
  released := tended.released

theorem Tended.update (tended : Tended extra host conns) {p : α} {tcp : TcpServer α σ}
    (others : ∀ q, q ≠ p → tcp.conns q = host.tcp.conns q) (member : p ∈ conns)
    (attached : Attached (host.fd p) (tcp.conns p).stream)
    (reader : Between (tcp.conns p).mbapReader) :
    Tended extra { host with tcp := tcp } conns := by
  have same (q : α) : (tcp.conns q).stream.watcher.fd = host.fd q := by
    by_cases here : q = p
    · rw [here]
      exact attached.fd
    · rw [others q here]
      rfl
  refine ⟨tended.list, tended.heap, ?_, fun q inside => ?_, fun q inside => ?_,
    fun q outside => ?_⟩
  · have ledger := tended.ledger
    rwa [@holdings_congr α host.server.sd host.fd (SlaveHost.fd { host with tcp := tcp }) conns
      fun q _ => (same q).symm] at ledger
  · change Attached (tcp.conns q).stream.watcher.fd _
    rw [same]
    by_cases here : q = p
    · rw [here]
      exact attached
    · change Attached (host.fd q) (tcp.conns q).stream
      rw [others q here]
      exact tended.attached q inside
  · by_cases here : q = p
    · rw [here]
      exact reader
    · change Between (tcp.conns q).mbapReader
      rw [others q here]
      exact tended.reader q inside
  · have differ : q ≠ p := fun here => outside (here ▸ member)
    change ∀ target, evIo (tcp.conns q).stream.watcher target = false
    rw [others q differ]
    exact tended.released q outside

theorem Tended.dealloc {p : α} {front back : List α}
    (tended : Tended [] host (front ++ p :: back)) :
    Tended [] (host.deallocConn p) (front ++ back) := by
  have split : (front ++ p :: back).map some = front.map some ++ some p :: back.map some := by
    rw [List.map_append, List.map_cons]
  have list := tended.list
  rw [split] at list
  have unique := List.nodup_middle.mp tended.nodup
  have apart : ∀ q ∈ front ++ back, q ≠ p := by
    intro q member same
    exact (List.nodup_cons.mp unique).1 (same ▸ member)
  have kept : ∀ q, q ≠ p → (host.deallocConn p).tcp.conns q = host.tcp.conns q :=
    fun q differ => Function.update_of_ne differ _ _
  rcases list.neighbours with ⟨before, behind⟩
  refine ⟨?_, ?_, ?_, ?_, ?_, ?_⟩
  · rw [List.map_append]
    exact (taken_out list (initListHead_outside (some p) _)).1
  · have erased := tended.heap.erase p
    have gone : (front ++ p :: back).erase p = front ++ back := by
      rw [List.erase_append_right _ fun member => by
        exact apart p (List.mem_append_left back member) rfl, List.erase_cons_head]
    rwa [gone] at erased
  · have same : holdings host.server.sd host.fd (front ++ back) =
        holdings host.server.sd (host.deallocConn p).fd (front ++ back) := by
      apply holdings_congr
      intro q member
      exact congrArg (fun conn : TcpConnection => conn.stream.watcher.fd)
        (kept q (apart q member)).symm
    change Balances (((host.log ++ _) ++ _) ++ _) [] (holdings host.server.sd _ (front ++ back))
    rw [← same, List.append_assoc, List.append_assoc]
    apply tended.ledger.append
    have all := holdings_middle host.server.sd host.fd front back p
    have inside : Resource.conn p ∈ holdings host.server.sd host.fd (front ++ p :: back) :=
      (conn_mem_holdings (by simp)).1
    apply Balances.use inside
    apply Balances.give all
    apply Balances.give (List.Perm.refl _)
    -- the neighbours are the head or in other connections
    rw [List.append_assoc]
    have first : host.links.prev (some p) ∈ none :: (front ++ back).map some := by
      rw [List.map_append]
      rcases List.mem_cons.mp before with head | member
      · exact List.mem_cons.mpr (.inl head)
      · exact List.mem_cons_of_mem _ (List.mem_append_left _ member)
    have second : host.links.next (some p) ∈ none :: (front ++ back).map some := by
      rw [List.map_append]
      rcases List.mem_append.mp behind with member | head
      · exact List.mem_cons_of_mem _ (List.mem_append_right _ member)
      · exact List.mem_cons.mpr (.inl (List.mem_singleton.mp head))
    apply reach_balances first [.conn p]
    apply reach_balances second [.conn p]
    exact .give (List.Perm.refl _) (.nil (List.Perm.refl _))
  · intro q member
    have attached := tended.attached q (by grind)
    rw [SlaveHost.fd, kept q (apart q member)]
    exact attached
  · intro q member
    rw [kept q (apart q member)]
    exact tended.reader q (by grind)
  · intro q outside target
    by_cases here : q = p
    · rw [here]
      change evIo (Function.update host.tcp.conns p _ p).stream.watcher target = false
      rw [Function.update_self]
      exact (tended.attached p (by simp)).stop target
    · rw [kept q here]
      exact tended.released q (by grind) target

theorem allocConn_server (host : SlaveHost α σ) (newsd : Int) (memory : Option α)
    (queue : Vector UInt8 512) :
    (host.allocConn newsd memory queue).server = host.server := by
  rw [SlaveHost.allocConn]
  cases host.malloc memory <;> rfl

theorem Tended.alloc {newsd : Int} (tended : Tended [.sd newsd] host conns) (memory : Option α)
    (queue : Vector UInt8 512) :
    Tended [] (host.allocConn newsd memory queue)
      (conns ++ (host.malloc memory).toList) := by
  rw [SlaveHost.allocConn]
  cases given : host.malloc memory with
  | none =>
      rw [Option.toList_none, List.append_nil]
      exact tended.note (.give (List.Perm.refl _) (.nil (List.Perm.refl _)))
  | some p =>
      have free : p ∉ host.heap := by
        have allowed := (Option.filter_eq_some_iff.mp given).2
        simpa using allowed
      have new : p ∉ conns := fun member => free (tended.heap.mem_iff.mpr member)
      have list : Circular (initListHead (some p) host.links) none (conns.map some) := by
        apply tended.list.frame (initListHead_outside (some p) host.links)
        intro cell member
        grind
      have fresh : some p ∉ none :: conns.map some := by simp [new]
      let conn := modbusTcpSlaveAllocConn (host.tcp.conns p).mbapReader newsd queue
      let found := Function.update host.tcp.conns p conn
      have here : found p = conn := Function.update_self p conn host.tcp.conns
      have kept (q : α) (differ : q ≠ p) : found q = host.tcp.conns q :=
        Function.update_of_ne differ conn host.tcp.conns
      have differ (q : α) (member : q ∈ conns) : q ≠ p := fun same => new (same ▸ member)
      have opened : Attached newsd conn.stream := attached_start newsd 512 queue
      have fd : (found p).stream.watcher.fd = newsd := by
        rw [here]
        exact opened.fd
      refine ⟨?_, ?_, ?_, fun q member => ?_, fun q member => ?_, fun q outside target => ?_⟩
      · rw [List.map_append]
        exact listAddTail_circular list fresh
      · change (p :: host.heap).Perm (conns ++ [p])
        exact (tended.heap.cons p).trans (List.perm_append_singleton p conns).symm
      · have same : holdings host.server.sd host.fd conns =
            holdings host.server.sd (fun q => (found q).stream.watcher.fd) conns := by
          apply holdings_congr
          intro q member
          exact congrArg (fun conn : TcpConnection => conn.stream.watcher.fd)
            (kept q (differ q member)).symm
        have ends := holdings_snoc host.server.sd (fun q => (found q).stream.watcher.fd) conns p
        rw [← same, fd] at ends
        have memory : Balances [.take (.conn p), .take (.queue p), .use (.sd newsd), .use (.conn p)]
            ([.sd newsd] ++ holdings host.server.sd host.fd conns)
            ([.queue p, .conn p, .sd newsd] ++ holdings host.server.sd host.fd conns) :=
          .take (.take (.use (by simp) (.use (by simp) (.nil (List.Perm.refl _)))))
        apply (tended.ledger.append memory).append
        rw [← List.append_nil (reach _)]
        exact reach_balances list.prev_mem [.queue p, .conn p, .sd newsd] (.nil ends)
      · change Attached (found q).stream.watcher.fd (found q).stream
        by_cases last : q = p
        · rw [last, fd, here]
          exact opened
        · rw [kept q last]
          exact tended.attached q (by simpa [last] using member)
      · change Between (found q).mbapReader
        by_cases last : q = p
        · rw [last, here]
          exact ⟨_, 0, Nat.zero_le 260, mbapReaderReset_eq _⟩
        · rw [kept q last]
          exact tended.reader q (by simpa [last] using member)
      · rw [List.mem_append, Option.toList_some, List.mem_singleton, not_or] at outside
        change evIo (found q).stream.watcher target = false
        rw [kept q outside.2]
        exact tended.released q outside.1 target

/-! Events on a connection. -/

theorem responseFrame_short (frame : Vector UInt8 260) (r : RequestResult σ 0) (count : Nat) :
    (Memory.front (responseFrame frame r) count).length ≤ 512 := by
  rw [Memory.front, List.length_take, Vector.length_toList]
  omega

theorem handleRxFrame_attached (ctx : ModbusSlaveCTX σ) (kernel : List UInt8 → WriteResult)
    (mbap : MbapReader) {env : SlaveEnv σ} {fd : Int} (attached : Attached fd env.stream) :
    Attached fd (modbusTcpSlaveHandleRxFrame ctx kernel mbap env).2.stream := by
  rw [modbusTcpSlaveHandleRxFrame]
  dsimp only
  split_ifs
  · exact attached.write (responseFrame_short _ _ _) _
  · exact attached
  · exact attached

theorem calls_attached (ctx : ModbusSlaveCTX σ) (kernel : List UInt8 → WriteResult)
    (delivered : List MbapReader) {env : SlaveEnv σ} {fd : Int}
    (attached : Attached fd env.stream) :
    Attached fd (calls (modbusTcpSlaveHandleRxFrame ctx kernel) delivered env).stream := by
  induction delivered generalizing env with
  | nil => exact attached
  | cons mbap delivered ih => exact ih (handleRxFrame_attached ctx kernel mbap attached)

/-- Whatever is received, the connection stays on the event loop, and the others are left alone. -/
theorem tcpServerRx_attached (ctx : ModbusSlaveCTX σ) (kernel : List UInt8 → WriteResult)
    {server : TcpServer α σ} {p : α} {fd : Int} (attached : Attached fd (server.conns p).stream)
    (reader : Between (server.conns p).mbapReader) (chunk : List UInt8) :
    ∃ served, tcpServerRx ctx kernel server (p, chunk) = some served ∧
      (∀ q, q ≠ p → served.conns q = server.conns q) ∧
      Attached fd (served.conns p).stream ∧ Between (served.conns p).mbapReader := by
  rcases reader with ⟨frame, count, bound, at_frame⟩
  rcases run_sound (modbusTcpSlaveHandleRxFrame ctx kernel) chunk bound List.suffix_rfl
    ⟨server.slave, (server.conns p).stream, (server.conns p).sent⟩ with
    ⟨frame', count', delivered, run, bound', -, -⟩
  let env := calls (modbusTcpSlaveHandleRxFrame ctx kernel) delivered
    ⟨server.slave, (server.conns p).stream, (server.conns p).sent⟩
  let conn : TcpConnection := ⟨readerAt frame' count', env.stream, env.sent⟩
  let served : TcpServer α σ := ⟨env.slave, Function.update server.conns p conn⟩
  have here : served.conns p = conn := Function.update_self ..
  refine ⟨served, ?_, fun q differ => Function.update_of_ne differ _ _, ?_, ?_⟩
  · rw [tcpServerRx, mbapReaderFeed, at_frame, run]
    rfl
  · rw [here]
    exact calls_attached ctx kernel delivered attached
  · rw [here]
    exact ⟨frame', count', bound', rfl⟩

theorem Tended.handle (tended : Tended [] host conns) {p : α} (member : p ∈ conns)
    (ctx : ModbusSlaveCTX σ) (kernel : List UInt8 → WriteResult) (event : StreamEvent) :
    ∃ next conns', host.handleStreamEvent ctx kernel p event = some next ∧
      Tended [] next conns' ∧ next.server = host.server := by
  rcases List.append_of_mem member with ⟨front, back, rfl⟩
  cases event with
  | rx =>
      rcases tcpServerRx_attached ctx kernel (tended.attached p member) (tended.reader p member)
        (host.tcp.conns p).stream.rxData with ⟨served, run, others, attached, reader⟩
      refine ⟨_, _, ?_, tended.update others member attached reader, rfl⟩
      rw [SlaveHost.handleStreamEvent, run]
      rfl
  | eof => exact ⟨_, _, rfl, tended.dealloc, rfl⟩
  | err => exact ⟨_, _, rfl, tended.dealloc, rfl⟩
  | tx => exact ⟨_, _, rfl, tended, rfl⟩

theorem Tended.withStream (tended : Tended [] host conns) {p : α} (member : p ∈ conns)
    {stream : Stream 512} (attached : Attached (host.fd p) stream) (accepted : List UInt8) :
    Tended [] (host.withStream p stream accepted) conns := by
  have inside := @conn_mem_holdings α host.server.sd host.fd conns p member
  have noted : Tended [] (host.note [.use (.conn p), .use (.sd (host.fd p))]) conns :=
    tended.note (.use inside.1 (.use inside.2 (.nil (List.Perm.refl _))))
  have here : (host.withStream p stream accepted).tcp.conns p =
      { host.tcp.conns p with
        stream := stream
        sent := (host.tcp.conns p).sent ++ accepted } := Function.update_self ..
  apply @Tended.update α σ _ _ conns [] noted p (host.withStream p stream accepted).tcp
  · exact fun q differ => Function.update_of_ne differ _ _
  · exact member
  · rw [here]
    exact attached
  · rw [here]
    exact tended.reader p member

theorem Tended.ready (tended : Tended [] host conns) {p : α} (member : p ∈ conns)
    (ctx : ModbusSlaveCTX σ) {event : WatcherEvent} (waited : event ≠ .tx) (read : ReadResult)
    (written : WriteResult) (kernel : List UInt8 → WriteResult) :
    ∃ next conns', host.ready ctx p event read written kernel = some next ∧
      Tended [] next conns' ∧ next.server = host.server := by
  rcases (tended.attached p member).callback waited read written with ⟨seen, called, attached⟩
  have updated := tended.withStream member attached seen.2.1
  rw [SlaveHost.ready, called, Option.bind_some]
  cases told : seen.2.2 with
  | none => exact ⟨_, conns, rfl, updated, rfl⟩
  | some event => exact updated.handle member ctx kernel event

/-! Whole runs. -/

/-- The loop that closes all connections. It asks for the next one before it frees the memory
that says which that is. -/
theorem Tended.deallocAll (tended : Tended [] host conns) {fuel : Nat}
    (enough : conns.length ≤ fuel) :
    ∃ last, SlaveHost.deallocAll fuel (host.links.next none)
        (host.links.next (host.links.next none)) host = some last ∧
      Tended [] last [] ∧ last.server = host.server := by
  induction conns generalizing host fuel with
  | nil =>
      have first : host.links.next none = none := (circular_nil.mp tended.list).1
      refine ⟨host, ?_, tended, rfl⟩
      rw [first, SlaveHost.deallocAll]
  | cons p conns ih =>
      cases fuel with
      | zero => exact absurd enough (Nat.not_succ_le_zero _)
      | succ fuel =>
          have first : host.links.next none = some p := tended.list.first
          have gone : Tended [] (host.deallocConn p) conns := @Tended.dealloc α σ _ host p [] conns tended
          have next : host.links.next (some p) = (host.deallocConn p).links.next none :=
            tended.list.next_removed gone.list
          have known : (host.deallocConn p).links.next none ∈ none :: conns.map some := by
            cases conns with
            | nil => exact List.mem_cons.mpr (.inl (circular_nil.mp gone.list).1)
            | cons q conns =>
                rw [gone.list.first]
                exact List.mem_cons_of_mem _ List.mem_cons_self
          have noted : Tended [] ((host.deallocConn p).note
              (reach ((host.deallocConn p).links.next none))) conns := by
            apply gone.note
            rw [← List.append_nil (reach _)]
            exact reach_balances known [] (.nil (List.Perm.refl _))
          rcases ih noted (Nat.le_of_succ_le_succ enough) with ⟨last, run, empty, server⟩
          refine ⟨last, ?_, empty, server⟩
          rw [first, SlaveHost.deallocAll]
          rw [next]
          exact run

theorem Tended.stop (tended : Tended [] host conns) {sd : Int}
    (listening : Listening sd host.server) :
    ∃ last, host.stop = some last ∧ Tended [] last [] ∧ Listening sd last.server ∧
      last.server.isListening = false := by
  rcases listening.stop with ⟨stopped, silent⟩
  have same : (tcpServerStop host.server).sd = host.server.sd := stopped.sd.trans listening.sd.symm
  have quiet : Tended [] { host with server := tcpServerStop host.server } conns := by
    refine ⟨tended.list, tended.heap, ?_, tended.attached, tended.reader, tended.released⟩
    change Balances host.log [] ([] ++ holdings (tcpServerStop host.server).sd host.fd conns)
    rw [same]
    exact tended.ledger
  have known : host.links.next none ∈ none :: conns.map some := by
    cases conns with
    | nil => exact List.mem_cons.mpr (.inl (circular_nil.mp tended.list).1)
    | cons p conns =>
        rw [tended.list.first]
        exact List.mem_cons_of_mem _ List.mem_cons_self
  have noted : Tended [] ({ host with server := tcpServerStop host.server }.note
      (reach (host.links.next none))) conns := by
    apply quiet.note
    rw [← List.append_nil (reach _)]
    exact reach_balances known [] (.nil (List.Perm.refl _))
  have enough : conns.length ≤ host.heap.length := tended.heap.length_eq.ge
  rcases noted.deallocAll enough with ⟨last, run, empty, server⟩
  refine ⟨last, run, empty, ?_, ?_⟩
  · rw [server]
    exact stopped
  · rw [server]
    exact silent

theorem Tended.start (tended : Tended [] host conns) {sd : Int}
    (listening : Listening sd host.server) :
    Tended [] { host with server := tcpServerStart host.server } conns := by
  refine ⟨tended.list, tended.heap, ?_, tended.attached, tended.reader, tended.released⟩
  change Balances host.log [] ([] ++ holdings (tcpServerStart host.server).sd host.fd conns)
  rw [listening.start.sd, ← listening.sd]
  exact tended.ledger

theorem Tended.rxEvent (tended : Tended [] host conns) (newsd : Int) (memory : Option α)
    (queue : Vector UInt8 512) :
    Tended [] (host.rxEvent newsd memory queue)
      (conns ++ if newsd < 0 then [] else (host.malloc memory).toList) := by
  have asked : Tended [] (host.note [.use (.sd host.server.sd)]) conns :=
    tended.note (.use (by simp [holdings]) (.nil (List.Perm.refl _)))
  rw [SlaveHost.rxEvent]
  split_ifs
  · rw [List.append_nil]
    exact asked
  · have accepted : Tended [.sd newsd]
        ((host.note [.use (.sd host.server.sd)]).note [.take (.sd newsd)]) conns :=
      asked.note (.take (.nil (List.Perm.refl _)))
    exact accepted.alloc memory queue

theorem rxEvent_server (host : SlaveHost α σ) (newsd : Int) (memory : Option α)
    (queue : Vector UInt8 512) : (host.rxEvent newsd memory queue).server = host.server := by
  rw [SlaveHost.rxEvent]
  split_ifs
  · rfl
  · exact allocConn_server ..

theorem Tended.reported (tended : Tended [] host conns) {p : α} {event : WatcherEvent}
    (active : evIo (host.tcp.conns p).stream.watcher (reportedBy event) = true) :
    p ∈ conns ∧ event ≠ .tx := by
  have member : p ∈ conns := by
    by_contra outside
    have silent := tended.released p outside (reportedBy event)
    rw [active] at silent
    contradiction
  refine ⟨member, ?_⟩
  rintro rfl
  have silent := (tended.attached p member).silent
  exact absurd (silent.symm.trans active) Bool.false_ne_true

theorem Tended.step (tended : Tended [] host conns) {sd : Int}
    (listening : Listening sd host.server) (ctx : ModbusSlaveCTX σ) (event : HostEvent α) :
    ∃ next conns', host.step ctx event = some next ∧ Tended [] next conns' ∧
      Listening sd next.server ∧ (event = .stop → conns' = [] ∧ next.server.isListening = false) := by
  cases event with
  | start => exact ⟨_, conns, rfl, tended.start listening, listening.start, fun other => nomatch other⟩
  | stop =>
      rcases tended.stop listening with ⟨last, run, empty, stopped, silent⟩
      exact ⟨last, [], run, empty, stopped, fun _ => ⟨rfl, silent⟩⟩
  | incoming newsd memory queue =>
      rw [SlaveHost.step]
      split_ifs
      · refine ⟨_, _, rfl, tended.rxEvent newsd memory queue, ?_, fun other => nomatch other⟩
        rw [rxEvent_server]
        exact listening
      · exact ⟨_, conns, rfl, tended, listening, fun other => nomatch other⟩
  | ready p event read written kernel =>
      rw [SlaveHost.step]
      split_ifs with active
      · have reported := tended.reported active
        rcases tended.ready reported.1 ctx reported.2 read written kernel with
          ⟨next, conns', run, kept, server⟩
        refine ⟨next, conns', run, kept, ?_, fun other => nomatch other⟩
        rw [server]
        exact listening
      · exact ⟨_, conns, rfl, tended, listening, fun other => nomatch other⟩

def Unwatched (memory : α → TcpConnection) : Prop :=
  ∀ p target, evIo (memory p).stream.watcher target = false

variable {kernel : ListenKernel} {listener : TcpListener} {memory : α → TcpConnection}

theorem slaveHost_opened (opened : (tcpServerIpv4Init kernel listener).1 = 0) :
    tcpServerIpv4Init kernel listener = (0, tcpServerInit kernel.socket, [.take kernel.socket]) ∧
      kernel.socket ≠ -1 := by
  rcases tcpServerIpv4Init_cases kernel listener with ⟨failed, -⟩ | ⟨valid, same⟩
  · rw [failed] at opened
    contradiction
  · exact ⟨same, by omega⟩

theorem tended_start (deviceAddr : UInt8) (store : σ)
    (opened : (tcpServerIpv4Init kernel listener).1 = 0) (unwatched : Unwatched memory)
    (links : Links (Option α)) :
    Tended [] (slaveHost deviceAddr store kernel listener memory links) [] where
  list := initListHead_circular none links
  heap := List.Perm.nil
  ledger := by
    rw [slaveHost, (slaveHost_opened opened).1]
    exact .take (.nil (List.Perm.refl _))
  attached := by simp
  reader := by simp
  released p _ target := unwatched p target

theorem listening_start (deviceAddr : UInt8) (store : σ)
    (opened : (tcpServerIpv4Init kernel listener).1 = 0) (links : Links (Option α)) :
    Listening kernel.socket (slaveHost deviceAddr store kernel listener memory links).server := by
  rw [slaveHost, (slaveHost_opened opened).1]
  exact listening_init kernel.socket

/-- From the opening of the socket on, whatever happens. -/
theorem slave_run (ctx : ModbusSlaveCTX σ) (deviceAddr : UInt8) (store : σ)
    (opened : (tcpServerIpv4Init kernel listener).1 = 0) (unwatched : Unwatched memory)
    (links : Links (Option α)) (events : List (HostEvent α)) :
    ∃ final conns,
      events.foldlM (SlaveHost.step ctx)
        (slaveHost deviceAddr store kernel listener memory links) = some final ∧
      Tended [] final conns ∧ Listening kernel.socket final.server ∧
      (events.getLast? = some .stop → conns = [] ∧ final.server.isListening = false) := by
  induction events using List.reverseRecOn with
  | nil =>
      exact ⟨_, [], rfl, tended_start deviceAddr store opened unwatched links,
        listening_start deviceAddr store opened links, fun none => nomatch none⟩
  | append_singleton events event ih =>
      rcases ih with ⟨host, conns, run, tended, listening, -⟩
      rcases tended.step listening ctx event with ⟨next, conns', taken, kept, listening', stopped⟩
      refine ⟨next, conns', ?_, kept, listening', fun last => stopped ?_⟩
      · rw [List.foldlM_append, run]
        change [event].foldlM (SlaveHost.step ctx) host = some next
        rw [List.foldlM_cons, taken]
        rfl
      · rw [List.getLast?_append] at last
        exact Option.some.inj last

theorem Tended.deinit (tended : Tended [] host []) {sd : Int} (listening : Listening sd host.server)
    (valid : sd ≠ -1) :
    Balances (host.log ++ (tcpServerDeinit host.server).2.map (Entry.map .sd)) [] [] := by
  apply tended.ledger.append
  rw [tcpServerDeinit_entries, listening.sd, if_neg valid]
  exact .give (List.Perm.refl _) (.nil (List.Perm.refl _))

/-- A slave that opens its socket, clients that come and go, start and stop in any order. The
connections on the list are those in memory that is in use, and those the event loop watches.
Nothing that was freed or closed is touched, freed or closed again, and everything but the listening
socket and these connections was given back; a stop leaves no connection, and then only the socket
is left to close. -/
theorem slave_sessions (ctx : ModbusSlaveCTX σ) (deviceAddr : UInt8) (store : σ)
    {kernel : ListenKernel} {listener : TcpListener}
    (opened : (tcpServerIpv4Init kernel listener).1 = 0) {memory : α → TcpConnection}
    (unwatched : Unwatched memory) (links : Links (Option α)) (events : List (HostEvent α)) :
    ∃ final conns,
      events.foldlM (SlaveHost.step ctx)
        (slaveHost deviceAddr store kernel listener memory links) = some final ∧
      Tended [] final conns ∧ Listening kernel.socket final.server ∧
      (events.getLast? = some .stop → conns = [] ∧ evIo final.server.watcher .rx = false ∧
        Balances (final.log ++ (tcpServerDeinit final.server).2.map (Entry.map .sd)) [] []) := by
  rcases slave_run ctx deviceAddr store opened unwatched links events with
    ⟨final, conns, run, tended, listening, stopped⟩
  refine ⟨final, conns, run, tended, listening, fun last => ?_⟩
  obtain ⟨rfl, silent⟩ := stopped last
  exact ⟨rfl, listening.evIo_eq.trans silent, tended.deinit listening (slaveHost_opened opened).2⟩

def visits : List (HostEvent Nat) :=
  [.start, .incoming 5 (some 0) (.replicate 512 0), .incoming 6 (some 1) (.replicate 512 0),
    .ready 0 .rx .eof (.count 0) acceptAll, .incoming 7 (some 0) (.replicate 512 0),
    .ready 1 .rx (.data [0, 1, 0, 0, 0, 6, 17, 3, 0, 5, 0, 2]) (.count 0) acceptAll,
    .incoming 8 none (.replicate 512 0), .stop]

def blankConnection : TcpConnection where
  mbapReader := readerAt (.replicate 260 0) 0
  stream := ⟨watcherInitWithFd 0, 0, [], circBufferInit (.replicate 512 0)⟩
  sent := []

def visitsKernel : ListenKernel := ⟨3, 0, 0⟩

def blankListener : TcpListener := ⟨0, false, watcherInitWithFd 0⟩

theorem visits_tended :
    ∃ final conns,
      visits.foldlM (SlaveHost.step testSlave)
        (slaveHost 17 () visitsKernel blankListener (fun _ => blankConnection)
          ⟨fun _ => none, fun _ => none⟩) = some final ∧
      Tended [] final conns ∧ Listening 3 final.server ∧
      (visits.getLast? = some .stop → conns = [] ∧ evIo final.server.watcher .rx = false ∧
        Balances (final.log ++ (tcpServerDeinit final.server).2.map (Entry.map .sd)) [] []) := by
  apply slave_sessions
  · rfl
  · intro p target
    cases target <;> rfl

end KongjaExpress.Modbus
