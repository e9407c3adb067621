import KongjaExpress.Library.Run
import KongjaExpress.Modbus.SlaveHost

/-! What the clients of the Modbus TCP slave see of it. They connect and leave as they like, and
a connection may get the memory of one that is gone. -/

namespace KongjaExpress.Modbus

open EventLoop Framing LinkedCells Net Transport Utils

variable {α σ : Type}

/-- A slave with its visits numbered in the order in which they are accepted, the chunks that were
received and what was answered on each. -/
structure Visited (α σ : Type) where
  host : SlaveHost α σ
  number : α → Nat
  visits : Nat
  received : List (Nat × List UInt8)
  answered : Nat → List UInt8

def Visited.service (v : Visited α σ) : Service Nat σ where
  store := v.host.tcp.slave.store
  calls := v.host.tcp.slave.calls
  answered := v.answered

variable [DecidableEq α]

namespace Visited

def admits (v : Visited α σ) : HostEvent α → Option α
  | .incoming newsd memory _ =>
      if evIo v.host.server.watcher .rx ∧ ¬ newsd < 0 then v.host.malloc memory else none
  | _ => none

def hears (v : Visited α σ) : HostEvent α → Option (α × List UInt8)
  | .ready p .rx (.data bytes) _ _ =>
      if evIo (v.host.tcp.conns p).stream.watcher .rx then some (p, bytes) else none
  | _ => none

def step (ctx : ModbusSlaveCTX σ) (v : Visited α σ) (event : HostEvent α) :
    Option (Visited α σ) :=
  (v.host.step ctx event).map fun host =>
    { host := host
      number := (v.admits event).elim v.number fun p => Function.update v.number p v.visits
      visits := v.visits + (v.admits event).toList.length
      received := v.received ++
        ((v.hears event).map fun heard => (v.number heard.1, heard.2)).toList
      answered := (v.hears event).elim v.answered fun heard =>
        Function.update v.answered (v.number heard.1) (host.tcp.conns heard.1).sent }

end Visited

def visited (host : SlaveHost α σ) : Visited α σ := ⟨host, fun _ => 0, 0, [], fun _ => []⟩

section Arrivals

variable {ι : Type} [DecidableEq ι]

theorem receivedOn_snoc (i conn : ι) (chunk : List UInt8) (events : List (ι × List UInt8)) :
    receivedOn i (events ++ [(conn, chunk)]) =
      receivedOn i events ++ if conn = i then chunk else [] := by
  by_cases same : conn = i <;> simp [receivedOn, same]

theorem arrivals_snoc (sent : ι → List Adu) (conn : ι) (chunk : List UInt8)
    (events : List (ι × List UInt8)) (count : ι → Nat) :
    arrivals sent count (events ++ [(conn, chunk)]) =
      arrivals sent count events ++
        (between (fun adu : Adu => adu.bytes) (sent conn)
          (count conn + (receivedOn conn events).length)
          (count conn + (receivedOn conn events).length + chunk.length)).map (Prod.mk conn) := by
  induction events generalizing count with
  | nil => simp [arrivals]
  | cons event events ih =>
      rcases event with ⟨other, first⟩
      rw [List.cons_append, arrivals, arrivals, ih, List.append_assoc]
      by_cases same : other = conn
      · subst same
        rw [Function.update_self, receivedOn_cons_same, List.length_append, Nat.add_assoc]
      · rw [Function.update_of_ne (Ne.symm same), receivedOn_cons_other same]

end Arrivals

theorem serves_as_visit {ctx : ModbusSlaveCTX σ} {addr : UInt8} {p : α} {n : Nat}
    (answered : Nat → List UInt8) {requests : List Adu} {s t : Service α σ}
    (serves : Emits (Serves ctx addr) (requests.map (Prod.mk p)) s t) :
    Emits (Serves ctx addr) (requests.map (Prod.mk n))
      ⟨s.store, s.calls, Function.update answered n (s.answered p)⟩
      ⟨t.store, t.calls, Function.update answered n (t.answered p)⟩ := by
  induction requests generalizing s with
  | nil =>
      obtain rfl := serves.of_nil
      exact .nil _
  | cons request requests ih =>
      cases serves with
      | cons first rest =>
          apply Emits.cons ?_ (ih rest)
          cases first with
          | ignored _ foreign unicast => exact .ignored _ foreign unicast
          | broadcast _ pdu broadcast holds handled => exact .broadcast _ pdu broadcast holds handled
          | answered _ pdu response addressed unicast holds handled tid pid uid payload =>
              have served : Serves ctx addr (n, request)
                  ⟨s.store, s.calls, Function.update answered n (s.answered p)⟩ _ :=
                .answered _ pdu response addressed unicast holds handled tid pid uid payload
              simpa using served

/-! Runs in which the kernel takes what it is given. -/

def HostEvent.TakesAll : HostEvent α → Prop
  | .ready _ _ _ _ kernel => kernel = acceptAll
  | _ => True

structure SameConn (conn conn' : TcpConnection) : Prop where
  reader : conn'.mbapReader = conn.mbapReader
  direct : circBufferIsEmpty conn.stream.txBuf = true → circBufferIsEmpty conn'.stream.txBuf = true
  sent : conn'.sent = conn.sent

theorem sameConn_of_eq {conn conn' : TcpConnection} (same : conn' = conn) : SameConn conn conn' := by
  subst same
  exact ⟨rfl, id, rfl⟩

/-- Each connection is a visit of its own, has received so many bytes of it, and has been
answered what the visit was. -/
structure Minded (ctx : ModbusSlaveCTX σ) (addr : UInt8) (sent : Nat → List Adu)
    (start : Service Nat σ) (v : Visited α σ) (conns : List α) : Prop where
  tended : Tended [] v.host conns
  listening : ∃ sd, Listening sd v.host.server
  early : ∀ p ∈ conns, v.number p < v.visits
  apart : ∀ p ∈ conns, ∀ q ∈ conns, v.number p = v.number q → p = q
  unborn : ∀ n, v.visits ≤ n → receivedOn n v.received = [] ∧ v.answered n = []
  tracks : ∀ p ∈ conns, Tracks (sent (v.number p)) (receivedOn (v.number p) v.received).length
    (v.host.tcp.conns p)
  replies : ∀ p ∈ conns, (v.host.tcp.conns p).sent = v.answered (v.number p)
  address : v.host.tcp.slave.myAddress = addr
  serves : Emits (Serves ctx addr) (arrivals sent (fun _ => 0) v.received) start v.service

section Steps

variable {ctx : ModbusSlaveCTX σ} {addr : UInt8} {sent : Nat → List Adu} {start : Service Nat σ}
  {v : Visited α σ} {conns conns' : List α} {host : SlaveHost α σ} {event : HostEvent α}

theorem step_quiet (closed : v.admits event = none) (deaf : v.hears event = none)
    (run : v.host.step ctx event = some host) : v.step ctx event = some { v with host := host } := by
  rw [Visited.step, run, Option.map_some, closed, deaf]
  simp

theorem Minded.keep (minded : Minded ctx addr sent start v conns) (tended : Tended [] host conns')
    (listening : ∃ sd, Listening sd host.server) (inside : ∀ q ∈ conns', q ∈ conns)
    (same : ∀ q ∈ conns', SameConn (v.host.tcp.conns q) (host.tcp.conns q))
    (slave : host.tcp.slave = v.host.tcp.slave) :
    Minded ctx addr sent start { v with host := host } conns' where
  tended := tended
  listening := listening
  early p member := minded.early p (inside p member)
  apart p member q other := minded.apart p (inside p member) q (inside q other)
  unborn := minded.unborn
  tracks p member := by
    have tracks := minded.tracks p (inside p member)
    exact ⟨(same p member).reader ▸ tracks.reader, (same p member).direct tracks.direct⟩
  replies p member := (same p member).sent.trans (minded.replies p (inside p member))
  address := slave ▸ minded.address
  serves := by
    have service : ({ v with host := host } : Visited α σ).service = v.service := by
      simp only [Visited.service, slave]
    rw [service]
    exact minded.serves

theorem deallocAll_slave {fuel : Nat} {pos n : Option α} {host last : SlaveHost α σ}
    (run : SlaveHost.deallocAll fuel pos n host = some last) :
    last.tcp.slave = host.tcp.slave := by
  induction fuel generalizing pos n host with
  | zero =>
      cases pos with
      | none => rw [← Option.some.inj run]
      | some p => contradiction
  | succ fuel ih =>
      cases pos with
      | none => rw [← Option.some.inj run]
      | some p =>
          change last.tcp.slave = ((host.deallocConn p).note (reach n)).tcp.slave
          exact ih run

theorem rxEvent_refused {newsd : Int} {memory : Option α} (queue : Vector UInt8 512)
    (refused : newsd < 0 ∨ host.malloc memory = none) :
    (host.rxEvent newsd memory queue).tcp = host.tcp := by
  rw [SlaveHost.rxEvent]
  split_ifs with failed
  · rfl
  · have none : ((host.note [.use (.sd host.server.sd)]).note [.take (.sd newsd)]).malloc memory =
        none := refused.resolve_left failed
    rw [SlaveHost.allocConn, none]
    rfl

theorem Minded.leave (minded : Minded ctx addr sent start v conns) {p : α} (member : p ∈ conns) :
    ∃ conns', Minded ctx addr sent start { v with host :=
      (v.host.withStream p (v.host.tcp.conns p).stream []).deallocConn p } conns' := by
  have attached := minded.tended.attached p member
  have updated := minded.tended.withStream member attached []
  rcases List.append_of_mem member with ⟨front, back, rfl⟩
  refine ⟨front ++ back, minded.keep updated.dealloc minded.listening ?_ ?_ rfl⟩
  · intro q inside
    grind
  · intro q inside
    have differ : q ≠ p := by
      intro same
      have unique := List.nodup_middle.mp minded.tended.nodup
      exact (List.nodup_cons.mp unique).1 (same ▸ inside)
    apply sameConn_of_eq
    calc
      ((v.host.withStream p _ []).deallocConn p).tcp.conns q =
          (v.host.withStream p (v.host.tcp.conns p).stream []).tcp.conns q :=
        Function.update_of_ne differ _ _
      _ = v.host.tcp.conns q := Function.update_of_ne differ _ _

theorem rxEvent_admitted {newsd : Int} (opened : ¬ newsd < 0) {memory : Option α}
    (queue : Vector UInt8 512) {p : α} (given : host.malloc memory = some p) :
    (host.rxEvent newsd memory queue).tcp = { host.tcp with
      conns := Function.update host.tcp.conns p
        (modbusTcpSlaveAllocConn (host.tcp.conns p).mbapReader newsd queue) } := by
  have given' : ((host.note [.use (.sd host.server.sd)]).note [.take (.sd newsd)]).malloc memory =
      some p := given
  rw [SlaveHost.rxEvent]
  dsimp only
  rw [if_neg opened, SlaveHost.allocConn, given']
  rfl

section Numbers

variable {number : α → Nat} {visits : Nat} {p : α}

theorem update_known (new : p ∉ conns) {q : α} (member : q ∈ conns) :
    Function.update number p visits q = number q := by
  apply Function.update_of_ne
  intro same
  exact new (same ▸ member)

theorem update_early (early : ∀ q ∈ conns, number q < visits) (new : p ∉ conns) :
    ∀ q ∈ conns ++ [p], Function.update number p visits q < visits + 1 := by
  intro q member
  rcases List.mem_append.mp member with old | last
  · rw [update_known new old]
    exact Nat.lt_succ_of_lt (early q old)
  · rw [List.mem_singleton.mp last, Function.update_self]
    exact Nat.lt_succ_self visits

theorem update_apart (early : ∀ q ∈ conns, number q < visits)
    (apart : ∀ q ∈ conns, ∀ r ∈ conns, number q = number r → q = r) (new : p ∉ conns) :
    ∀ q ∈ conns ++ [p], ∀ r ∈ conns ++ [p],
      Function.update number p visits q = Function.update number p visits r → q = r := by
  intro q member r other same
  rcases List.mem_append.mp member with old | last <;>
    rcases List.mem_append.mp other with old' | last'
  · rw [update_known new old, update_known new old'] at same
    exact apart q old r old' same
  · rw [List.mem_singleton.mp last', update_known new old, Function.update_self] at same
    exact absurd same (early q old).ne
  · rw [List.mem_singleton.mp last, update_known new old', Function.update_self] at same
    exact absurd same.symm (early r old').ne
  · rw [List.mem_singleton.mp last, List.mem_singleton.mp last']

end Numbers

/-- A client that comes gets a visit of its own, in memory that may have served another. -/
theorem Minded.enter (minded : Minded ctx addr sent start v conns) {newsd : Int}
    (opened : ¬ newsd < 0) (memory : Option α) (queue : Vector UInt8 512) {p : α}
    (given : v.host.malloc memory = some p) :
    Minded ctx addr sent start { v with
      host := v.host.rxEvent newsd memory queue
      number := Function.update v.number p v.visits
      visits := v.visits + 1 } (conns ++ [p]) := by
  have free : p ∉ v.host.heap := by
    have allowed := (Option.filter_eq_some_iff.mp given).2
    simpa using allowed
  have new : p ∉ conns := fun member => free (minded.tended.heap.mem_iff.mpr member)
  have differ (q : α) (member : q ∈ conns) : q ≠ p := fun same => new (same ▸ member)
  have tended := minded.tended.rxEvent newsd memory queue
  rw [if_neg opened, given, Option.toList_some] at tended
  have found := rxEvent_admitted opened queue given
  have unborn := minded.unborn v.visits (Nat.le_refl _)
  refine ⟨tended, ?_, update_early minded.early new, update_apart minded.early minded.apart new,
    fun n later => minded.unborn n (Nat.le_of_succ_le later), fun q member => ?_,
    fun q member => ?_, ?_, ?_⟩
  · rw [rxEvent_server]
    exact minded.listening
  · dsimp only
    rw [found]
    rcases List.mem_append.mp member with old | last
    · dsimp only
      rw [update_known new old, Function.update_of_ne (differ q old)]
      exact minded.tracks q old
    · obtain rfl := List.mem_singleton.mp last
      dsimp only
      rw [Function.update_self, Function.update_self, unborn.1]
      exact ⟨at_zero (fun adu => adu.bytes_ne_nil) _ (held_init _), rfl⟩
  · dsimp only
    rw [found]
    rcases List.mem_append.mp member with old | last
    · dsimp only
      rw [update_known new old, Function.update_of_ne (differ q old)]
      exact minded.replies q old
    · obtain rfl := List.mem_singleton.mp last
      dsimp only
      rw [Function.update_self, Function.update_self, unborn.2]
      rfl
  · dsimp only
    rw [found]
    exact minded.address
  · have service : ({ v with
        host := v.host.rxEvent newsd memory queue
        number := Function.update v.number p v.visits
        visits := v.visits + 1 } : Visited α σ).service = v.service := by
      simp only [Visited.service, found]
    rw [service]
    exact minded.serves

/-- A chunk of a connection serves the requests it completes, and the other connections are left
alone. -/
theorem Tended.hears {host : SlaveHost α σ} (tended : Tended [] host conns) {p : α}
    (member : p ∈ conns) {requests : List Adu} {count : Nat}
    (tracks : Tracks requests count (host.tcp.conns p)) {bytes : List UInt8}
    (next : bytes <+: (requests.flatMap fun adu => adu.bytes).drop count) (written : WriteResult) :
    ∃ after, host.ready ctx p .rx (.data bytes) written acceptAll = some after ∧
      Tended [] after conns ∧ after.server = host.server ∧
      after.tcp.slave.myAddress = host.tcp.slave.myAddress ∧
      Tracks requests (count + bytes.length) (after.tcp.conns p) ∧
      (∀ q, q ≠ p → after.tcp.conns q = host.tcp.conns q) ∧
      Emits (Serves ctx host.tcp.slave.myAddress)
        ((between (fun adu : Adu => adu.bytes) requests count (count + bytes.length)).map
          (Prod.mk p)) host.tcp.service after.tcp.service := by
  let conn := host.tcp.conns p
  let stream := { conn.stream with rxData := bytes }
  let seen := host.withStream p stream []
  have filled : Attached (host.fd p) stream := (tended.attached p member).of_same rfl
  have updated : Tended [] seen conns := tended.withStream member filled []
  have here : seen.tcp.conns p =
      { conn with stream := stream, sent := conn.sent ++ [] } := Function.update_self ..
  have others (q : α) (differ : q ≠ p) : seen.tcp.conns q = host.tcp.conns q :=
    Function.update_of_ne differ _ _
  have tracked : Tracks requests count (seen.tcp.conns p) := by
    rw [here]
    exact ⟨tracks.reader, tracks.direct⟩
  rcases chunk_serves ctx tracked next with ⟨served, run, address, after, kept, emits⟩
  rcases tcpServerRx_attached ctx acceptAll (updated.attached p member) (updated.reader p member)
    bytes with ⟨served', run', -, attached', reader'⟩
  obtain rfl := Option.some.inj (run.symm.trans run')
  have service : seen.tcp.service = host.tcp.service := by
    have answered (q : α) : (seen.tcp.conns q).sent = (host.tcp.conns q).sent := by
      by_cases same : q = p
      · rw [same, here]
        exact List.append_nil _
      · rw [others q same]
    exact congrArg (Service.mk _ _) (funext answered)
  rw [service] at emits
  refine ⟨{ seen with tcp := served }, ?_, updated.update kept member attached' reader', rfl,
    address, after, fun q differ => (kept q differ).trans (others q differ), emits⟩
  have rxData : (seen.tcp.conns p).stream.rxData = bytes := by rw [here]
  change SlaveHost.handleStreamEvent ctx acceptAll seen p .rx = _
  rw [SlaveHost.handleStreamEvent, rxData, run]
  rfl

theorem Minded.hear (minded : Minded ctx addr sent start v conns) {p : α} (member : p ∈ conns)
    {bytes : List UInt8} (written : WriteResult)
    (within : receivedOn (v.number p) v.received ++ bytes <+:
      (sent (v.number p)).flatMap fun adu => adu.bytes) :
    ∃ host, v.host.ready ctx p .rx (.data bytes) written acceptAll = some host ∧
      Minded ctx addr sent start { v with
        host := host
        received := v.received ++ [(v.number p, bytes)]
        answered := Function.update v.answered (v.number p) (host.tcp.conns p).sent } conns := by
  have next : bytes <+: ((sent (v.number p)).flatMap fun adu => adu.bytes).drop
      (receivedOn (v.number p) v.received).length := by
    rcases within with ⟨later, stream⟩
    rw [← stream, List.append_assoc, List.drop_left]
    exact List.prefix_append bytes later
  rcases minded.tended.hears member (minded.tracks p member) next written with
    ⟨host, run, tended, server, address, tracked, others, emits⟩
  have elsewhere (q : α) (other : q ∈ conns) (differ : q ≠ p) : v.number q ≠ v.number p :=
    fun same => differ (minded.apart q other p member same)
  refine ⟨host, run, tended, ?_, minded.early, minded.apart, fun n later => ?_,
    fun q other => ?_, fun q other => ?_, address.trans minded.address, ?_⟩
  · dsimp only
    rw [server]
    exact minded.listening
  · have differ : v.number p ≠ n := ne_of_lt (Nat.lt_of_lt_of_le (minded.early p member) later)
    dsimp only
    rw [receivedOn_snoc, if_neg differ, List.append_nil, Function.update_of_ne differ.symm]
    exact minded.unborn n later
  · dsimp only
    rw [receivedOn_snoc]
    by_cases same : q = p
    · rw [same, if_pos rfl, List.length_append]
      exact tracked
    · rw [if_neg (elsewhere q other same).symm, List.append_nil, others q same]
      exact minded.tracks q other
  · dsimp only
    by_cases same : q = p
    · rw [same, Function.update_self]
    · rw [Function.update_of_ne (elsewhere q other same), others q same]
      exact minded.replies q other
  · rw [arrivals_snoc, Nat.zero_add]
    apply minded.serves.append
    have visit := serves_as_visit (n := v.number p) v.answered emits
    have before : Function.update v.answered (v.number p) (v.host.tcp.service.answered p) =
        v.answered := by
      rw [show v.host.tcp.service.answered p = v.answered (v.number p) from minded.replies p member,
        Function.update_eq_self]
    rw [before, minded.address] at visit
    exact visit

/-- The bytes of each visit are those of its requests, as far as they have come. -/
def Within (sent : Nat → List Adu) (received : List (Nat × List UInt8)) : Prop :=
  ∀ n, receivedOn n received <+: (sent n).flatMap fun adu => adu.bytes

theorem Within.of_append {received later : List (Nat × List UInt8)}
    (within : Within sent (received ++ later)) : Within sent received := by
  intro n
  have longer := within n
  rw [receivedOn, List.filter_append, List.flatMap_append] at longer
  exact (List.prefix_append _ _).trans longer

theorem Minded.ready (minded : Minded ctx addr sent start v conns) {p : α}
    {event : WatcherEvent} {read : ReadResult} {written : WriteResult}
    (active : evIo (v.host.tcp.conns p).stream.watcher (reportedBy event) = true) :
    ∃ next, v.step ctx (.ready p event read written acceptAll) = some next ∧
      (Within sent next.received → ∃ conns', Minded ctx addr sent start next conns') := by
  rcases minded.tended.reported active with ⟨member, waited⟩
  have called : v.host.step ctx (.ready p event read written acceptAll) =
      v.host.ready ctx p event read written acceptAll := if_pos active
  have leaves (run : v.host.ready ctx p event read written acceptAll =
      some ((v.host.withStream p (v.host.tcp.conns p).stream []).deallocConn p))
      (deaf : v.hears (.ready p event read written acceptAll) = none) :
      ∃ next, v.step ctx (.ready p event read written acceptAll) = some next ∧
        (Within sent next.received → ∃ conns', Minded ctx addr sent start next conns') :=
    ⟨_, step_quiet rfl deaf (called.trans run), fun _ => minded.leave member⟩
  cases event with
  | rx =>
      cases read with
      | data bytes =>
          have heard : v.hears (.ready p .rx (.data bytes) written acceptAll) = some (p, bytes) :=
            if_pos active
          rcases minded.tended.ready member ctx waited (.data bytes) written acceptAll with
            ⟨host, _, run, -, -⟩
          refine ⟨{ v with
            host := host
            received := v.received ++ [(v.number p, bytes)]
            answered := Function.update v.answered (v.number p) (host.tcp.conns p).sent }, ?_,
            fun within => ?_⟩
          · rw [Visited.step, called, run, heard]
            rfl
          · have here := within (v.number p)
            dsimp only at here
            rw [receivedOn_snoc, if_pos rfl] at here
            rcases minded.hear member written here with ⟨host', run', after⟩
            obtain rfl := Option.some.inj (run.symm.trans run')
            exact ⟨conns, after⟩
      | eof => exact leaves rfl rfl
      | error => exact leaves rfl rfl
  | tx => exact absurd rfl waited
  | error => exact leaves rfl rfl

theorem Minded.step (minded : Minded ctx addr sent start v conns) (takes : event.TakesAll) :
    ∃ next, v.step ctx event = some next ∧
      (Within sent next.received → ∃ conns', Minded ctx addr sent start next conns') := by
  rcases minded.listening with ⟨sd, listening⟩
  cases event with
  | start =>
      refine ⟨_, step_quiet rfl rfl rfl, fun _ => ⟨conns, ?_⟩⟩
      exact minded.keep (minded.tended.start listening) ⟨sd, listening.start⟩ (fun _ inside => inside)
        (fun _ _ => sameConn_of_eq rfl) rfl
  | stop =>
      rcases minded.tended.stop listening with ⟨last, run, empty, stopped, -⟩
      have slave : last.tcp.slave = v.host.tcp.slave := by
        rw [SlaveHost.stop] at run
        have kept := deallocAll_slave run
        exact kept
      refine ⟨_, step_quiet rfl rfl run, fun _ => ⟨[], ?_⟩⟩
      exact minded.keep empty ⟨sd, stopped⟩ (by simp) (by simp) slave
  | incoming newsd memory queue =>
      by_cases active : evIo v.host.server.watcher .rx = true
      · have called : v.host.step ctx (.incoming newsd memory queue) =
            some (v.host.rxEvent newsd memory queue) := congrArg some (if_pos active)
        have tended := minded.tended.rxEvent newsd memory queue
        by_cases refused : newsd < 0 ∨ v.host.malloc memory = none
        · have closed : v.admits (.incoming newsd memory queue) = none := by
            rw [Visited.admits]
            split_ifs with opened
            · exact refused.resolve_left opened.2
            · rfl
          have nobody : (conns ++ if newsd < 0 then [] else (v.host.malloc memory).toList) =
              conns := by
            split_ifs with failed
            · exact List.append_nil conns
            · rw [refused.resolve_left failed]
              exact List.append_nil conns
          have same := rxEvent_refused queue refused
          rw [nobody] at tended
          refine ⟨_, step_quiet closed rfl called, fun _ => ⟨conns, ?_⟩⟩
          apply minded.keep tended
          · rw [rxEvent_server]
            exact minded.listening
          · exact fun _ inside => inside
          · exact fun q _ => sameConn_of_eq (by rw [same])
          · rw [same]
        · rw [not_or] at refused
          rcases Option.ne_none_iff_exists'.mp refused.2 with ⟨p, given⟩
          have admitted : v.admits (.incoming newsd memory queue) = some p := by
            rw [Visited.admits, if_pos ⟨active, refused.1⟩, given]
          have entered := minded.enter refused.1 memory queue given
          refine ⟨_, ?_, fun _ => ⟨_, entered⟩⟩
          rw [Visited.step, called, admitted]
          simp [Visited.hears]
      · have called : v.host.step ctx (.incoming newsd memory queue) = some v.host :=
          congrArg some (if_neg active)
        have closed : v.admits (.incoming newsd memory queue) = none :=
          if_neg fun opened => active opened.1
        exact ⟨_, step_quiet closed rfl called, fun _ => ⟨conns, minded⟩⟩
  | ready p event read written kernel =>
      obtain rfl : kernel = acceptAll := takes
      by_cases active : evIo (v.host.tcp.conns p).stream.watcher (reportedBy event) = true
      · exact minded.ready active
      · have called : v.host.step ctx (.ready p event read written acceptAll) = some v.host :=
          if_neg active
        have deaf : v.hears (.ready p event read written acceptAll) = none := by
          cases event with
          | rx => cases read <;> first | exact if_neg active | rfl
          | tx => rfl
          | error => rfl
        exact ⟨_, step_quiet rfl deaf called, fun _ => ⟨conns, minded⟩⟩

end Steps

variable {kernel : ListenKernel} {listener : TcpListener} {memory : α → TcpConnection}

theorem minded_start (ctx : ModbusSlaveCTX σ) (addr : UInt8) (sent : Nat → List Adu) (store : σ)
    (opened : (tcpServerIpv4Init kernel listener).1 = 0) (unwatched : Unwatched memory)
    (links : Links (Option α)) :
    Minded ctx addr sent ⟨store, [], fun _ => []⟩
      (visited (slaveHost addr store kernel listener memory links)) [] where
  tended := tended_start addr store opened unwatched links
  listening := ⟨kernel.socket, listening_start addr store opened links⟩
  early := by simp
  apart := by simp
  unborn n _ := ⟨rfl, rfl⟩
  tracks := by simp
  replies := by simp
  address := rfl
  serves := .nil _

theorem visited_run {ctx : ModbusSlaveCTX σ} {events : List (HostEvent α)} {v : Visited α σ}
    {last : SlaveHost α σ} (run : events.foldlM (SlaveHost.step ctx) v.host = some last) :
    ∃ final, events.foldlM (Visited.step ctx) v = some final ∧ final.host = last := by
  induction events generalizing v with
  | nil => exact ⟨v, rfl, Option.some.inj run⟩
  | cons event events ih =>
      rcases Run.foldlM_cons_some run with ⟨host, taken, rest⟩
      have step : ∃ next, v.step ctx event = some next ∧ next.host = host := by
        rw [Visited.step, taken]
        exact ⟨_, rfl, rfl⟩
      rcases step with ⟨next, moved, rfl⟩
      rcases ih rest with ⟨final, ran, same⟩
      refine ⟨final, ?_, same⟩
      rw [List.foldlM_cons, moved]
      exact ran

theorem visits_minded {ctx : ModbusSlaveCTX σ} {addr : UInt8} {sent : Nat → List Adu} {store : σ}
    (opened : (tcpServerIpv4Init kernel listener).1 = 0) (unwatched : Unwatched memory)
    {links : Links (Option α)} {events : List (HostEvent α)}
    (takes : ∀ event ∈ events, event.TakesAll) {final : Visited α σ}
    (run : events.foldlM (Visited.step ctx)
      (visited (slaveHost addr store kernel listener memory links)) = some final)
    (within : Within sent final.received) :
    ∃ conns, Minded ctx addr sent ⟨store, [], fun _ => []⟩ final conns := by
  induction events using List.reverseRecOn generalizing final with
  | nil =>
      obtain rfl := Option.some.inj run
      exact ⟨[], minded_start ctx addr sent store opened unwatched links⟩
  | append_singleton events event ih =>
      rw [List.forall_mem_append] at takes
      rcases Run.foldlM_append_some run with ⟨v, before, last⟩
      rcases Run.foldlM_cons_some last with ⟨next, taken, same⟩
      obtain rfl := Option.some.inj same
      have earlier : Within sent v.received := by
        rw [Visited.step] at taken
        rcases Option.map_eq_some_iff.mp taken with ⟨host, -, rfl⟩
        exact within.of_append
      rcases ih takes.1 before earlier with ⟨conns, minded⟩
      rcases minded.step (takes.2 event List.mem_cons_self) with ⟨next, taken', kept⟩
      obtain rfl := Option.some.inj (taken.symm.trans taken')
      exact kept within

/-- The requests of `visits`. -/
def visitors : Nat → List Adu
  | 1 => [⟨⟨1, 0, 17, [3, 0, 5, 0, 2], by decide⟩, by decide, by decide⟩]
  | _ => []

end KongjaExpress.Modbus
