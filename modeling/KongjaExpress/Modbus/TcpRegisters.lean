import KongjaExpress.Library.AtomicObject
import KongjaExpress.Modbus.MbapRoundTrip
import KongjaExpress.Modbus.RegisterBank
import KongjaExpress.Modbus.ReplyAcceptance
import KongjaExpress.Modbus.TcpServer

/-! Masters that share the registers of one slave, each on its own connection. Requests and
replies are cut into chunks anywhere, and those of different masters overlap. -/

namespace KongjaExpress.Modbus

open AtomicObject Framing Memory Transport Utils

variable {ι σ : Type}

def FrameVerdict.notice (mbap : MbapReader) : FrameVerdict → Option Notice
  | .handled (some call) => some ⟨call, call.data (pduArea mbap.frame)⟩
  | _ => none

/-- A master with the bytes on their way to the slave and back, the calls its application has made
and the replies that have arrived. -/
structure RegisterClient where
  master : ModbusTCPMaster
  up : List UInt8
  down : List UInt8
  calls : Nat
  replies : Nat

structure RegisterLink (ι σ : Type) where
  clients : ι → RegisterClient
  server : TcpServer ι σ
  trace : List (Visible ι MasterCall (Option Notice))

def noteFrame (master : ModbusTCPMaster) (mbap : MbapReader) (notes : List (Option Notice)) :
    MbapReader × List (Option Notice) :=
  (mbap, notes ++ [(modbusTcpMasterGotFrame master mbap).notice mbap])

inductive RegisterEvent (ι : Type)
  | call (client : ι) (call : MasterCall)
  /-- So many bytes come to the slave. -/
  | request (client : ι) (count : Nat)
  /-- So many bytes come back to the master. -/
  | response (client : ι) (count : Nat)

variable [DecidableEq ι]

/-- An application makes its next call when the last one was answered. -/
def registerStep (ctx : ModbusSlaveCTX σ) (link : RegisterLink ι σ) :
    RegisterEvent ι → Option (RegisterLink ι σ)
  | .call i call =>
      let client := link.clients i
      if client.calls = client.replies then
        (modbusTcpMasterCall acceptAll client.master call).map fun sent =>
          { link with
            clients := Function.update link.clients i { client with
              master := sent.1
              up := client.up ++ sent.2.getD []
              calls := client.calls + 1 }
            trace := link.trace ++ [.called i call] }
      else some link
  | .request i count =>
      let client := link.clients i
      (tcpServerRx ctx acceptAll link.server (i, client.up.take count)).map fun server =>
        { link with
          clients := Function.update link.clients i { client with
            up := client.up.drop count
            down := client.down ++ (server.conns i).sent.drop (link.server.conns i).sent.length }
          server := server }
  | .response i count =>
      let client := link.clients i
      (mbapReaderFeed (noteFrame client.master) (client.master.mbapReader, [])
          (client.down.take count)).map fun fed =>
        { link with
          clients := Function.update link.clients i { client with
            master := { client.master with mbapReader := fed.1 }
            down := client.down.drop count
            replies := client.replies + fed.2.length }
          trace := link.trace ++ fed.2.map (.returned i) }

/-! One call. -/

structure MasterOpen (master : ModbusTCPMaster) (count : Nat) : Prop where
  offset : master.ctx.pduOffset = 7
  connected : master.tcpState = .connected
  idle : ∃ stream, master.stream = some stream ∧ circBufferIsEmpty stream.txBuf = true
  tid : master.tid.toNat = count

structure Pending (call : MasterCall) (master : ModbusTCPMaster) (request : Adu) : Prop where
  uid : request.uid = call.slave
  pdu : request.pdu = call.pdu
  tid : (master.tid.toNat : Int) - 1 = request.tid.toNat
  pid : master.pid = request.pid
  saved : ∃ ctx, ctx.pduOffset = 7 ∧ SameRequest (call.begin ctx) master.ctx

theorem call_sends {master : ModbusTCPMaster} {count : Nat} (opened : MasterOpen master count)
    (few : count + 1 < 65536) {call : MasterCall} (short : call.pdu.length ≤ 253) :
    ∃ next request, modbusTcpMasterCall acceptAll master call = some (next, some request.bytes) ∧
      MasterOpen next (count + 1) ∧ Pending call next request ∧
      next.mbapReader = master.mbapReader := by
  rcases opened.idle with ⟨stream, present, empty⟩
  have offset : master.ctx.pduOffset.toNat = 7 := by
    rw [opened.offset]
    rfl
  have room : master.ctx.pduOffset.toNat + call.pdu.length ≤ 512 := by omega
  rcases MasterCall.run_encoded
    (fun ctx slave => modbusTcpMasterRequest acceptAll { master with ctx := ctx } slave) room
    with ⟨ctx, encoded, ran⟩
  rcases @request_accepted { master with ctx := ctx } stream opened.connected present empty
    call.slave with ⟨next, tx, sent, kept, connected, idle, reader, pid⟩
  have ndx : ctx.txNdx.toNat = 7 + call.pdu.length := by
    rw [encoded.ndx, offset]
  rcases request_adu (Nat.le_trans (by decide) call.pdu_long) short ndx sent with
    ⟨request, rfl, tid, same, uid, pdu⟩
  rcases request_cases sent with ⟨-, -, none⟩ | ⟨-, -, saved, counted, -⟩
  · contradiction
  have advanced : next.tid.toNat = count + 1 := by
    rw [counted, UInt16.toNat_add]
    change (master.tid.toNat + 1) % 65536 = _
    rw [opened.tid]
    exact Nat.mod_eq_of_lt few
  refine ⟨next, request, ?_, ⟨?_, connected, ⟨stream, idle, empty⟩, advanced⟩,
    ⟨uid, ?_, ?_, pid.trans same.symm, ⟨master.ctx, opened.offset, ?_⟩⟩, reader⟩
  · rw [modbusTcpMasterCall, ran, sent]
  · exact (kept.trans encoded.saved.2.2.2.2).trans opened.offset
  · have held := encoded.pdu
    rw [offset] at held
    exact pdu.trans held
  · rw [advanced, tid]
    change ((count + 1 : Nat) : Int) - 1 = (master.tid.toNat : Int)
    rw [opened.tid]
    omega
  · rw [saved]
    have kept := encoded.same
    exact ⟨kept.pduOffset, kept.reqFunc, kept.reqSlave, kept.reqRegAddr, kept.reqNb, kept.reqValue⟩

theorem noticed_same {k : Nat} {ctx ctx' : ModbusMasterCTX} (same : SameRequest ctx ctx')
    (slave : UInt8) (pdu : Vector UInt8 (253 + k)) (len : Int) :
    noticed ctx' slave pdu len = noticed ctx slave pdu len := by
  simp only [noticed, modbusRtuHandlerResponseRx, modbusRtuValidateResponse, responseCallback,
    same.reqFunc, same.reqRegAddr, same.reqNb, same.reqValue]

theorem gotFrame_notice {master : ModbusTCPMaster} {mbap : MbapReader}
    (tid : (master.tid.toNat : Int) - 1 = mbap.tid.toNat) (pid : master.pid = mbap.pid) :
    (modbusTcpMasterGotFrame master mbap).notice mbap =
      noticed master.ctx mbap.uid (pduArea mbap.frame) ((mbap.length.toNat : Int) - 1) := by
  rw [modbusTcpMasterGotFrame, if_neg (not_not.mpr tid), if_neg (not_not.mpr pid), noticed]
  cases modbusRtuHandlerResponseRx master.ctx mbap.uid (pduArea mbap.frame)
    ((mbap.length.toNat : Int) - 1) <;> rfl

/-- The slave serves a request, and its response will be told of as the bank says. -/
theorem request_served {ctx : ModbusSlaveCTX σ} {bank : Bank σ} (serving : Serving ctx bank)
    {call : MasterCall} (proper : call.Proper) (unicast : call.slave ≠ 0)
    {master : ModbusTCPMaster} {request : Adu} (pending : Pending call master request)
    {i : ι} {s t : Service ι σ} (served : Serves ctx call.slave (i, request) s t) :
    t.store = (bank.serve call s.store).1 ∧ ∃ response : Adu,
      t.answered = Function.update s.answered i (s.answered i ++ response.bytes) ∧
      ∀ mbap, Carries response.toRawAdu mbap →
        (modbusTcpMasterGotFrame master mbap).notice mbap = (bank.serve call s.store).2 := by
  cases served with
  | ignored _ foreign _ => exact absurd pending.uid foreign
  | broadcast _ _ broadcast => exact absurd (pending.uid.symm.trans broadcast) unicast
  | @answered _ _ _ pdu r response addressed _ holds handled tid pid uid payload =>
      rcases pending.saved with ⟨ctx₀, offset, saved⟩
      have short : ctx₀.pduOffset.toNat + call.pdu.length ≤ 512 := by
        have := request.short
        rw [pending.pdu] at this
        rw [offset]
        exact Nat.le_trans (Nat.add_le_add_left this 7) (by decide)
      rcases MasterCall.prepare_encoded short with ⟨prepared, ran, encoded⟩
      have asked : Asked call ctx₀ prepared pdu := by
        refine ⟨ran, ?_⟩
        rw [txPdu_of_encoded encoded, ← pending.pdu]
        exact holds
      have answer : slaveAnswer ctx call prepared pdu s.store = r := by
        rw [handled, slaveAnswer, txPdu_of_encoded encoded, ← pending.pdu, ← pending.uid]
      have exchanged := exchange_serves serving s.store proper asked answer
      refine ⟨exchanged.1, response, rfl, fun mbap carries => ?_⟩
      have requestLength : PduLength (.ofNat request.pdu.length) := by
        rw [PduLength, request.pdu_length_toNat]
        exact ⟨request.nonempty, request.short⟩
      have size : response.pdu.length = r.rspLen.toNat := by
        have bound := (requestRx_rspLen ctx request.uid requestLength pdu s.store).2
        rw [← handled] at bound
        rw [payload, front_length _ (by omega)]
      have replied : Replied r (pduArea mbap.frame) := by
        calc
          front (pduArea mbap.frame) r.rspLen.toNat =
              front (pduArea mbap.frame) response.pdu.length := by rw [size]
          _ = response.pdu := carries.parts.2
          _ = front r.pdu r.rspLen.toNat := payload
      have length : (mbap.length.toNat : Int) - 1 = r.rspLen.toNat := by
        rw [carries.length, response.length_toNat, size]
        omega
      have sameTid : (master.tid.toNat : Int) - 1 = mbap.tid.toNat := by
        rw [carries.tid, tid]
        exact pending.tid
      have samePid : master.pid = mbap.pid := by
        rw [carries.pid, pid]
        exact pending.pid
      rw [gotFrame_notice sameTid samePid, carries.uid, uid, pending.uid, length,
        noticed_same saved, ← noticed_same encoded.same]
      exact exchanged.2 (pduArea mbap.frame) replied

/-! Where the call of a client has got to. -/

/-- How far the bytes of a client have come, for each phase of its call. -/
inductive CallStage (addr : UInt8) (client : RegisterClient) (conn : TcpConnection) :
    Phase MasterCall (Option Notice) → Prop
  | idle (up : client.up = []) (down : client.down = []) (answered : client.calls = client.replies)
      (slave : Held [] conn.mbapReader) (reader : Held [] client.master.mbapReader) :
      CallStage addr client conn .idle
  | called {call : MasterCall} {request : Adu} (count : Nat) (proper : call.Proper)
      (addressed : call.slave = addr) (pending : Pending call client.master request)
      (early : count < request.bytes.length) (up : client.up = request.bytes.drop count)
      (down : client.down = []) (waiting : client.calls = client.replies + 1)
      (slave : At (fun adu : Adu => adu.bytes) Held [request] count conn.mbapReader)
      (reader : Held [] client.master.mbapReader) : CallStage addr client conn (.called call)
  | done {notice : Option Notice} {response : Adu} (count : Nat)
      (told : ∀ mbap, Carries response.toRawAdu mbap →
        (modbusTcpMasterGotFrame client.master mbap).notice mbap = notice)
      (early : count < response.bytes.length) (up : client.up = [])
      (down : client.down = response.bytes.drop count) (waiting : client.calls = client.replies + 1)
      (slave : Held [] conn.mbapReader)
      (reader : At (fun adu : Adu => adu.bytes) Held [response] count client.master.mbapReader) :
      CallStage addr client conn (.done notice)

def RegisterEvent.Legal (addr : UInt8) : RegisterEvent ι → Prop
  | .call _ asked => asked.Proper ∧ asked.slave = addr
  | _ => True

def callsBy (i : ι) (events : List (RegisterEvent ι)) : Nat :=
  events.countP fun
    | .call j _ => decide (j = i)
    | _ => false

structure Served (addr : UInt8) (events : List (RegisterEvent ι)) (link : RegisterLink ι σ)
    (system : System ι σ MasterCall (Option Notice)) : Prop where
  legal : ∀ event ∈ events, event.Legal addr
  few : ∀ i, (link.clients i).calls + callsBy i events < 65536
  opened : ∀ i, MasterOpen (link.clients i).master (link.clients i).calls
  stage : ∀ i, CallStage addr (link.clients i) (link.server.conns i) (system.phase i)
  direct : ∀ i, circBufferIsEmpty (link.server.conns i).stream.txBuf = true
  address : link.server.slave.myAddress = addr
  store : link.server.slave.store = system.store
  trace : link.trace = system.trace

theorem proper_short {call : MasterCall} (proper : call.Proper) : call.pdu.length ≤ 253 := by
  rw [call.pdu_length]
  cases call with
  | writeMultipleCoils slave regAddr nb values =>
      have small : nb.toNat ≤ 0x07B0 := by
        rcases proper with ⟨_, reads, _⟩ | writes
        · cases reads
        · exact writes.2
      dsimp only
      omega
  | writeMultipleRegisters slave regAddr nb values =>
      have small : nb.toNat ≤ 0x0078 := by
        rcases proper with ⟨_, reads, _⟩ | writes
        · cases reads
        · exact writes.2
      dsimp only
      omega
  | writeAndReadRegisters slave writeAddr nbWrite values readAddr nbRead =>
      rcases proper with ⟨_, reads, _⟩ | writes
      · cases reads
      · exact writes.elim
  | _ => exact Nat.le_add_right 5 248

section Steps

variable {ctx : ModbusSlaveCTX σ} {bank : Bank σ} {addr : UInt8}
  {event : RegisterEvent ι} {events : List (RegisterEvent ι)} {link : RegisterLink ι σ}
  {system : System ι σ MasterCall (Option Notice)}

theorem Served.skip (served : Served addr (event :: events) link system) :
    Served addr events link system where
  legal other member := served.legal other (List.mem_cons_of_mem event member)
  few i := by
    have few := served.few i
    rw [callsBy, List.countP_cons] at few
    exact Nat.lt_of_le_of_lt (Nat.le_add_right _ _) (by rwa [← Nat.add_assoc] at few)
  opened := served.opened
  stage := served.stage
  direct := served.direct
  address := served.address
  store := served.store
  trace := served.trace

/-- One client moves on; what the others see stays. -/
theorem Served.move (served : Served addr events link system) (i : ι) (client : RegisterClient)
    (server : TcpServer ι σ) (phase : Phase MasterCall (Option Notice)) {store : σ}
    {trace trace' : List (Visible ι MasterCall (Option Notice))}
    (few : client.calls + callsBy i events < 65536)
    (opened : MasterOpen client.master client.calls)
    (stage : CallStage addr client (server.conns i) phase)
    (others : ∀ j, j ≠ i → server.conns j = link.server.conns j)
    (direct : circBufferIsEmpty (server.conns i).stream.txBuf = true)
    (address : server.slave.myAddress = addr) (stored : server.slave.store = store)
    (same : trace = trace') :
    Served addr events ⟨Function.update link.clients i client, server, trace⟩
      ⟨store, Function.update system.phase i phase, trace'⟩ where
  legal := served.legal
  few j := by
    by_cases here : j = i
    · subst here
      simpa using few
    · simpa [here] using served.few j
  opened j := by
    by_cases here : j = i
    · subst here
      simpa using opened
    · simpa [here] using served.opened j
  stage j := by
    by_cases here : j = i
    · subst here
      simpa using stage
    · simpa [here, others j here] using served.stage j
  direct j := by
    by_cases here : j = i
    · subst here
      exact direct
    · rw [others j here]
      exact served.direct j
  address := address
  store := stored
  trace := same

theorem callsBy_cons_self (i : ι) (call : MasterCall) (events : List (RegisterEvent ι)) :
    callsBy i (.call i call :: events) = callsBy i events + 1 := by
  simp [callsBy]

theorem call_step {i : ι} {call : MasterCall}
    (served : Served addr (.call i call :: events) link system) :
    ∃ next system', registerStep ctx link (.call i call) = some next ∧
      Reaches bank.serve system system' ∧ Served addr events next system' := by
  by_cases ready : (link.clients i).calls = (link.clients i).replies
  · have few := served.few i
    rw [callsBy_cons_self] at few
    rcases served.legal _ List.mem_cons_self with ⟨proper, addressed⟩
    have stage := served.stage i
    generalize known : system.phase i = phase at stage
    cases stage with
    | idle up down _ slave reader =>
        rcases call_sends (served.opened i) (by omega) (proper_short proper) with
          ⟨master, request, sent, opened, pending, kept⟩
        refine ⟨_, _, ?_, .single (.call call known), served.skip.move i { link.clients i with
            master := master
            up := (link.clients i).up ++ request.bytes
            calls := (link.clients i).calls + 1 } link.server (.called call) ?_ opened ?_
          (fun _ _ => rfl) (served.direct i) served.address served.store
          (congrArg (· ++ [.called i call]) served.trace)⟩
        · rw [registerStep]
          dsimp only
          rw [if_pos ready, sent]
          rfl
        · dsimp only
          omega
        · refine .called 0 proper addressed pending
            (List.length_pos_iff.mpr request.bytes_ne_nil) ?_ down ?_ ?_ ?_
          · simp [up]
          · exact congrArg (· + 1) ready
          · exact at_zero (fun adu => adu.bytes_ne_nil) [request] slave
          · rw [kept]
            exact reader
    | called count _ _ _ _ _ _ waiting => omega
    | done count _ _ _ _ waiting => omega
  · refine ⟨link, system, ?_, .refl, served.skip⟩
    rw [registerStep, if_neg ready]

theorem tcpServerRx_nil (server : TcpServer ι σ) (i : ι) :
    tcpServerRx ctx acceptAll server (i, []) = some server := by
  rw [tcpServerRx]
  simp [mbapReaderFeed]

theorem request_quiet {i : ι} {count : Nat} (up : (link.clients i).up = []) :
    registerStep ctx link (.request i count) = some link := by
  have none : (link.clients i).up.take count = [] := by rw [up, List.take_nil]
  have same : { link.clients i with
      up := (link.clients i).up.drop count
      down := (link.clients i).down ++
        (link.server.conns i).sent.drop (link.server.conns i).sent.length } =
      link.clients i := by
    rw [up, List.drop_nil, List.drop_length, List.append_nil, ← up]
  rw [registerStep]
  rw [none, tcpServerRx_nil, Option.map_some, same, Function.update_eq_self]

theorem response_quiet {i : ι} {count : Nat} (down : (link.clients i).down = []) :
    registerStep ctx link (.response i count) = some link := by
  have none : (link.clients i).down.take count = [] := by rw [down, List.take_nil]
  have same : { link.clients i with
      down := (link.clients i).down.drop count } = link.clients i := by
    rw [down, List.drop_nil, ← down]
  rw [registerStep, none, mbapReaderFeed, List.foldlM_nil]
  simp only [Option.pure_def, Option.map_some, List.length_nil, Nat.add_zero, List.map_nil,
    List.append_nil, same, Function.update_eq_self]

def RegisterLink.requested (link : RegisterLink ι σ) (i : ι) (count : Nat)
    (server : TcpServer ι σ) : RegisterLink ι σ :=
  { link with
    clients := Function.update link.clients i { link.clients i with
      up := (link.clients i).up.drop count
      down := (link.clients i).down ++
        (server.conns i).sent.drop (link.server.conns i).sent.length }
    server := server }

def RegisterLink.responded (link : RegisterLink ι σ) (i : ι) (count : Nat) (mbap : MbapReader)
    (notes : List (Option Notice)) : RegisterLink ι σ :=
  { link with
    clients := Function.update link.clients i { link.clients i with
      master := { (link.clients i).master with mbapReader := mbap }
      down := (link.clients i).down.drop count
      replies := (link.clients i).replies + notes.length }
    trace := link.trace ++ notes.map (.returned i) }

theorem request_arrives (ctx : ModbusSlaveCTX σ) {i : ι} {request : Adu} {taken : Nat} (count : Nat)
    (tracks : Tracks [request] taken (link.server.conns i)) (early : taken < request.bytes.length)
    (up : (link.clients i).up = request.bytes.drop taken) :
    ∃ server, registerStep ctx link (.request i count) = some (link.requested i count server) ∧
      server.slave.myAddress = link.server.slave.myAddress ∧
      (∀ j, j ≠ i → server.conns j = link.server.conns j) ∧
      (request.bytes.length ≤ taken + count ∧
          Tracks [request] request.bytes.length (server.conns i) ∧
          Serves ctx link.server.slave.myAddress (i, request) link.server.service server.service ∨
        taken + count < request.bytes.length ∧ Tracks [request] (taken + count) (server.conns i) ∧
          server.service = link.server.service) := by
  have within : (link.clients i).up.take count <+:
      ([request].flatMap fun adu => adu.bytes).drop taken := by
    rw [up, List.flatMap_singleton]
    exact List.take_prefix _ _
  rcases chunk_serves ctx tracks within with ⟨server, run, address, tracked, others, emits⟩
  have length : ((link.clients i).up.take count).length =
      min count (request.bytes.length - taken) := by
    rw [up, List.length_take, List.length_drop]
  rw [between_single request early, length] at emits
  rw [length] at tracked
  refine ⟨server, ?_, address, others, ?_⟩
  · rw [registerStep, run]
    rfl
  · by_cases last : request.bytes.length ≤ taken + count
    · have whole : taken + min count (request.bytes.length - taken) = request.bytes.length := by
        omega
      rw [whole, if_pos (Nat.le_refl _)] at emits
      rw [whole] at tracked
      cases emits with
      | cons first rest => exact Or.inl ⟨last, tracked, rest.of_nil ▸ first⟩
    · have counted : min count (request.bytes.length - taken) = count := by omega
      rw [counted, if_neg last] at emits
      rw [counted] at tracked
      exact Or.inr ⟨not_le.mp last, tracked, emits.of_nil⟩

theorem request_completes (serving : Serving ctx bank) (unicast : addr ≠ 0) {i : ι} {count : Nat}
    (served : Served addr events link system) {call : MasterCall} {request : Adu} {taken : Nat}
    (known : system.phase i = .called call) (proper : call.Proper) (addressed : call.slave = addr)
    (pending : Pending call (link.clients i).master request)
    (up : (link.clients i).up = request.bytes.drop taken) (down : (link.clients i).down = [])
    (waiting : (link.clients i).calls = (link.clients i).replies + 1)
    (reader : Held [] (link.clients i).master.mbapReader) {server : TcpServer ι σ}
    (address : server.slave.myAddress = link.server.slave.myAddress)
    (others : ∀ j, j ≠ i → server.conns j = link.server.conns j)
    (last : request.bytes.length ≤ taken + count)
    (tracks : Tracks [request] request.bytes.length (server.conns i))
    (first : Serves ctx link.server.slave.myAddress (i, request) link.server.service
      server.service) :
    ∃ system', Reaches bank.serve system system' ∧
      Served addr events (link.requested i count server) system' := by
  rw [served.address, ← addressed] at first
  rcases request_served serving proper (by rwa [addressed]) pending first with
    ⟨stored, response, answered, told⟩
  have store : link.server.service.store = system.store := served.store
  rw [store] at stored told
  have sent : (server.conns i).sent = (link.server.conns i).sent ++ response.bytes := by
    have here := congrFun answered i
    rwa [Function.update_self] at here
  refine ⟨_, .single (.perform known), served.move i _ server (.done _) (served.few i)
    (served.opened i) ?_ others tracks.direct (address.trans served.address) stored served.trace⟩
  refine .done 0 told (List.length_pos_iff.mpr response.bytes_ne_nil) ?_ ?_ waiting
    tracks.reader.whole (at_zero (fun adu => adu.bytes_ne_nil) [response] reader)
  · rw [up, List.drop_drop]
    exact List.drop_eq_nil_of_le last
  · rw [sent, List.drop_left, down]
    rfl

theorem Served.stays {i : ι} {phase : Phase MasterCall (Option Notice)} {next : RegisterLink ι σ}
    (known : system.phase i = phase)
    (moved : Served addr events next
      ⟨system.store, Function.update system.phase i phase, system.trace⟩) :
    Served addr events next system := by
  have same : system = ⟨system.store, Function.update system.phase i phase, system.trace⟩ := by
    rw [← known, Function.update_eq_self]
  rwa [same]

theorem request_step (serving : Serving ctx bank) (unicast : addr ≠ 0) {i : ι} {count : Nat}
    (served : Served addr (.request i count :: events) link system) :
    ∃ next system', registerStep ctx link (.request i count) = some next ∧
      Reaches bank.serve system system' ∧ Served addr events next system' := by
  have stage := served.stage i
  generalize known : system.phase i = phase at stage
  cases stage with
  | idle up => exact ⟨link, system, request_quiet up, .refl, served.skip⟩
  | done _ _ _ up => exact ⟨link, system, request_quiet up, .refl, served.skip⟩
  | @called call request taken proper addressed pending early up down waiting slave reader =>
      rcases request_arrives ctx count ⟨slave, served.direct i⟩ early up with
        ⟨server, step, address, others, ⟨last, tracks, first⟩ | ⟨more, tracks, same⟩⟩
      · rcases request_completes serving unicast served.skip known proper addressed pending up down
          waiting reader address others last tracks first with ⟨system', reaches, kept⟩
        exact ⟨_, system', step, reaches, kept⟩
      · have store : server.slave.store = link.server.slave.store := congrArg Service.store same
        have sent : (server.conns i).sent = (link.server.conns i).sent :=
          congrFun (congrArg Service.answered same) i
        refine ⟨_, system, step, .refl, Served.stays known (served.skip.move i _ server _
          (served.skip.few i) (served.opened i) ?_ others tracks.direct
          (address.trans served.address) (store.trans served.store) served.trace)⟩
        refine .called (taken + count) proper addressed pending more ?_ ?_ waiting tracks.reader
          reader
        · rw [up, List.drop_drop]
        · rw [sent, List.drop_length, List.append_nil]
          exact down

theorem response_arrives (ctx : ModbusSlaveCTX σ) {i : ι} {response : Adu} {taken : Nat}
    (count : Nat) {notice : Option Notice}
    (reader : At (fun adu : Adu => adu.bytes) Held [response] taken
      (link.clients i).master.mbapReader)
    (told : ∀ mbap, Carries response.toRawAdu mbap →
      (modbusTcpMasterGotFrame (link.clients i).master mbap).notice mbap = notice)
    (early : taken < response.bytes.length)
    (down : (link.clients i).down = response.bytes.drop taken) :
    ∃ mbap notes, registerStep ctx link (.response i count) =
        some (link.responded i count mbap notes) ∧
      (response.bytes.length ≤ taken + count ∧ Held [] mbap ∧ notes = [notice] ∨
        taken + count < response.bytes.length ∧ notes = [] ∧
          At (fun adu : Adu => adu.bytes) Held [response] (taken + count) mbap) := by
  have within : (link.clients i).down.take count <+:
      ([response].flatMap fun adu => adu.bytes).drop taken := by
    rw [down, List.flatMap_singleton]
    exact List.take_prefix _ _
  have length : ((link.clients i).down.take count).length =
      min count (response.bytes.length - taken) := by
    rw [down, List.length_take, List.length_drop]
  rcases (aduDecoder (noteFrame (link.clients i).master)).advance
      (s := ((link.clients i).master.mbapReader, [])) reader within with
    ⟨⟨mbap, notes⟩, run, tracked, emits⟩
  rw [between_single response early, length] at emits
  rw [length] at tracked
  refine ⟨mbap, notes, ?_, ?_⟩
  · rw [registerStep]
    dsimp only
    rw [mbapReaderFeed, run]
    rfl
  · by_cases last : response.bytes.length ≤ taken + count
    · have whole : taken + min count (response.bytes.length - taken) = response.bytes.length := by
        omega
      rw [whole, if_pos (Nat.le_refl _)] at emits
      rw [whole] at tracked
      cases emits with
      | cons first rest =>
          have finished := rest.of_nil
          rw [← finished] at first
          rcases first with ⟨frame, carries, (noted : notes = _)⟩
          refine Or.inl ⟨last, At.whole (s := (mbap, notes)) tracked, ?_⟩
          rw [noted, noteFrame, told frame carries]
          rfl
    · have counted : min count (response.bytes.length - taken) = count := by omega
      rw [counted, if_neg last] at emits
      rw [counted] at tracked
      exact Or.inr ⟨not_le.mp last, emits.of_nil, tracked⟩

theorem response_step {i : ι} {count : Nat}
    (served : Served addr (.response i count :: events) link system) :
    ∃ next system', registerStep ctx link (.response i count) = some next ∧
      Reaches bank.serve system system' ∧ Served addr events next system' := by
  have few := served.skip.few i
  have opened := served.opened i
  have stage := served.stage i
  generalize known : system.phase i = phase at stage
  cases stage with
  | idle _ down => exact ⟨link, system, response_quiet down, .refl, served.skip⟩
  | called _ _ _ _ _ _ down => exact ⟨link, system, response_quiet down, .refl, served.skip⟩
  | @done notice response taken told early up down waiting slave reader =>
      rcases response_arrives ctx count reader told early down with
        ⟨mbap, notes, step, ⟨last, held, rfl⟩ | ⟨more, rfl, tracked⟩⟩
      · refine ⟨_, _, step, .single (.ret known), served.skip.move i _ link.server .idle few
          ⟨opened.offset, opened.connected, opened.idle, opened.tid⟩ ?_ (fun _ _ => rfl)
          (served.direct i) served.address served.store ?_⟩
        · refine .idle up ?_ waiting slave held
          rw [down, List.drop_drop]
          exact List.drop_eq_nil_of_le last
        · rw [served.trace]
          rfl
      · refine ⟨_, system, step, .refl, Served.stays known (served.skip.move i _ link.server
          (.done notice) few ⟨opened.offset, opened.connected, opened.idle, opened.tid⟩ ?_
          (fun _ _ => rfl) (served.direct i) served.address served.store ?_)⟩
        · refine .done (taken + count) told more up ?_ waiting slave tracked
          rw [down, List.drop_drop]
        · exact (List.append_nil _).trans served.trace

end Steps

def registerLink (addr : UInt8) (store : σ) (masters : ι → ModbusTCPMaster) (sd newsd : ι → Int)
    (queues heap : ι → Vector UInt8 512) (memory : ι → MbapReader) : RegisterLink ι σ where
  clients i := ⟨(connectedSession (masters i) (sd i) (queues i)).master, [], [], 0, 0⟩
  server := tcpServer addr store memory newsd heap
  trace := []

def wordsAt (usAddress : UInt16) (store : UInt16 → UInt16) : Nat → List UInt8
  | 0 => []
  | n + 1 => BigEndian.wordBytes (store usAddress) ++ wordsAt (usAddress + 1) store n

theorem wordsAt_length (usAddress : UInt16) (store : UInt16 → UInt16) (n : Nat) :
    (wordsAt usAddress store n).length = 2 * n := by
  induction n generalizing usAddress with
  | zero => rfl
  | succ n ih =>
      rw [wordsAt, List.length_append, ih]
      change 2 + 2 * n = 2 * (n + 1)
      omega

def wordBank : Bank (UInt16 → UInt16) where
  read kind usAddress usNRegs store :=
    if kind = .holding then some (wordsAt usAddress store usNRegs.toNat) else none
  write kind usAddress usNRegs values store :=
    if kind = .holding then
      some fun register =>
        let i := (register - usAddress).toNat
        if i < usNRegs.toNat then BigEndian.word (values.getD (2 * i) 0) (values.getD (2 * i + 1) 0)
        else store register
    else none

theorem wordBank_serving : Serving wordBank.ctx wordBank := by
  apply Bank.serving
  intro kind usAddress usNRegs store values answer
  rw [wordBank] at answer
  dsimp only at answer
  split_ifs at answer with holding
  rw [← Option.some.inj answer, wordsAt_length, holding]
  rfl

def overlapping : List (RegisterEvent Bool) :=
  [.call false (.writeSingleRegister 17 5 0x1234), .call true (.readHoldingRegisters 17 5 2),
    .request true 8, .request false 12, .request true 4, .response true 13, .response false 12]

end KongjaExpress.Modbus
