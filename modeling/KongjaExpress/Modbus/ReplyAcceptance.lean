import KongjaExpress.Library.Run
import KongjaExpress.Modbus.TcpMaster

/-! Which replies the TCP master passes on to its response handler. -/

namespace KongjaExpress.Modbus

open BigEndian Memory Transport Utils Run

def sentTx (log : List LogEntry) : List (List UInt8) :=
  log.filterMap fun
    | .sent _ tx => some tx
    | _ => none

/-- What the last call of a session saved, and the transaction identifiers so far. -/
structure MasterSound (ctx : ModbusMasterCTX) (tid : UInt16) (log : List LogEntry) : Prop where
  offset : ctx.pduOffset = 7
  count : tid = .ofNat (sentTx log).length
  tids : (sentTx log).map encodedTid = (List.range (sentTx log).length).map UInt16.ofNat
  last : ∀ call tx, log.getLast? = some (.sent call tx) →
    ctx.reqFunc = call.func ∧ ctx.reqRegAddr = call.regAddr ∧ ctx.reqNb = call.nb ∧
      tid = encodedTid tx + 1

section Sound

variable {ctx : ModbusMasterCTX} {tid : UInt16} {log : List LogEntry}

theorem MasterSound.append (sound : MasterSound ctx tid log) {ctx' : ModbusMasterCTX}
    (offset : ctx'.pduOffset = ctx.pduOffset) {entry : LogEntry}
    (other : ∀ call tx, entry ≠ .sent call tx) : MasterSound ctx' tid (log ++ [entry]) := by
  have same : sentTx (log ++ [entry]) = sentTx log := by
    cases entry with
    | sent call tx => exact absurd rfl (other call tx)
    | unsent | connection | fired => simp [sentTx]
  refine ⟨offset.trans sound.offset, ?_, ?_, ?_⟩
  · rw [same]
    exact sound.count
  · rw [same]
    exact sound.tids
  · intro call tx last
    rw [List.getLast?_concat] at last
    exact absurd (Option.some.inj last) (other call tx)

theorem MasterSound.send (sound : MasterSound ctx tid log) {ctx' : ModbusMasterCTX}
    (offset : ctx'.pduOffset = ctx.pduOffset) {call : MasterCall} {tx : List UInt8}
    (saved : ctx'.reqFunc = call.func ∧ ctx'.reqRegAddr = call.regAddr ∧ ctx'.reqNb = call.nb)
    (encoded : encodedTid tx = tid) :
    MasterSound ctx' (tid + 1) (log ++ [.sent call tx]) := by
  have one : sentTx (log ++ [.sent call tx]) = sentTx log ++ [tx] := by simp [sentTx]
  refine ⟨offset.trans sound.offset, ?_, ?_, ?_⟩
  · rw [one, List.length_append, sound.count]
    apply UInt16.toNat_inj.mp
    simp
  · rw [one, List.map_append, List.length_append, List.length_singleton, List.range_succ,
      List.map_append, sound.tids, List.map_singleton, List.map_singleton, encoded, sound.count]
  · intro call' tx' last
    rw [List.getLast?_concat, Option.some.injEq, LogEntry.sent.injEq] at last
    obtain ⟨rfl, rfl⟩ := last
    exact ⟨saved.1, saved.2.1, saved.2.2, by rw [encoded]⟩

end Sound

/-- The checks a reply has to pass: both identifiers, and the saved request. -/
def Passes (master : ModbusTCPMaster) (mbap : MbapReader) : Prop :=
  (master.tid.toNat : Int) - 1 = mbap.tid.toNat ∧ master.pid = mbap.pid ∧
    modbusRtuValidateResponse master.ctx mbap.uid (pduArea mbap.frame)
      ((mbap.length.toNat : Int) - 1) = true

theorem gotFrame_handled {master : ModbusTCPMaster} {mbap : MbapReader}
    {call : Option AppCall} (handled : modbusTcpMasterGotFrame master mbap = .handled call) :
    (master.tid.toNat : Int) - 1 = mbap.tid.toNat ∧ master.pid = mbap.pid ∧
      call = modbusRtuHandlerResponseRx master.ctx mbap.uid (pduArea mbap.frame)
        ((mbap.length.toNat : Int) - 1) := by
  unfold modbusTcpMasterGotFrame at handled
  split at handled
  · contradiction
  · rename_i tid
    split at handled
    · contradiction
    · rename_i pid
      exact ⟨not_not.mp tid, not_not.mp pid, (FrameVerdict.handled.inj handled).symm⟩

theorem gotFrame_passes {master : ModbusTCPMaster} {mbap : MbapReader} {call : AppCall}
    (handled : modbusTcpMasterGotFrame master mbap = .handled (some call)) :
    Passes master mbap := by
  rcases gotFrame_handled handled with ⟨tid, pid, response⟩
  refine ⟨tid, pid, ?_⟩
  unfold modbusRtuHandlerResponseRx at response
  split at response
  · contradiction
  · rename_i valid
    exact not_not.mp valid

/-- What one byte adds to the log: nothing, or the callback of a frame that passes. -/
theorem rx_cases {s next : MasterSession} {data : UInt8}
    (step : masterStep s (.rx data) = some next) :
    next.master.ctx = s.master.ctx ∧ next.master.tid = s.master.tid ∧
      (next.log = s.log ∨ ∃ mbap call, arriving s.master.mbapReader data = some mbap ∧
        modbusTcpMasterGotFrame s.master mbap = .handled (some call) ∧
        next.log = s.log ++ [.fired (replyOf mbap) call]) := by
  rcases Option.map_eq_some_iff.mp step with ⟨⟨mbap, log⟩, fed, rfl⟩
  refine ⟨rfl, rfl, ?_⟩
  have env := mbapStateMachine_env fed
  change log = s.log ∨ _
  split at env
  · rename_i frame arrives
    unfold masterReceive at env
    split at env
    · rename_i call handled
      exact .inr ⟨frame, call, arrives, handled, env⟩
    · exact .inl env
  · exact .inl env

/-- What a call does to the log and to what is saved. -/
theorem call_cases {kernel : List UInt8 → WriteResult} {master master' : ModbusTCPMaster}
    {call : MasterCall} {tx : Option (List UInt8)} (offset : master.ctx.pduOffset = 7)
    (ran : modbusTcpMasterCall kernel master call = some (master', tx)) :
    master'.ctx.pduOffset = 7 ∧
      ((tx = none ∧ master'.tid = master.tid) ∨
        ∃ bytes, tx = some bytes ∧ encodedTid bytes = master.tid ∧
          master'.tid = master.tid + 1 ∧ master'.ctx.reqFunc = call.func ∧
          master'.ctx.reqRegAddr = call.regAddr ∧ master'.ctx.reqNb = call.nb) := by
  rcases MasterCall.run_some ran with ⟨ctx', encoded, sent⟩
  rcases encoded.saved with ⟨func, -, regAddr, nb, kept⟩
  have bound := encoded.bound
  have ndx := encoded.ndx
  rw [offset] at bound ndx
  change 7 + call.pdu.length ≤ 512 at bound
  change ctx'.txNdx.toNat = 7 + call.pdu.length at ndx
  rcases request_cases sent with ⟨-, rfl, rfl⟩ | ⟨-, rfl, ctx, tid, -⟩
  · exact ⟨kept.trans offset, .inl ⟨rfl, rfl⟩⟩
  · have bytes := request_bytes { master with ctx := ctx' } call.slave
      (show call.pdu.length ≤ 505 by omega) ndx
    rw [ctx]
    refine ⟨kept.trans offset, .inr ⟨_, rfl, ?_, tid, func, regAddr, nb⟩⟩
    exact (congrArg encodedTid bytes).trans (encodedTid_bytes _)

theorem masterStep_sound {s next : MasterSession} {event : MasterEvent}
    (step : masterStep s event = some next)
    (sound : MasterSound s.master.ctx s.master.tid s.log) :
    MasterSound next.master.ctx next.master.tid next.log := by
  cases event with
  | start =>
      obtain rfl := Option.some.inj step
      exact sound
  | stop =>
      rcases Option.map_eq_some_iff.mp step with ⟨master, stopped, rfl⟩
      unfold modbusTcpMasterStop at stopped
      split at stopped
      · rcases Option.map_eq_some_iff.mp stopped with ⟨-, -, rfl⟩
        exact sound
      · obtain rfl := Option.some.inj stopped
        exact sound
  | connector sd heap =>
      obtain rfl := Option.some.inj step
      dsimp only [modbusTcpMasterTcpConnectorCallback]
      by_cases success : sd ≥ 0
      · rw [if_pos success, if_pos success]
        exact sound.append rfl (by simp)
      · rw [if_neg success, if_neg success]
        exact sound
  | request call kernel =>
      rcases Option.map_eq_some_iff.mp step with ⟨⟨master, tx⟩, ran, rfl⟩
      rcases call_cases sound.offset ran with ⟨offset, ⟨rfl, tid⟩ | ⟨bytes, rfl, encoded, tid, saved⟩⟩
      · dsimp only
        rw [tid]
        exact sound.append (offset.trans sound.offset.symm) (by simp)
      · dsimp only
        rw [tid]
        exact sound.send (offset.trans sound.offset.symm) saved encoded
  | rx data =>
      rcases rx_cases step with ⟨ctx, tid, log | ⟨mbap, call, -, -, log⟩⟩
      · rw [ctx, tid, log]
        exact sound
      · rw [ctx, tid, log]
        exact sound.append rfl (by simp)
  | tx result =>
      rcases Option.bind_eq_some_iff.mp step with ⟨stream, -, rest⟩
      rcases Option.map_eq_some_iff.mp rest with ⟨-, -, rfl⟩
      exact sound
  | lost =>
      rcases Option.map_eq_some_iff.mp step with ⟨master, lost, rfl⟩
      rcases Option.map_eq_some_iff.mp lost with ⟨-, -, rfl⟩
      exact sound

theorem masterSession_sound (memory : ModbusTCPMaster) :
    MasterSound (masterSession memory).master.ctx (masterSession memory).master.tid
      (masterSession memory).log :=
  ⟨rfl, rfl, rfl, fun _ _ none => by simp [masterSession] at none⟩

theorem run_masterSound {memory : ModbusTCPMaster} {events : List MasterEvent}
    {s : MasterSession} (run : events.foldlM masterStep (masterSession memory) = some s) :
    MasterSound s.master.ctx s.master.tid s.log :=
  invariant (J := fun s => MasterSound s.master.ctx s.master.tid s.log)
    (fun _ _ _ sound step => masterStep_sound step sound) (masterSession_sound memory) run

def PassedOn (master : ModbusTCPMaster) (mbap : MbapReader) : Prop :=
  ∃ call, modbusTcpMasterGotFrame master mbap = .handled call

theorem passedOn_iff {master : ModbusTCPMaster} {mbap : MbapReader} :
    PassedOn master mbap ↔
      (master.tid.toNat : Int) - 1 = mbap.tid.toNat ∧ master.pid = mbap.pid := by
  constructor
  · rintro ⟨call, handled⟩
    rcases gotFrame_handled handled with ⟨tid, pid, -⟩
    exact ⟨tid, pid⟩
  · rintro ⟨tid, pid⟩
    refine ⟨modbusRtuHandlerResponseRx master.ctx mbap.uid (pduArea mbap.frame)
      ((mbap.length.toNat : Int) - 1), ?_⟩
    rw [modbusTcpMasterGotFrame, if_neg (not_not.mpr tid), if_neg (not_not.mpr pid)]

theorem lastTid {ctx : ModbusMasterCTX} {tid : UInt16} {log : List LogEntry}
    (sound : MasterSound ctx tid log) {tx : List UInt8}
    (last : (sentTx log).getLast? = some tx) :
    1 ≤ (sentTx log).length ∧ encodedTid tx = .ofNat ((sentTx log).length - 1) := by
  have sent : (sentTx log).length ≠ 0 := by
    intro none
    rw [List.length_eq_zero_iff] at none
    simp [none] at last
  have mapped : ((sentTx log).map encodedTid).getLast? = some (encodedTid tx) := by
    rw [List.getLast?_map, last]
    rfl
  rw [sound.tids, List.getLast?_map] at mapped
  rcases Nat.exists_eq_succ_of_ne_zero sent with ⟨n, length⟩
  rw [length, Nat.succ_eq_add_one, List.range_succ, List.getLast?_concat] at mapped
  rw [length]
  exact ⟨Nat.succ_le_succ (Nat.zero_le n), (Option.some.inj mapped).symm⟩

def replyAdu (tid pid : UInt16) : Adu where
  tid := tid
  pid := pid
  uid := 1
  pdu := [0x83]
  counted := by decide
  nonempty := by decide
  short := by decide

section Accepted

variable {s : MasterSession} {tx : List UInt8}
  (sound : MasterSound s.master.ctx s.master.tid s.log) (last : (sentTx s.log).getLast? = some tx)

include sound last

theorem counters : s.master.tid.toNat = (sentTx s.log).length % 65536 ∧
    (encodedTid tx).toNat = ((sentTx s.log).length - 1) % 65536 ∧ 1 ≤ (sentTx s.log).length := by
  rcases lastTid sound last with ⟨positive, encoded⟩
  refine ⟨?_, ?_, positive⟩
  · rw [sound.count]
    exact UInt16.toNat_ofNat'
  · rw [encoded]
    exact UInt16.toNat_ofNat'

theorem accepts_unwrapped (unwrapped : (sentTx s.log).length % 65536 ≠ 0) {adu : Adu}
    {mbap : MbapReader} (carries : Carries adu.toRawAdu mbap) :
    PassedOn s.master mbap ↔ adu.tid = encodedTid tx ∧ adu.pid = s.master.pid := by
  rcases counters sound last with ⟨counter, encoded, positive⟩
  rw [passedOn_iff, carries.tid, carries.pid, ← UInt16.toNat_inj (a := adu.tid), encoded, counter,
    eq_comm (a := s.master.pid)]
  refine and_congr_left fun _ => ?_
  omega

/-- With the counter at 0 the expected identifier is -1, which no reply has. -/
theorem rejects_wrapped (wrapped : (sentTx s.log).length % 65536 = 0) (mbap : MbapReader) :
    ¬ PassedOn s.master mbap := by
  intro passed
  have expected := (passedOn_iff.mp passed).1
  rw [(counters sound last).1, wrapped] at expected
  omega

end Accepted

/-- The master passes on exactly the replies with the identifiers of its last request. -/
def AcceptsReplies (master : ModbusTCPMaster) (tx : List UInt8) : Prop :=
  ∀ (adu : Adu) (mbap : MbapReader), Carries adu.toRawAdu mbap →
    (PassedOn master mbap ↔ adu.tid = encodedTid tx ∧ adu.pid = master.pid)

theorem not_acceptsReplies {s : MasterSession} {tx : List UInt8}
    (sound : MasterSound s.master.ctx s.master.tid s.log)
    (last : (sentTx s.log).getLast? = some tx)
    (wrapped : (sentTx s.log).length % 65536 = 0) : ¬ AcceptsReplies s.master tx := by
  intro accepts
  have carries := delivered_carries (.replicate 260 0) (replyAdu (encodedTid tx) s.master.pid)
  exact rejects_wrapped sound last wrapped _ ((accepts _ _ carries).mpr ⟨rfl, rfl⟩)

/-- After any run, the master passes on exactly the replies with the identifiers of its
last request, unless the number of its requests is a multiple of 65536. -/
theorem replyAccepted_iff {memory : ModbusTCPMaster} {events : List MasterEvent}
    {s : MasterSession} (run : events.foldlM masterStep (masterSession memory) = some s)
    {tx : List UInt8} (last : (sentTx s.log).getLast? = some tx) :
    AcceptsReplies s.master tx ↔ (sentTx s.log).length % 65536 ≠ 0 := by
  have sound := run_masterSound run
  constructor
  · exact fun accepts wrapped => not_acceptsReplies sound last wrapped accepts
  · exact fun unwrapped adu mbap carries => accepts_unwrapped sound last unwrapped carries

structure MasterReady (s : MasterSession) : Prop where
  offset : s.master.ctx.pduOffset = 7
  connected : s.master.tcpState = .connected
  idle : ∃ stream, s.master.stream = some stream ∧ circBufferIsEmpty stream.txBuf = true

def connectedSession (memory : ModbusTCPMaster) (sd : Int) (heap : Vector UInt8 512) :
    MasterSession where
  master := modbusTcpMasterTcpConnectorCallback
    (modbusTcpMasterStart (modbusTcpMasterInit memory)) sd heap
  log := [.connection]

theorem connect_run (memory : ModbusTCPMaster) {sd : Int} (success : sd ≥ 0)
    (heap : Vector UInt8 512) :
    [MasterEvent.start, .connector sd heap].foldlM masterStep (masterSession memory) =
      some (connectedSession memory sd heap) := by
  simp only [List.foldlM_cons, masterStep, Option.bind_eq_bind, Option.bind_some, if_pos success]
  rfl

theorem connectedSession_ready (memory : ModbusTCPMaster) {sd : Int} (success : sd ≥ 0)
    (heap : Vector UInt8 512) : MasterReady (connectedSession memory sd heap) := by
  unfold connectedSession modbusTcpMasterTcpConnectorCallback
  rw [if_pos success]
  exact ⟨rfl, rfl, _, rfl, rfl⟩

theorem request_accepted {master : ModbusTCPMaster} {stream : Stream 512}
    (connected : master.tcpState = .connected) (opened : master.stream = some stream)
    (empty : circBufferIsEmpty stream.txBuf = true) (slave : UInt8) :
    ∃ next tx, modbusTcpMasterRequest acceptAll master slave = some (next, some tx) ∧
      next.ctx.pduOffset = master.ctx.pduOffset ∧ next.tcpState = .connected ∧
      next.stream = some stream ∧ next.mbapReader = master.mbapReader ∧
      next.pid = master.pid := by
  unfold modbusTcpMasterRequest
  dsimp only
  rw [if_neg (not_not.mpr connected), opened, Option.bind_some, streamWrite_acceptAll _ empty,
    if_pos rfl, Option.map_some]
  exact ⟨_, _, rfl, rfl, connected, rfl, rfl, rfl⟩

theorem ready_request {s : MasterSession} (ready : MasterReady s) {call : MasterCall}
    (fits : call.pdu.length ≤ 505) :
    ∃ next tx, masterStep s (.request call acceptAll) = some next ∧ MasterReady next ∧
      next.master.mbapReader = s.master.mbapReader ∧ next.master.pid = s.master.pid ∧
      next.log = s.log ++ [.sent call tx] := by
  rcases ready.idle with ⟨stream, opened, empty⟩
  have room : s.master.ctx.pduOffset.toNat + call.pdu.length ≤ 512 := by
    rw [ready.offset]
    change 7 + call.pdu.length ≤ 512
    omega
  rcases MasterCall.run_encoded
    (fun ctx slave => modbusTcpMasterRequest acceptAll { s.master with ctx := ctx } slave) room
    with ⟨ctx, encoded, ran⟩
  rcases @request_accepted { s.master with ctx := ctx } stream ready.connected opened empty
    call.slave with ⟨master, tx, sent, offset, connected, idle, reader, pid⟩
  refine ⟨⟨master, s.log ++ [.sent call tx]⟩, tx, ?_, ⟨?_, connected, stream, idle, empty⟩,
    reader, pid, rfl⟩
  · rw [masterStep, modbusTcpMasterCall, ran, sent, Option.map_some]
  · exact (offset.trans encoded.saved.2.2.2.2).trans ready.offset

theorem ready_requests {s : MasterSession} (ready : MasterReady s) {call : MasterCall}
    (fits : call.pdu.length ≤ 505) (n : Nat) :
    ∃ next, (List.replicate n (MasterEvent.request call acceptAll)).foldlM masterStep s =
        some next ∧ (sentTx next.log).length = (sentTx s.log).length + n := by
  induction n generalizing s with
  | zero => exact ⟨s, rfl, rfl⟩
  | succ n ih =>
      rcases ready_request ready fits with ⟨next, tx, step, ready', -, -, log⟩
      rcases ih ready' with ⟨last, run, count⟩
      refine ⟨last, ?_, ?_⟩
      · rw [List.replicate_succ, List.foldlM_cons, step]
        exact run
      · rw [count, log]
        simp [sentTx]
        omega

/-- A master that polls the same coils `n` times, with every write taken. -/
def polls (n : Nat) : List MasterEvent :=
  [.start, .connector 5 (.replicate 512 0)] ++
    List.replicate n (.request (.readCoils 2 1000 23) acceptAll)

theorem polls_run (memory : ModbusTCPMaster) (n : Nat) :
    ∃ s, (polls n).foldlM masterStep (masterSession memory) = some s ∧
      (sentTx s.log).length = n := by
  have fits : (MasterCall.readCoils 2 1000 23).pdu.length ≤ 505 := by decide
  rcases ready_requests (connectedSession_ready memory (show (5 : Int) ≥ 0 by decide)
    (.replicate 512 0)) fits n with ⟨s, run, count⟩
  refine ⟨s, ?_, ?_⟩
  · rw [polls, List.foldlM_append, connect_run memory (by decide)]
    exact run
  · simpa [connectedSession, sentTx] using count

def blankMaster : ModbusTCPMaster where
  ctx := ⟨.replicate 512 0, 0, 0, 0, 0, 0, 0, 0⟩
  tcpState := .notConnected
  stream := none
  tid := 0
  pid := 0
  mbapReader := readerAt (.replicate 260 0) 0

/-- After one poll the right reply is accepted. -/
theorem replyAccepted_first :
    ∃ s tx, (polls 1).foldlM masterStep (masterSession blankMaster) = some s ∧
      (sentTx s.log).getLast? = some tx ∧ AcceptsReplies s.master tx := by
  rcases polls_run blankMaster 1 with ⟨s, run, count⟩
  rcases List.length_eq_one_iff.mp count with ⟨tx, only⟩
  have last : (sentTx s.log).getLast? = some tx := by
    rw [only]
    rfl
  exact ⟨s, tx, run, last, (replyAccepted_iff run last).mpr (by rw [count]; decide)⟩

/-- After 65536 polls the right reply is not accepted. -/
theorem replyAccepted_fails :
    ∃ s tx, (polls 65536).foldlM masterStep (masterSession blankMaster) = some s ∧
      (sentTx s.log).getLast? = some tx ∧ ¬ AcceptsReplies s.master tx := by
  rcases polls_run blankMaster 65536 with ⟨s, run, count⟩
  have some : sentTx s.log ≠ [] := List.ne_nil_of_length_pos (by omega)
  have last := List.getLast?_eq_some_getLast some
  exact ⟨s, _, run, last, not_acceptsReplies (run_masterSound run) last (by rw [count])⟩

end KongjaExpress.Modbus
