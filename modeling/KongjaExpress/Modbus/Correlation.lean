import KongjaExpress.Modbus.ReplyAcceptance

/-! Which requests the callbacks of the TCP master answer. -/

namespace KongjaExpress.Modbus

open BigEndian Memory Transport Run

structure Answers (reply : Reply) (call : AppCall) (request : MasterCall) (tx : List UInt8) :
    Prop where
  tid : reply.tid = encodedTid tx
  uid : reply.uid = request.slave
  func : reply.func = request.func
  slave : call.slave = request.slave
  addr : call.addr = request.regAddr
  nreg : call.nreg = request.nb

/-- Every callback answers a request sent before it on its connection, and no two answer
the same one: `m` finds the request for the callback at a position of the log. -/
def Correlated (log : List LogEntry) : Prop :=
  ∃ m : Nat → Nat,
    (∀ i reply call, log[i]? = some (.fired reply call) →
      m i < i ∧ (∀ j, m i < j → j < i → ∀ entry, log[j]? = some entry → entry ≠ .connection) ∧
        ∃ request tx, log[m i]? = some (.sent request tx) ∧ Answers reply call request tx) ∧
    ∀ i i' reply call reply' call', log[i]? = some (.fired reply call) →
      log[i']? = some (.fired reply' call') → m i = m i' → i = i'

/-- A frame that passes the checks comes right after a request was sent, from the unit
the request went to. -/
def AnsweredInTurn (s : MasterSession) (event : MasterEvent) (_ : MasterSession) : Prop :=
  ∀ data mbap, event = .rx data → arriving s.master.mbapReader data = some mbap →
    Passes s.master mbap →
      ∃ request tx, s.log.getLast? = some (.sent request tx) ∧ mbap.uid = request.slave

theorem Correlated.answer {log : List LogEntry} (correlated : Correlated log) {reply : Reply}
    {call : AppCall} {request : MasterCall} {tx : List UInt8}
    (last : log.getLast? = some (.sent request tx)) (answers : Answers reply call request tx) :
    Correlated (log ++ [.fired reply call]) := by
  rcases correlated with ⟨m, answered, once⟩
  have positive : log ≠ [] := by
    rintro rfl
    simp at last
  have size := List.length_pos_iff.mpr positive
  rw [List.getLast?_eq_getElem?] at last
  -- an entry of the extended log that is a callback is an old one, before the request
  have old {i : Nat} {reply' : Reply} {call' : AppCall}
      (at_i : (log ++ [LogEntry.fired reply call])[i]? = some (.fired reply' call'))
      (other : i ≠ log.length) : i < log.length - 1 ∧ log[i]? = some (.fired reply' call') := by
    have inside : i < log.length := by
      have := (List.getElem?_eq_some_iff.mp at_i).1
      rw [List.length_append, List.length_singleton] at this
      omega
    rw [List.getElem?_append_left inside] at at_i
    refine ⟨?_, at_i⟩
    by_contra beyond
    obtain rfl : i = log.length - 1 := by omega
    rw [last] at at_i
    simp at at_i
  have kept {j : Nat} (inside : j < log.length) :
      (log ++ [LogEntry.fired reply call])[j]? = log[j]? := List.getElem?_append_left inside
  refine ⟨Function.update m log.length (log.length - 1), ?_, ?_⟩
  · intro i reply' call' at_i
    by_cases new : i = log.length
    · subst new
      rw [List.getElem?_append_right le_rfl, Nat.sub_self, List.getElem?_cons_zero,
        Option.some.injEq, LogEntry.fired.injEq] at at_i
      obtain ⟨rfl, rfl⟩ := at_i
      rw [Function.update_self]
      refine ⟨by omega, fun j after before => by omega, request, tx, ?_, answers⟩
      rw [kept (by omega)]
      exact last
    · rcases old at_i new with ⟨inside, entry⟩
      rcases answered i _ _ entry with ⟨earlier, connected, request', tx', sent, answers'⟩
      rw [Function.update_of_ne new]
      refine ⟨earlier, fun j after before => ?_, request', tx', ?_, answers'⟩
      · rw [kept (by omega)]
        exact connected j after before
      · rw [kept (by omega)]
        exact sent
  · intro i i' reply₁ call₁ reply₂ call₂ at_i at_i' same
    by_cases new : i = log.length <;> by_cases new' : i' = log.length
    · rw [new, new']
    · rcases old at_i' new' with ⟨inside, entry⟩
      have earlier := (answered i' _ _ entry).1
      rw [new, Function.update_self, Function.update_of_ne new'] at same
      omega
    · rcases old at_i new with ⟨inside, entry⟩
      have earlier := (answered i _ _ entry).1
      rw [new', Function.update_self, Function.update_of_ne new] at same
      omega
    · rw [Function.update_of_ne new, Function.update_of_ne new'] at same
      exact once i i' _ _ _ _ (old at_i new).2 (old at_i' new').2 same

theorem Correlated.append {log : List LogEntry} (correlated : Correlated log) {entry : LogEntry}
    (other : ∀ reply call, entry ≠ .fired reply call) : Correlated (log ++ [entry]) := by
  rcases correlated with ⟨m, answered, once⟩
  have old {i : Nat} {reply : Reply} {call : AppCall}
      (at_i : (log ++ [entry])[i]? = some (.fired reply call)) :
      i < log.length ∧ log[i]? = some (.fired reply call) := by
    have inside := (List.getElem?_eq_some_iff.mp at_i).1
    rw [List.length_append, List.length_singleton] at inside
    by_cases last : i = log.length
    · rw [last, List.getElem?_append_right le_rfl, Nat.sub_self, List.getElem?_cons_zero,
        Option.some.injEq] at at_i
      exact absurd at_i (other reply call)
    · rw [List.getElem?_append_left (by omega)] at at_i
      exact ⟨by omega, at_i⟩
  refine ⟨m, ?_, ?_⟩
  · intro i reply call at_i
    rcases old at_i with ⟨inside, fired⟩
    rcases answered i reply call fired with ⟨earlier, connected, request, tx, sent, answers⟩
    refine ⟨earlier, fun j after before => ?_, request, tx, ?_, answers⟩
    · rw [List.getElem?_append_left (by omega)]
      exact connected j after before
    · rw [List.getElem?_append_left (by omega)]
      exact sent
  · intro i i' _ _ _ _ at_i at_i' same
    exact once i i' _ _ _ _ (old at_i).2 (old at_i').2 same

theorem correlated_nil : Correlated [] :=
  ⟨id, fun _ _ _ none => by simp at none, fun _ _ _ _ _ _ none => by simp at none⟩

/-- A callback of a frame that passes answers the request that was saved last. -/
theorem fired_answers {s : MasterSession} (sound : MasterSound s.master.ctx s.master.tid s.log)
    {mbap : MbapReader} {call : AppCall} {request : MasterCall} {tx : List UInt8}
    (last : s.log.getLast? = some (.sent request tx))
    (handled : modbusTcpMasterGotFrame s.master mbap = .handled (some call))
    (unit : mbap.uid = request.slave) : Answers (replyOf mbap) call request tx := by
  rcases sound.last request tx last with ⟨func, regAddr, nb, counter⟩
  rcases gotFrame_handled handled with ⟨tid, -, response⟩
  rcases handlerResponseRx_args response.symm with ⟨code, slave, addr, nreg⟩
  refine ⟨?_, unit, code.trans func, slave.trans unit, addr.trans regAddr, nreg.trans nb⟩
  have advanced : s.master.tid.toNat = ((encodedTid tx).toNat + 1) % 65536 := by
    rw [counter, UInt16.toNat_add]
    rfl
  have bound := (encodedTid tx).toNat_lt
  apply UInt16.toNat_inj.mp
  change mbap.tid.toNat = _
  omega

theorem masterStep_correlated {s next : MasterSession} {event : MasterEvent}
    (step : masterStep s event = some next)
    (sound : MasterSound s.master.ctx s.master.tid s.log) (correlated : Correlated s.log)
    (inTurn : AnsweredInTurn s event next) : Correlated next.log := by
  cases event with
  | start =>
      obtain rfl := Option.some.inj step
      exact correlated
  | stop =>
      rcases Option.map_eq_some_iff.mp step with ⟨-, -, rfl⟩
      exact correlated
  | connector sd heap =>
      obtain rfl := Option.some.inj step
      dsimp only
      split
      · exact correlated.append (by simp)
      · exact correlated
  | request call kernel =>
      rcases Option.map_eq_some_iff.mp step with ⟨⟨master, tx⟩, -, rfl⟩
      refine correlated.append fun reply call => ?_
      split <;> simp
  | rx data =>
      rcases rx_cases step with ⟨-, -, log | ⟨mbap, call, arrives, handled, log⟩⟩
      · rwa [log]
      · rcases inTurn data mbap rfl arrives (gotFrame_passes handled) with
          ⟨request, tx, last, unit⟩
        rw [log]
        exact correlated.answer last (fired_answers sound last handled unit)
  | tx result =>
      rcases Option.bind_eq_some_iff.mp step with ⟨stream, -, rest⟩
      rcases Option.map_eq_some_iff.mp rest with ⟨-, -, rfl⟩
      exact correlated
  | lost =>
      rcases Option.map_eq_some_iff.mp step with ⟨-, -, rfl⟩
      exact correlated

/-- In a run whose replies come in turn, callbacks and requests correspond. -/
theorem run_correlated {memory : ModbusTCPMaster} {events : List MasterEvent}
    {s : MasterSession} (run : events.foldlM masterStep (masterSession memory) = some s)
    (inTurn : Along masterStep AnsweredInTurn (masterSession memory) events) :
    Correlated s.log := by
  have both := invariant_of_along
    (J := fun s => MasterSound s.master.ctx s.master.tid s.log ∧ Correlated s.log)
    (C := AnsweredInTurn)
    (fun s event next holds step inTurn =>
      ⟨masterStep_sound step holds.1, masterStep_correlated step holds.1 holds.2 inTurn⟩)
    ⟨masterSession_sound memory, correlated_nil⟩ inTurn run
  exact both.2

theorem rx_adu {s : MasterSession} {frame : Vector UInt8 260}
    (reader : s.master.mbapReader = readerAt frame 0) (adu : Adu) :
    ∃ mbap frame', Carries adu.toRawAdu mbap ∧
      (adu.bytes.map MasterEvent.rx).foldlM masterStep s =
        some (s.withReader (readerAt frame' 0, (masterReceive s.master mbap s.log).2)) := by
  rcases run_adu (masterReceive s.master) frame adu s.log with ⟨-, -, run⟩
  refine ⟨_, (masterReceive s.master (delivered frame adu) s.log).1.frame,
    delivered_carries frame adu, ?_⟩
  rw [masterStep_feed, reader, mbapReaderFeed, run, Option.map_some]

def registerReply (uid : UInt8) : Adu where
  tid := 0
  pid := 0
  uid := uid
  pdu := [3, 2, 0, 0]
  counted := by decide
  nonempty := by decide
  short := by decide

structure Awaits (s : MasterSession) : Prop where
  tid : s.master.tid = 1
  pid : s.master.pid = 0
  reqFunc : s.master.ctx.reqFunc = 3
  reqNb : s.master.ctx.reqNb = 1
  reader : ∃ frame, s.master.mbapReader = readerAt frame 0

theorem carried_byte {adu : RawAdu} {mbap : MbapReader} (carries : Carries adu mbap)
    (short : adu.pdu.length ≤ 253) (i : Nat) (inside : i < adu.pdu.length) :
    (pduArea mbap.frame)[i] = adu.pdu[i] := by
  have held := carries.parts.2
  have inFront : i < (front (mbap.frame.drop 7) adu.pdu.length).length := by
    rwa [held]
  have byte := getElem_front (mbap.frame.drop 7) (show i < 260 - 7 by omega) inFront
  simp only [held] at byte
  exact byte.symm

/-- While the saved request stays, such a reply fires, from whatever unit and however
often. -/
theorem reply_fires {s : MasterSession} (awaits : Awaits s) (uid : UInt8) :
    ∃ next reply call,
      ((registerReply uid).bytes.map MasterEvent.rx).foldlM masterStep s = some next ∧
        Awaits next ∧ reply.uid = uid ∧ next.log = s.log ++ [.fired reply call] := by
  rcases awaits.reader with ⟨frame, reader⟩
  rcases rx_adu reader (registerReply uid) with ⟨mbap, frame', carries, run⟩
  have byte (i : Nat) (inside : i < 4) :
      (pduArea mbap.frame)[i] = [(3 : UInt8), 2, 0, 0][i] :=
    carried_byte carries (show 4 ≤ 253 by decide) i inside
  have length : (mbap.length.toNat : Int) - 1 = 4 := by
    rw [carries.length, RawAdu.length_toNat]
    rfl
  have valid : modbusRtuValidateResponse s.master.ctx mbap.uid (pduArea mbap.frame) 4 = true := by
    have func : byte0 (pduArea mbap.frame) = 3 := byte 0 (by omega)
    have count : byte1 (pduArea mbap.frame) = 2 := byte 1 (by omega)
    unfold modbusRtuValidateResponse
    rw [func, count, awaits.reqFunc, awaits.reqNb]
    rfl
  have response : modbusRtuHandlerResponseRx s.master.ctx mbap.uid (pduArea mbap.frame) 4 =
      some ⟨.holding, mbap.uid, s.master.ctx.reqRegAddr, s.master.ctx.reqNb, some 2, .read⟩ := by
    rw [modbusRtuHandlerResponseRx, if_neg (not_not.mpr valid), responseCallback, awaits.reqFunc]
    rfl
  have fires : (masterReceive s.master mbap s.log).2 =
      s.log ++ [.fired (replyOf mbap)
        ⟨.holding, mbap.uid, s.master.ctx.reqRegAddr, s.master.ctx.reqNb, some 2, .read⟩] := by
    have tid : (s.master.tid.toNat : Int) - 1 = mbap.tid.toNat := by
      rw [awaits.tid, carries.tid]
      rfl
    have pid : s.master.pid = mbap.pid := by
      rw [awaits.pid, carries.pid]
      rfl
    have handled := congrArg FrameVerdict.handled response
    rw [← length] at handled
    rw [masterReceive, modbusTcpMasterGotFrame, if_neg (not_not.mpr tid),
      if_neg (not_not.mpr pid), handled]
  rw [fires] at run
  exact ⟨_, _, _, run, ⟨awaits.tid, awaits.pid, awaits.reqFunc, awaits.reqNb, frame', rfl⟩,
    carries.uid, rfl⟩

theorem first_request :
    ∃ s tx, [MasterEvent.start, .connector 5 (.replicate 512 0),
        .request (.readHoldingRegisters 1 0 1) acceptAll].foldlM masterStep
          (masterSession blankMaster) = some s ∧ Awaits s ∧
      s.log = [.connection, .sent (.readHoldingRegisters 1 0 1) tx] := by
  have ready := connectedSession_ready blankMaster (show (5 : Int) ≥ 0 by decide) (.replicate 512 0)
  have fits : (MasterCall.readHoldingRegisters 1 0 1).pdu.length ≤ 505 := by decide
  rcases ready_request ready fits with ⟨s, tx, step, -, reader, pid, log⟩
  have run : [MasterEvent.start, .connector 5 (.replicate 512 0),
      .request (.readHoldingRegisters 1 0 1) acceptAll].foldlM masterStep
        (masterSession blankMaster) = some s := by
    change ([MasterEvent.start, .connector 5 (.replicate 512 0)] ++ [_]).foldlM masterStep _ = _
    rw [List.foldlM_append, connect_run blankMaster (by decide), Option.bind_eq_bind,
      Option.bind_some, List.foldlM_cons, step]
    rfl
  have sound := run_masterSound run
  rw [log] at sound
  rcases sound.last _ _ rfl with ⟨func, regAddr, nb, -⟩
  have reset := mbapReaderReset_eq blankMaster.mbapReader
  exact ⟨s, tx, run, ⟨sound.count, pid, func, nb, _, reader.trans reset⟩, log⟩

theorem arriving_eq {mbap mbap' : MbapReader} {arrived : Option MbapReader} {data : UInt8}
    (step : mbapStateMachine (fun mbap _ => (mbap, some mbap)) (mbap, none) data =
      some (mbap', arrived)) : arriving mbap data = arrived := by
  have env := mbapStateMachine_env step
  rw [env]
  cases arriving mbap data <;> rfl

theorem arriving_readerAt {frame : Vector UInt8 260} {count : Nat} {data : UInt8}
    {mbap : MbapReader} (arrives : arriving (readerAt frame count) data = some mbap) :
    ∃ room : count < 260, 7 ≤ count ∧ mbap = readerAt (frame.set count data) (count + 1) := by
  rcases Nat.lt_or_ge count 7 with header | body
  · rw [arriving_eq (step_header header none data)] at arrives
    contradiction
  rcases Nat.lt_or_ge count 260 with room | full
  · have step := @step_pdu _ (fun mbap _ => (mbap, some mbap)) frame count body room none data
    split at step
    · rw [arriving_eq step, Option.some.injEq] at arrives
      exact ⟨room, body, arrives.symm⟩
    · rw [arriving_eq step] at arrives
      contradiction
  · rw [arriving_eq (step_overflow full none data)] at arrives
    contradiction

theorem rx_part {s : MasterSession} {frame : Vector UInt8 260}
    (reader : s.master.mbapReader = readerAt frame 0) {adu : Adu} {part : List UInt8}
    (inside : part <+: adu.bytes) (proper : part.length < adu.bytes.length) :
    (part.map MasterEvent.rx).foldlM masterStep s =
      some (s.withReader (readerAt (blit frame 0 part) part.length, s.log)) := by
  have bounds := adu.length_bounds
  have size := adu.bytes_length
  have quiet : ¬ (InRange (fieldAt part 0) ∧ 6 + fieldAt part 0 ≤ part.length) := by
    rintro ⟨inRange, fits⟩
    rw [fieldAt_part inside (by have := inRange.1; omega), fieldAt_adu] at fits
    omega
  have run := run_quiet (masterReceive s.master) frame s.log part (by omega) quiet
  rw [masterStep_feed, reader, mbapReaderFeed, run, Option.map_some]

theorem inTurn_adu {s : MasterSession} {frame : Vector UInt8 260}
    (reader : s.master.mbapReader = readerAt frame 0) {adu : Adu} {request : MasterCall}
    {tx : List UInt8} (last : s.log.getLast? = some (.sent request tx))
    (unit : adu.uid = request.slave) :
    Along masterStep AnsweredInTurn s (adu.bytes.map MasterEvent.rx) := by
  refine along_iff_prefix.mpr fun before event after split middle next ran _ => ?_
  rcases List.map_eq_append_iff.mp split with ⟨part, rest, bytes, rfl, behind⟩
  rcases List.map_eq_cons_iff.mp behind with ⟨data, later, rfl, rfl, -⟩
  have whole : part ++ [data] <+: adu.bytes := ⟨later, by rw [bytes]; simp⟩
  have inside : part <+: adu.bytes := (List.prefix_append part [data]).trans whole
  have proper : part.length < adu.bytes.length := by
    have := whole.length_le
    rw [List.length_append, List.length_singleton] at this
    omega
  have fed := rx_part reader inside proper
  obtain rfl := Option.some.inj (ran.symm.trans fed)
  intro data' mbap taken arrives _
  obtain rfl := MasterEvent.rx.inj taken
  refine ⟨request, tx, last, ?_⟩
  rcases arriving_readerAt arrives with ⟨room, body, rfl⟩
  have held : front ((blit frame 0 part).set part.length data) (part.length + 1) <+:
      adu.bytes := by
    rw [front_set_succ _ room, front_blit_zero _ _ room.le]
    exact whole
  have uid := (header_held (show 7 ≤ part.length + 1 by omega) room held).2.2.2
  have low : ¬ part.length + 1 < 7 := by omega
  rw [← unit, ← uid]
  simp only [readerAt, low, if_false]

theorem inTurn_quiet {s : MasterSession} {events : List MasterEvent}
    (quiet : ∀ event ∈ events, ∀ data, event ≠ .rx data) :
    Along masterStep AnsweredInTurn s events := by
  induction events generalizing s with
  | nil => trivial
  | cons event events ih =>
      intro next _
      refine ⟨fun data mbap taken => ?_, ih fun event member => ?_⟩
      · exact absurd taken (quiet event (by simp) data)
      · exact quiet event (List.mem_cons_of_mem _ member)

/-- A request and the answer to it. -/
theorem correlated_answered :
    ∃ s reply call, ([MasterEvent.start, .connector 5 (.replicate 512 0),
        .request (.readHoldingRegisters 1 0 1) acceptAll] ++
        (registerReply 1).bytes.map MasterEvent.rx).foldlM masterStep
          (masterSession blankMaster) = some s ∧
      s.log.getLast? = some (.fired reply call) ∧ Correlated s.log := by
  rcases first_request with ⟨s, tx, run, awaits, log⟩
  rcases awaits.reader with ⟨frame, reader⟩
  rcases reply_fires awaits 1 with ⟨next, reply, call, fed, -, -, log'⟩
  have whole : ([MasterEvent.start, .connector 5 (.replicate 512 0),
      .request (.readHoldingRegisters 1 0 1) acceptAll] ++
      (registerReply 1).bytes.map MasterEvent.rx).foldlM masterStep
        (masterSession blankMaster) = some next := by
    rw [List.foldlM_append, run]
    exact fed
  have quiet := @inTurn_quiet (masterSession blankMaster)
    [.start, .connector 5 (.replicate 512 0), .request (.readHoldingRegisters 1 0 1) acceptAll]
    (by simp)
  have turn := @inTurn_adu s frame reader (registerReply 1) _ tx (by rw [log]; rfl) rfl
  exact ⟨next, reply, call, whole, by rw [log', List.getLast?_concat],
    run_correlated whole (along_append quiet run turn)⟩

/-- A callback for a unit that was not asked, and one for a request that was answered
before. -/
theorem correlated_fails :
    (∃ s, ([MasterEvent.start, .connector 5 (.replicate 512 0),
        .request (.readHoldingRegisters 1 0 1) acceptAll] ++
        (registerReply 2).bytes.map MasterEvent.rx).foldlM masterStep
          (masterSession blankMaster) = some s ∧ ¬ Correlated s.log) ∧
      ∃ s, ([MasterEvent.start, .connector 5 (.replicate 512 0),
        .request (.readHoldingRegisters 1 0 1) acceptAll] ++
        ((registerReply 1).bytes ++ (registerReply 1).bytes).map MasterEvent.rx).foldlM masterStep
          (masterSession blankMaster) = some s ∧ ¬ Correlated s.log := by
  rcases first_request with ⟨s, tx, run, awaits, log⟩
  constructor
  · rcases reply_fires awaits 2 with ⟨next, reply, call, fed, -, unit, log'⟩
    refine ⟨next, ?_, ?_⟩
    · rw [List.foldlM_append, run]
      exact fed
    · rintro ⟨m, answered, -⟩
      rw [log', log] at answered
      rcases answered 2 reply call rfl with ⟨earlier, -, request, tx', sent, answers⟩
      interval_cases m 2
      · simp at sent
      · simp only [List.cons_append, List.getElem?_cons_succ, List.getElem?_cons_zero,
          Option.some.injEq, LogEntry.sent.injEq] at sent
        have asked := answers.uid
        rw [unit, ← sent.1] at asked
        exact absurd asked (by decide)
  · rcases reply_fires awaits 1 with ⟨next, reply, call, fed, awaits', -, log'⟩
    rcases reply_fires awaits' 1 with ⟨last, reply', call', fed', -, -, log''⟩
    refine ⟨last, ?_, ?_⟩
    · rw [List.foldlM_append, run, List.map_append, Option.bind_eq_bind, Option.bind_some,
        List.foldlM_append, fed]
      exact fed'
    · rintro ⟨m, answered, once⟩
      rw [log'', log', log] at answered once
      have only {i : Nat} {request : MasterCall} {bytes : List UInt8}
          (sent : [LogEntry.connection, .sent (.readHoldingRegisters 1 0 1) tx,
            .fired reply call, .fired reply' call'][i]? = some (.sent request bytes)) :
          i = 1 := by
        rcases i with _ | _ | _ | _ | i <;> simp at sent ⊢
      rcases answered 2 reply call rfl with ⟨-, -, _, _, sent, -⟩
      rcases answered 3 reply' call' rfl with ⟨-, -, _, _, sent', -⟩
      have same := once 2 3 reply call reply' call' rfl rfl ((only sent).trans (only sent').symm)
      exact absurd same (by decide)

end KongjaExpress.Modbus
