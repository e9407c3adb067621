import KongjaExpress.Modbus.RtuBus

/-! The slaves of a line do not disturb each other. -/

namespace KongjaExpress.Modbus

open BigEndian Framing Memory Transport Utils

variable {σ : Type} {k : Nat}

section Length

def LeavesShort (r : MBException × Handling σ k) : Prop := r.1 = .none → r.2.usLen.toNat ≤ 252

theorem leavesShort_refusal (h : Handling σ k) : LeavesShort (.illegalDataValue, h) := nofun

theorem leavesShort_conclude {status : MBErrorCode} {failed answered : Handling σ k}
    (short : answered.usLen.toNat ≤ 252) : LeavesShort (conclude status failed answered) := by
  unfold conclude
  split
  · rename_i error
    exact fun none => absurd (prveMBError2Exception_none_iff.mp none) error
  · exact fun _ => short

variable (ctx : ModbusSlaveCTX σ) (addr : UInt8) {h : Handling σ k}

theorem answerRead_leavesShort (kind : RegKind) (code byteCount : UInt8)
    (growth usRegAddress usCount : UInt16) (bound : growth.toNat ≤ 250) :
    LeavesShort (answerRead ctx kind code byteCount growth addr usRegAddress usCount h) := by
  apply leavesShort_conclude
  change (2 + growth).toNat ≤ 252
  rw [UInt16.toNat_add]
  exact (Nat.mod_le _ _).trans (Nat.add_le_add_left bound 2)

theorem readHandler_leavesShort (f : ReadFunction) : LeavesShort (readHandler f ctx addr h) := by
  by_cases called : f.Called h.usLen h.pucFrame
  · rw [readHandler_called ctx addr called]
    have fits := f.fits _ called.2
    exact answerRead_leavesShort ctx addr _ _ _ _ _ _ (by omega)
  · rw [readHandler_refused ctx addr called]
    exact leavesShort_refusal h

theorem writeHandler_leavesShort (f : WriteFunction) :
    LeavesShort (writeHandler f ctx addr h) := by
  by_cases called : f.Called h.usLen h.pucFrame
  · rw [writeHandler_called ctx addr called]
    exact leavesShort_conclude (show (5 : UInt16).toNat ≤ 252 by decide)
  · rw [writeHandler_refused ctx addr called]
    exact leavesShort_refusal h

theorem writeHoldingRegister_leavesShort (short : h.usLen.toNat ≤ 252) :
    LeavesShort (modbusFuncHandlerWriteHoldingRegister ctx addr h) := by
  unfold modbusFuncHandlerWriteHoldingRegister
  split
  · exact leavesShort_conclude short
  · exact leavesShort_refusal h

theorem writeCoil_leavesShort (short : h.usLen.toNat ≤ 252) :
    LeavesShort (modbusFuncHandlerWriteCoil ctx addr h) := by
  by_cases called : CoilCalled h.usLen h.pucFrame
  · rw [writeCoil_called ctx addr called]
    exact leavesShort_conclude short
  · rw [writeCoil_refused ctx addr called]
    exact leavesShort_refusal h

theorem readWrite_leavesShort (short : h.usLen.toNat ≤ 252) :
    LeavesShort (modbusFuncHandlerReadWriteMultipleHoldingRegisters ctx addr h) := by
  by_cases long : h.usLen ≥ 10
  · by_cases accepts : ReadWriteAccepts h.pucFrame
    · rw [readWrite_called ctx addr long accepts]
      split
      · apply answerRead_leavesShort
        have small : (word3 h.pucFrame).toNat ≤ 125 := UInt16.le_iff_toNat_le.mp accepts.2.1
        rw [UInt16.toNat_mul]
        exact (Nat.mod_le _ _).trans (Nat.mul_le_mul_left 2 small)
      · rename_i error
        exact fun none => absurd (prveMBError2Exception_none_iff.mp none) error
    · rw [readWrite_refused ctx addr long accepts]
      exact leavesShort_refusal h
  · rw [readWrite_short ctx addr long]
    exact fun _ => short

theorem dispatch_leavesShort (func : UInt8) (short : h.usLen.toNat ≤ 252) :
    LeavesShort (requestDispatch func ctx addr h) := by
  unfold requestDispatch
  split
  · exact readHandler_leavesShort ctx addr _
  · exact readHandler_leavesShort ctx addr _
  · exact writeHandler_leavesShort ctx addr _
  · exact writeHoldingRegister_leavesShort ctx addr short
  · exact readWrite_leavesShort ctx addr short
  · exact readHandler_leavesShort ctx addr _
  · exact writeCoil_leavesShort ctx addr short
  · exact writeHandler_leavesShort ctx addr _
  · exact readHandler_leavesShort ctx addr _
  · exact nofun

theorem requestRx_short {len : UInt16} (short : len.toNat ≤ 252) (pdu : Vector UInt8 (253 + k))
    (store : σ) : (modbusRtuHandlerRequestRx ctx addr len pdu store).rspLen.toNat ≤ 252 := by
  have leaves := dispatch_leavesShort ctx addr (h := requested len pdu store) pdu[0] short
  unfold modbusRtuHandlerRequestRx requestFinish
  dsimp only
  split
  · exact (show (2 : UInt16).toNat ≤ 252 by decide)
  · rename_i none
    exact leaves (not_not.mp none)

end Length

structure Direct (address : UInt8) (slave : ModbusRTUSlave σ) : Prop where
  sound : RtuSound address slave
  direct : circBufferIsEmpty slave.stream.txBuf = true

structure ReplyTo (address : UInt8) (held reply : List UInt8) : Prop where
  addressed : held.headD 0 = address
  unicast : address ≠ 0
  head : reply.headD 0 = address
  nonempty : reply ≠ []
  short : reply.length < 256

structure Paused (ctx : ModbusSlaveCTX σ) (address : UInt8) (slave next : ModbusRTUSlave σ)
    (reply : Option (List UInt8)) : Prop where
  attends : Attends ctx address (slave.held, reply) slave.station next.station
  sent : next.sent = slave.sent ++ reply.getD []
  ready : next.dataNdx = 0
  direct : Direct address next
  replyTo : ∀ tx, reply = some tx → ReplyTo address slave.held tx

def Observed.station (seen : Observed σ 768) : Station σ := ⟨seen.store, seen.calls, seen.sent⟩

theorem observed_station (slave : ModbusRTUSlave σ) : slave.observed.station = slave.station := rfl

/-- The handler works on the frame's PDU, whatever is behind it in the buffer. -/
theorem response_holds {address : UInt8} {slave : ModbusRTUSlave σ} (sound : RtuSound address slave)
    (valid : ValidFrame slave.held) (ctx : ModbusSlaveCTX σ) :
    slave.response ctx = modbusRtuHandlerRequestRx ctx (slave.held.headD 0)
        (.ofNat (rtuPdu slave.held).length) (rtuPduArea slave.dataBuffer) slave.store ∧
      front (rtuPduArea slave.dataBuffer) (rtuPdu slave.held).length = rtuPdu slave.held := by
  have receives := receives_held sound
  have first : rtuAddr slave.dataBuffer = slave.held.headD 0 := received_address receives valid
  unfold ModbusRTUSlave.response rtuResponse
  rw [first, rtuPdu_length]
  exact ⟨rfl, rtuPdu_length slave.held ▸ received_pdu receives⟩

theorem response_short {address : UInt8} {slave : ModbusRTUSlave σ}
    (sound : RtuSound address slave) (valid : ValidFrame slave.held) (ctx : ModbusSlaveCTX σ) :
    PduLength (slave.response ctx).rspLen ∧ (slave.response ctx).rspLen.toNat ≤ 252 := by
  have small : slave.held.length < 256 := (receives_held sound).small
  refine ⟨response_length sound valid ctx, ?_⟩
  rw [(response_holds sound valid ctx).1]
  apply requestRx_short
  rw [rtuPdu_length, toNat_pduSize small]
  omega

theorem sent_whole {seen : Observed σ 768}
    (direct : circBufferIsEmpty seen.stream.txBuf = true) (tx : List UInt8)
    (r : RequestResult σ 2) :
    (seen.execute r).send acceptAll tx = { seen.execute r with sent := seen.sent ++ tx } := by
  have through : streamWrite (seen.execute r).stream tx (acceptAll tx) = ⟨true, seen.stream, tx⟩ :=
    streamWrite_acceptAll tx direct
  unfold Observed.send
  rw [through]
  rfl

theorem t35_seen (ctx : ModbusSlaveCTX σ) {address : UInt8} {slave next : ModbusRTUSlave σ}
    (direct : Direct address slave) (expired : t35TimeoutHandler ctx acceptAll slave = some next) :
    (¬ (ValidFrame slave.held ∧ Addressed address (slave.held.headD 0)) →
      next.observed = slave.observed) ∧
    (ValidFrame slave.held → slave.held.headD 0 = 0 →
      next.observed = slave.observed.execute (slave.response ctx)) ∧
    (ValidFrame slave.held → slave.held.headD 0 = address → address ≠ 0 →
      next.observed = { slave.observed.execute (slave.response ctx) with
        sent := slave.sent ++ rtuFrame address
          (front (slave.response ctx).pdu (slave.response ctx).rspLen.toNat) }) := by
  have sound := direct.sound
  have expiry := t35_expiry ctx acceptAll sound expired
  refine ⟨expiry.ignored, expiry.broadcast, fun valid mine unicast => ?_⟩
  rcases t35_spec ctx acceptAll sound with ⟨next', expired', -, -, observed⟩
  obtain rfl := Option.some.inj (expired'.symm.trans expired)
  have first : rtuAddr slave.dataBuffer = address :=
    (received_address (receives_held sound) valid).trans mine
  have answers : Addressed slave.myAddress (rtuAddr slave.dataBuffer) :=
    Or.inl (first.trans sound.address.symm)
  rw [observed, expiredObserved, if_pos valid, rtuHandled]
  dsimp only
  rw [if_pos answers, if_pos (first.symm ▸ unicast), first]
  exact sent_whole direct.direct _ _

theorem t35_paused (ctx : ModbusSlaveCTX σ) {address : UInt8} {slave next : ModbusRTUSlave σ}
    (direct : Direct address slave)
    (expired : t35TimeoutHandler ctx acceptAll slave = some next) :
    ∃ reply, Paused ctx address slave next reply := by
  have sound := direct.sound
  rcases t35_seen ctx direct expired with ⟨ignored, broadcast, answered⟩
  rcases t35_reset ctx acceptAll slave next expired with ⟨ready, same⟩
  have after : RtuSound address next := ⟨by rw [ready]; decide, same.trans sound.address⟩
  by_cases acted : ValidFrame slave.held ∧ Addressed address (slave.held.headD 0)
  · rcases acted with ⟨valid, addressed⟩
    rcases response_holds sound valid ctx with ⟨response, holds⟩
    by_cases zero : slave.held.headD 0 = 0
    · have seen := broadcast valid zero
      rw [zero] at response
      have station : next.station = (slave.observed.execute (slave.response ctx)).station :=
        congrArg Observed.station seen
      refine ⟨none, ?_, ?_, ready, ⟨after, ?_⟩, nofun⟩
      · rw [station]
        exact .broadcast slave.station _ valid zero holds response
      · exact (congrArg Observed.sent seen).trans (List.append_nil _).symm
      · rw [show next.stream = slave.stream from congrArg Observed.stream seen]
        exact direct.direct
    · have mine : slave.held.headD 0 = address := addressed.resolve_right zero
      have unicast : address ≠ 0 := mine ▸ zero
      have seen := answered valid mine unicast
      rw [mine] at response
      rcases response_short sound valid ctx with ⟨length, short⟩
      refine ⟨some _, ?_, congrArg Observed.sent seen, ready, ⟨after, ?_⟩, ?_⟩
      · rw [show next.station = _ from congrArg Observed.station seen]
        exact .answered slave.station _ valid mine unicast holds response rfl
      · rw [show next.stream = slave.stream from congrArg Observed.stream seen]
        exact direct.direct
      · intro tx same
        obtain rfl := Option.some.inj same
        refine ⟨mine, unicast, rfl, nofun, ?_⟩
        change (rtuFrame address _).length < 256
        rw [rtuFrame_length, front_length _ (by have := length.2; omega)]
        omega
  · have seen := ignored acted
    refine ⟨none, ?_, ?_, ready, ⟨after, ?_⟩, nofun⟩
    · rw [show next.station = slave.station from congrArg Observed.station seen]
      exact .ignored slave.station acted
    · exact (congrArg Observed.sent seen).trans (List.append_nil _).symm
    · rw [show next.stream = slave.stream from congrArg Observed.stream seen]
      exact direct.direct

theorem Paused.foreign {ctx : ModbusSlaveCTX σ} {address : UInt8} {slave next : ModbusRTUSlave σ}
    {reply : Option (List UInt8)} (paused : Paused ctx address slave next reply)
    (foreign : ¬ Addressed address (slave.held.headD 0)) :
    reply = none ∧ next.station = slave.station := by
  have attends := paused.attends
  generalize slave.station = before, next.station = after at attends
  cases attends with
  | ignored s other => exact ⟨rfl, rfl⟩
  | broadcast s pdu valid zero holds handled => exact absurd (Or.inr zero) foreign
  | answered s pdu valid mine unicast holds handled replied => exact absurd (Or.inl mine) foreign

theorem modbusRtuRx_direct {address : UInt8} {slave : ModbusRTUSlave σ}
    (direct : Direct address slave) (chunk : RxChunk) :
    Direct address (modbusRtuRx slave chunk) := by
  refine ⟨modbusRtuRx_sound direct.sound chunk, ?_⟩
  have stream : (modbusRtuRx slave chunk).stream = slave.stream := by
    unfold modbusRtuRx
    dsimp only
    split <;> rfl
  rw [stream]
  exact direct.direct

theorem modbusRtuRx_held {address : UInt8} {slave : ModbusRTUSlave σ} (direct : Direct address slave)
    {chunk : RxChunk} (room : slave.held.length + chunk.val.length < 256) :
    (modbusRtuRx slave chunk).held = slave.held ++ chunk.val ∧
      (modbusRtuRx slave chunk).station = slave.station := by
  have receives := modbusRtuRx_receives (receives_held direct.sound) chunk
  have seen := (modbusRtuRx_observed slave chunk).1
  have whole : Reception.take ⟨slave.held, 256⟩ chunk =
      ⟨slave.held ++ chunk.val, max 256 (slave.held ++ chunk.val).length⟩ := by
    simp only [Reception.take]
    rw [if_neg (by omega)]
  rw [whole] at receives
  constructor
  · rw [ModbusRTUSlave.held, receives.ndx, receives.held]
  · rw [← observed_station, seen, observed_station]

section Line

variable {n : Nat}

def Attended (ctx : ModbusSlaveCTX σ) (address : UInt8) (i : Fin n) (store : σ)
    (rounds : List (Round n)) (slave : ModbusRTUSlave σ) : Prop :=
  Emits (Attends ctx address) (rounds.map fun round => (round.request, round.replyOf i))
    ⟨store, [], []⟩ slave.station

/-- Where a slave is in the rounds: it has heard everything, or it hears the last request, or
the answer of another slave. -/
inductive Hears (ctx : ModbusSlaveCTX σ) (address : UInt8) (i : Fin n) (store : σ)
    (rounds : List (Round n)) (slave : ModbusRTUSlave σ) (line : List (List UInt8)) : Prop
  | settled (attended : Attended ctx address i store rounds slave) (empty : slave.held = [])
      (silent : line = [])
  | asked {earlier : List (Round n)} {round : Round n} {rest : List UInt8}
      (last : rounds = earlier ++ [round]) (attended : Attended ctx address i store earlier slave)
      (hearing : slave.held ++ rest = round.request) (other : round.replyOf i = none)
      (behind : line = rest :: round.reply.toList.map Prod.snd)
  | listening {earlier : List (Round n)} {round : Round n} {j : Fin n} {reply rest : List UInt8}
      (last : rounds = earlier ++ [round]) (attended : Attended ctx address i store rounds slave)
      (other : j ≠ i) (replied : round.reply = some (j, reply))
      (hearing : slave.held ++ rest = reply) (behind : line = [rest])

structure Fair (address : Fin n → UInt8) (round : Round n) : Prop where
  short : round.request.length < 256
  reply : ∀ reply, round.reply = some reply → ReplyTo (address reply.1) round.request reply.2

structure InTurn (ctx : Fin n → ModbusSlaveCTX σ) (address : Fin n → UInt8) (store : Fin n → σ)
    (bus : RtuBus σ n) (rounds : List (Round n)) : Prop where
  passed : bus.passed = rounds.flatMap Round.frames
  fair : ∀ round ∈ rounds, Fair address round
  direct : ∀ i, Direct (address i) (bus.slaves i)
  hears : ∀ i, Hears (ctx i) (address i) i (store i) rounds (bus.slaves i) (bus.line i)

section Slave

variable {ctx : ModbusSlaveCTX σ} {address : UInt8} {i : Fin n} {store : σ}
  {rounds : List (Round n)} {slave next : ModbusRTUSlave σ} {line : List (List UInt8)}

theorem Hears.silent (hears : Hears ctx address i store rounds slave line) (silent : line = []) :
    Attended ctx address i store rounds slave ∧ slave.held = [] := by
  cases hears with
  | settled attended empty none => exact ⟨attended, empty⟩
  | asked last attended hearing other behind =>
      rw [silent] at behind
      contradiction
  | listening last attended other replied hearing behind =>
      rw [silent] at behind
      contradiction

theorem Attended.add {round : Round n} {reply : Option (List UInt8)}
    (attended : Attended ctx address i store rounds slave)
    (attends : Attends ctx address (round.request, reply) slave.station next.station)
    (own : round.replyOf i = reply) : Attended ctx address i store (rounds ++ [round]) next := by
  rw [Attended, List.map_append, List.map_singleton, own]
  exact attended.append (.cons attends (.nil _))

theorem Attended.keep (attended : Attended ctx address i store rounds slave)
    (station : next.station = slave.station) : Attended ctx address i store rounds next := by
  rw [Attended, station]
  exact attended

theorem Hears.request (attended : Attended ctx address i store rounds slave)
    (empty : slave.held = []) (frame : List UInt8) :
    Hears ctx address i store (rounds ++ [⟨frame, none⟩]) slave ([] ++ [frame]) :=
  .asked rfl attended (by rw [empty, List.nil_append]) rfl rfl

theorem heard_more {held rest whole chunk : List UInt8} (hearing : held ++ rest = whole)
    (more : chunk <+: rest) (short : whole.length < 256) :
    held ++ chunk ++ rest.drop chunk.length = whole ∧ held.length + chunk.length < 256 := by
  rcases more with ⟨tail, rfl⟩
  rw [← hearing] at short ⊢
  simp only [List.length_append] at short
  refine ⟨?_, by omega⟩
  rw [List.drop_left, List.append_assoc]

theorem Hears.hear {deviceAddr : Fin n → UInt8} {chunk : RxChunk} (direct : Direct address slave)
    (fair : ∀ round ∈ rounds, Fair deviceAddr round)
    (hears : Hears ctx address i store rounds slave line) (full : chunk.val ≠ [])
    (more : chunk.val <+: line.headD []) :
    Hears ctx address i store rounds (modbusRtuRx slave chunk)
      ((line.headD []).drop chunk.val.length :: line.tail) := by
  cases hears with
  | settled attended empty silent =>
      rw [silent] at more
      exact absurd (List.prefix_nil.mp more) full
  | asked last attended hearing other behind =>
      rename_i earlier round rest
      subst behind
      have short := (fair round (last ▸ List.mem_append_right _ List.mem_cons_self)).short
      rcases heard_more hearing more short with ⟨hearing', room⟩
      rcases modbusRtuRx_held direct room with ⟨held, station⟩
      exact .asked last (attended.keep station) (by rw [held]; exact hearing') other rfl
  | listening last attended other replied hearing behind =>
      rename_i earlier round j reply rest
      subst behind
      have member := fair round (last ▸ List.mem_append_right _ List.mem_cons_self)
      have short := (member.reply _ replied).short
      rcases heard_more hearing more short with ⟨hearing', room⟩
      rcases modbusRtuRx_held direct room with ⟨held, station⟩
      exact .listening last (attended.keep station) other replied (by rw [held]; exact hearing') rfl

theorem Hears.answer {earlier : List (Round n)} {round : Round n} {j : Fin n} {tx : List UInt8}
    (hears : Hears ctx address i store (earlier ++ [round]) slave line)
    (unanswered : round.reply = none) (other : j ≠ i) :
    Hears ctx address i store (earlier ++ [{ round with reply := some (j, tx) }]) slave
      (line ++ [tx]) := by
  have apart : ({ round with reply := some (j, tx) } : Round n).replyOf i = none := by
    simp [Round.replyOf, other]
  have before : round.replyOf i = none := by
    simp [Round.replyOf, unanswered]
  have keeps (attended : Attended ctx address i store (earlier ++ [round]) slave) :
      Attended ctx address i store (earlier ++ [{ round with reply := some (j, tx) }]) slave := by
    rw [Attended, List.map_append, List.map_singleton, apart]
    rw [Attended, List.map_append, List.map_singleton, before] at attended
    exact attended
  cases hears with
  | settled attended empty silent =>
      exact .listening rfl (keeps attended) other rfl (by rw [empty, List.nil_append])
        (by rw [silent, List.nil_append])
  | asked last attended hearing none behind =>
      rename_i earlier' round' rest
      rcases List.append_inj' last rfl with ⟨rfl, same⟩
      obtain rfl := List.head_eq_of_cons_eq same
      exact .asked rfl attended hearing apart (by rw [behind, unanswered]; rfl)
  | listening last attended other' replied hearing behind =>
      rename_i earlier' round' k reply rest
      obtain rfl := List.head_eq_of_cons_eq (List.append_inj' last rfl).2
      rw [unanswered] at replied
      contradiction

theorem held_of_ready (ready : slave.dataNdx = 0) : slave.held = [] := by
  rw [ModbusRTUSlave.held, ready]
  exact front_zero _

end Slave

variable {ctx : Fin n → ModbusSlaveCTX σ} {address : Fin n → UInt8} {store : Fin n → σ}
  {bus : RtuBus σ n} {rounds : List (Round n)}

theorem InTurn.request (turn : InTurn ctx address store bus rounds) {frame : List UInt8}
    (short : frame.length < 256) (silent : ∀ i, bus.line i = []) :
    InTurn ctx address store (bus.put none frame) (rounds ++ [⟨frame, none⟩]) where
  passed := by
    rw [List.flatMap_append, ← turn.passed]
    rfl
  fair round member := by
    rcases List.mem_append.mp member with before | now
    · exact turn.fair round before
    · obtain rfl := List.mem_singleton.mp now
      exact ⟨short, nofun⟩
  direct := turn.direct
  hears i := by
    rcases (turn.hears i).silent (silent i) with ⟨attended, empty⟩
    have line : (bus.put none frame).line i = [] ++ [frame] := by
      simp [RtuBus.put, silent i]
    rw [line]
    exact Hears.request attended empty frame

theorem InTurn.hear (turn : InTurn ctx address store bus rounds) {i : Fin n} {chunk : RxChunk}
    (full : chunk.val ≠ []) (more : chunk.val <+: (bus.line i).headD []) :
    InTurn ctx address store { bus with
      slaves := Function.update bus.slaves i (modbusRtuRx (bus.slaves i) chunk)
      line := Function.update bus.line i
        (((bus.line i).headD []).drop chunk.val.length :: (bus.line i).tail) } rounds where
  passed := turn.passed
  fair := turn.fair
  direct j := by
    change Direct (address j) (Function.update bus.slaves i _ j)
    by_cases same : j = i
    · subst same
      rw [Function.update_self]
      exact modbusRtuRx_direct (turn.direct j) chunk
    · rw [Function.update_of_ne same]
      exact turn.direct j
  hears j := by
    change Hears _ _ _ _ _ (Function.update bus.slaves i _ j) (Function.update bus.line i _ j)
    by_cases same : j = i
    · subst same
      rw [Function.update_self, Function.update_self]
      exact (turn.hears j).hear (turn.direct j) turn.fair full more
    · rw [Function.update_of_ne same, Function.update_of_ne same]
      exact turn.hears j

theorem direct_update {slaves : Fin n → ModbusRTUSlave σ} {i : Fin n} {next : ModbusRTUSlave σ}
    (direct : ∀ j, Direct (address j) (slaves j)) (here : Direct (address i) next) (j : Fin n) :
    Direct (address j) (Function.update slaves i next j) := by
  by_cases same : j = i
  · subst same
    rw [Function.update_self]
    exact here
  · rw [Function.update_of_ne same]
    exact direct j

theorem InTurn.quiet (turn : InTurn ctx address store bus rounds) {i : Fin n}
    {next : ModbusRTUSlave σ} (paused : Paused (ctx i) (address i) (bus.slaves i) next none)
    (hears : Hears (ctx i) (address i) i (store i) rounds next (bus.line i).tail) :
    InTurn ctx address store (bus.expire i next) rounds := by
  have silent : next.sent.drop (bus.slaves i).sent.length = [] := by
    rw [paused.sent]
    simp
  rw [RtuBus.expire, if_pos silent]
  constructor
  · exact turn.passed
  · exact turn.fair
  · exact direct_update turn.direct paused.direct
  · intro j
    change Hears _ _ _ _ _ (Function.update bus.slaves i _ j) (Function.update bus.line i _ j)
    by_cases same : j = i
    · subst same
      rw [Function.update_self, Function.update_self]
      exact hears
    · rw [Function.update_of_ne same, Function.update_of_ne same]
      exact turn.hears j

theorem InTurn.answer {earlier : List (Round n)} {round : Round n} {i : Fin n}
    {next : ModbusRTUSlave σ} {tx : List UInt8}
    (turn : InTurn ctx address store bus (earlier ++ [round])) (unanswered : round.reply = none)
    (attended : Attended (ctx i) (address i) i (store i) earlier (bus.slaves i))
    (heard : (bus.slaves i).held = round.request) (line : bus.line i = [[]])
    (paused : Paused (ctx i) (address i) (bus.slaves i) next (some tx)) :
    InTurn ctx address store (bus.expire i next)
      (earlier ++ [{ round with reply := some (i, tx) }]) := by
  have replyTo := paused.replyTo tx rfl
  have sent : next.sent.drop (bus.slaves i).sent.length = tx := by
    rw [paused.sent]
    exact List.drop_left
  have attends := paused.attends
  rw [heard] at attends replyTo
  rw [RtuBus.expire, if_neg (by rw [sent]; exact replyTo.nonempty)]
  constructor
  · change bus.passed ++ [⟨some i, _⟩] = _
    rw [turn.passed, sent]
    simp [Round.frames, unanswered]
  · intro other member
    rcases List.mem_append.mp member with before | now
    · exact turn.fair other (List.mem_append_left _ before)
    · obtain rfl := List.mem_singleton.mp now
      refine ⟨(turn.fair round (by simp)).short, fun reply same => ?_⟩
      obtain rfl := Option.some.inj same
      exact replyTo
  · exact direct_update turn.direct paused.direct
  · intro j
    change Hears _ _ _ _ _ (Function.update bus.slaves i _ j)
      (if some i = some j then Function.update bus.line i _ j
        else Function.update bus.line i _ j ++ [_])
    by_cases same : j = i
    · subst same
      rw [if_pos rfl, Function.update_self, Function.update_self, line]
      have own : ({ round with reply := some (j, tx) } : Round n).replyOf j = some tx := by
        simp [Round.replyOf]
      exact .settled (attended.add attends own) (held_of_ready paused.ready) rfl
    · have other : i ≠ j := fun back => same back.symm
      rw [if_neg (by simpa using other), Function.update_of_ne same, Function.update_of_ne same,
        sent]
      exact (turn.hears j).answer unanswered other

theorem InTurn.pause (injective : Function.Injective address)
    (turn : InTurn ctx address store bus rounds) {i : Fin n} {next : ModbusRTUSlave σ}
    (heard : (bus.line i).head? = some [])
    (expired : t35TimeoutHandler (ctx i) acceptAll (bus.slaves i) = some next) :
    ∃ rounds', InTurn ctx address store (bus.expire i next) rounds' := by
  rcases t35_paused (ctx i) (turn.direct i) expired with ⟨reply, paused⟩
  have hears := turn.hears i
  generalize place : bus.line i = line at hears heard
  cases hears with
  | settled attended empty silent =>
      rw [silent] at heard
      contradiction
  | asked last attended hearing other behind =>
      rename_i earlier round rest
      subst last behind
      obtain rfl := Option.some.inj heard
      rw [List.append_nil] at hearing
      cases reply with
      | none =>
          refine ⟨_, turn.quiet paused ?_⟩
          have attended' := attended.add (hearing ▸ paused.attends) other
          rw [place, List.tail_cons]
          cases answer : round.reply with
          | none => exact .settled attended' (held_of_ready paused.ready) rfl
          | some answer' =>
              have apart : answer'.1 ≠ i := by
                intro same
                simp [Round.replyOf, answer, same] at other
              exact .listening rfl attended' apart answer
                (by rw [held_of_ready paused.ready, List.nil_append]) rfl
      | some tx =>
          have mine := (paused.replyTo tx rfl).addressed
          have unanswered : round.reply = none := by
            by_contra answered
            rcases Option.ne_none_iff_exists'.mp answered with ⟨answer, replied⟩
            have addressed := ((turn.fair round (by simp)).reply answer replied).addressed
            have same : answer.1 = i := injective (by rw [← addressed, ← mine, hearing])
            simp [Round.replyOf, replied, same] at other
          rw [unanswered] at place
          exact ⟨_, turn.answer unanswered attended hearing place paused⟩
  | listening last attended other replied hearing behind =>
      rename_i earlier round j answer rest
      subst last behind
      obtain rfl := Option.some.inj heard
      rw [List.append_nil] at hearing
      have replyTo := (turn.fair round (by simp)).reply _ replied
      have foreign : ¬ Addressed (address i) ((bus.slaves i).held.headD 0) := by
        rw [hearing, replyTo.head]
        rintro (same | zero)
        · exact other (injective same)
        · exact replyTo.unicast zero
      rcases paused.foreign foreign with ⟨rfl, station⟩
      refine ⟨_, turn.quiet paused ?_⟩
      rw [place]
      exact .settled (attended.keep station) (held_of_ready paused.ready) rfl

theorem busStep_inTurn (injective : Function.Injective address) (bus : RtuBus σ n)
    (event : BusEvent n) (next : RtuBus σ n) (turn : ∃ rounds, InTurn ctx address store bus rounds)
    (taken : busStep ctx bus event = some next) :
    ∃ rounds, InTurn ctx address store next rounds := by
  rcases turn with ⟨rounds, turn⟩
  cases event with
  | request frame =>
      rcases Option.ite_none_right_eq_some.mp taken with ⟨⟨-, short, silent⟩, put⟩
      obtain rfl := Option.some.inj put
      exact ⟨_, turn.request short silent⟩
  | hear i chunk =>
      rcases Option.ite_none_right_eq_some.mp taken with ⟨⟨full, more⟩, heard⟩
      obtain rfl := Option.some.inj heard
      exact ⟨rounds, turn.hear full (List.isPrefixOf_iff_prefix.mp more)⟩
  | pause i =>
      rcases Option.ite_none_right_eq_some.mp taken with ⟨heard, paused⟩
      rcases Option.map_eq_some_iff.mp paused with ⟨slave, expired, rfl⟩
      exact turn.pause injective heard expired

theorem rtuBusInit_inTurn (memory : Fin n → Vector UInt8 256) (fd : Fin n → Int)
    (heap : Fin n → Vector UInt8 768) :
    InTurn ctx address store (rtuBusInit memory address fd heap store) [] where
  passed := rfl
  fair _ member := absurd member List.not_mem_nil
  direct _ := ⟨rtuInit_sound _ _ _ _ _, rfl⟩
  hears _ := .settled (.nil _) (held_of_ready rfl) rfl

theorem Hears.attended {i : Fin n} {slave : ModbusRTUSlave σ} {line : List (List UInt8)}
    (hears : Hears (ctx i) (address i) i (store i) rounds slave line) :
    ∃ heard, heard <+: rounds ∧ rounds.length ≤ heard.length + 1 ∧
      (line = [] → heard = rounds) ∧ Attended (ctx i) (address i) i (store i) heard slave := by
  cases hears with
  | settled attended empty silent =>
      exact ⟨rounds, List.prefix_rfl, Nat.le_succ _, fun _ => rfl, attended⟩
  | listening last attended other replied hearing behind =>
      exact ⟨rounds, List.prefix_rfl, Nat.le_succ _, fun _ => rfl, attended⟩
  | asked last attended hearing other behind =>
      rename_i earlier round rest
      refine ⟨earlier, last ▸ List.prefix_append _ _, by simp [last], fun silent => ?_, attended⟩
      rw [silent] at behind
      contradiction

section Tests

def twoAddresses (i : Fin 2) : UInt8 := .ofNat (i + 1)

def twoRounds : List (BusEvent 2) :=
  [.request (rtuFrame 1 [6, 0, 0, 0, 7]), .hear 0 ⟨[1, 6, 0], by decide⟩,
    .hear 1 writeRequest,
    .hear 0 ⟨(rtuFrame 1 [6, 0, 0, 0, 7]).drop 3, by decide⟩, .pause 0, .pause 1,
    .hear 1 writeRequest, .pause 1,
    .request (rtuFrame 0 [6, 0, 1, 0, 9]), .hear 1 ⟨rtuFrame 0 [6, 0, 1, 0, 9], by decide⟩,
    .pause 1]

end Tests

end Line

end KongjaExpress.Modbus
