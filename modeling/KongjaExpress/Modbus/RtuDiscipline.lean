import KongjaExpress.Modbus.RtuRun

/-! What a serial slave does at each event of a run. -/

namespace KongjaExpress.Modbus

open BigEndian Memory Transport

variable {σ : Type}

structure RtuReply (address : UInt8) (r : RequestResult σ 2) (reply : List UInt8) : Prop where
  address : reply.head? = some address
  bounds : 4 ≤ reply.length ∧ reply.length ≤ 256
  carries : rtuPdu reply = front r.pdu r.rspLen.toNat
  crc : modbusCalcCrc reply = 0

/-- A timeout acts on valid frames for this slave only, answers those that are not
broadcast, once, and leaves the receiver empty. -/
structure Expiry (ctx : ModbusSlaveCTX σ) (kernel : List UInt8 → WriteResult) (address : UInt8)
    (slave next : ModbusRTUSlave σ) : Prop where
  index : next.dataNdx = 0
  ignored : ¬ (ValidFrame slave.held ∧ Addressed address (slave.held.headD 0)) →
    next.observed = slave.observed
  broadcast : ValidFrame slave.held → slave.held.headD 0 = 0 →
    next.observed = slave.observed.execute (slave.response ctx)
  answered : ValidFrame slave.held → slave.held.headD 0 = address → slave.held.headD 0 ≠ 0 →
    ∃ reply, RtuReply address (slave.response ctx) reply ∧
      next.observed = (slave.observed.execute (slave.response ctx)).send kernel reply

/-- Nothing but a timeout makes callbacks or writes to the stream. -/
def RtuDiscipline (ctx : ModbusSlaveCTX σ) (address : UInt8) (slave : ModbusRTUSlave σ)
    (event : RtuEvent) (next : ModbusRTUSlave σ) : Prop :=
  match event with
  | .rx _ => next.observed = slave.observed
  | .t35 kernel => Expiry ctx kernel address slave next
  | .writable result => ∃ stream accepted,
      streamHandleTxEvent slave.stream result = some (stream, accepted) ∧
        next.observed =
          { slave.observed with stream := stream, sent := slave.sent ++ accepted }

theorem rtuFrame_length (address : UInt8) (pdu : List UInt8) :
    (rtuFrame address pdu).length = pdu.length + 3 := by
  simp [rtuFrame]

theorem rtuPdu_rtuFrame (address : UInt8) (pdu : List UInt8) :
    rtuPdu (rtuFrame address pdu) = pdu := by
  unfold rtuPdu
  rw [rtuFrame_length, Nat.add_sub_cancel]
  exact List.take_left

theorem rtuFrame_reply (address : UInt8) {r : RequestResult σ 2} (length : PduLength r.rspLen) :
    RtuReply address r (rtuFrame address (front r.pdu r.rspLen.toNat)) := by
  have bounds := length
  unfold PduLength at bounds
  have size : (front r.pdu r.rspLen.toNat).length = r.rspLen.toNat := front_length _ (by omega)
  constructor
  · rfl
  · rw [rtuFrame_length, size]
    omega
  · exact rtuPdu_rtuFrame address _
  · exact rtuFrame_crc address _

theorem response_length {address : UInt8} {slave : ModbusRTUSlave σ}
    (sound : RtuSound address slave) (valid : ValidFrame slave.held) (ctx : ModbusSlaveCTX σ) :
    PduLength (slave.response ctx).rspLen :=
  rtuResponse_length ctx slave.store valid.1 (receives_held sound).small slave.dataBuffer

theorem t35_expiry (ctx : ModbusSlaveCTX σ) (kernel : List UInt8 → WriteResult)
    {address : UInt8} {slave next : ModbusRTUSlave σ} (sound : RtuSound address slave)
    (expired : t35TimeoutHandler ctx kernel slave = some next) :
    Expiry ctx kernel address slave next := by
  rcases t35_spec ctx kernel sound with ⟨next', expired', ndx, -, observed⟩
  obtain rfl := Option.some.inj (expired'.symm.trans expired)
  have first (valid : ValidFrame slave.held) : rtuAddr slave.dataBuffer = slave.held.headD 0 :=
    received_address (receives_held sound) valid
  unfold expiredObserved at observed
  rw [sound.address] at observed
  constructor
  · exact ndx
  · intro other
    by_cases valid : ValidFrame slave.held
    · rw [if_pos valid] at observed
      have elsewhere : ¬ Addressed address (rtuAddr slave.dataBuffer) := by
        rw [first valid]
        exact fun addressed => other ⟨valid, addressed⟩
      rw [observed]
      exact if_neg elsewhere
    · rwa [if_neg valid] at observed
  · intro valid zero
    rw [if_pos valid] at observed
    have addressed : Addressed address (rtuAddr slave.dataBuffer) := by
      rw [first valid]
      exact Or.inr zero
    unfold rtuHandled at observed
    dsimp only at observed
    rwa [if_pos addressed, if_neg (by rw [first valid, not_not]; exact zero)] at observed
  · intro valid mine unicast
    rw [if_pos valid] at observed
    have addressed : Addressed address (rtuAddr slave.dataBuffer) := by
      rw [first valid]
      exact Or.inl mine
    unfold rtuHandled at observed
    dsimp only at observed
    rw [if_pos addressed, if_pos (by rw [first valid]; exact unicast), first valid, mine]
      at observed
    exact ⟨_, rtuFrame_reply address (response_length sound valid ctx), observed⟩

theorem rtuStep_discipline {ctx : ModbusSlaveCTX σ} {address : UInt8} (slave : ModbusRTUSlave σ)
    (event : RtuEvent) (next : ModbusRTUSlave σ) (sound : RtuSound address slave)
    (taken : rtuStep ctx slave event = some next) :
    RtuDiscipline ctx address slave event next := by
  cases event with
  | rx chunk =>
      obtain rfl := Option.some.inj taken
      exact (modbusRtuRx_observed slave chunk).1
  | t35 kernel => exact t35_expiry ctx kernel sound taken
  | writable result =>
      rcases Option.map_eq_some_iff.mp taken with ⟨⟨stream, accepted⟩, handled, rfl⟩
      exact ⟨stream, accepted, handled, rfl⟩

/-- Every run of a slave from its start, with a timeout possible after every one. -/
theorem rtuDiscipline (ctx : ModbusSlaveCTX σ) (memory : Vector UInt8 256) (deviceAddr : UInt8)
    (fd : Int) (heap : Vector UInt8 768) (store : σ) (events : List RtuEvent) :
    Run.Along (rtuStep ctx) (RtuDiscipline ctx deviceAddr)
        (modbusRtuSlaveInit memory deviceAddr fd heap store) events ∧
      ∀ slave, events.foldlM (rtuStep ctx)
          (modbusRtuSlaveInit memory deviceAddr fd heap store) = some slave →
        ∀ kernel, ∃ next, rtuStep ctx slave (.t35 kernel) = some next := by
  have start := rtuInit_sound memory deviceAddr fd heap store
  constructor
  · exact Run.along_of_invariant rtuStep_sound rtuStep_discipline events start
  · intro slave run kernel
    have sound := Run.invariant rtuStep_sound start run
    rcases t35_spec ctx kernel sound with ⟨next, expired, -⟩
    exact ⟨next, expired⟩

end KongjaExpress.Modbus
