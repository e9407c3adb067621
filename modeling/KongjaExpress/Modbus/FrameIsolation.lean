import KongjaExpress.Modbus.RtuSlave
import KongjaExpress.Modbus.TcpIsolation

/-! Two serial slaves that differ in what their receive buffers hold from earlier frames,
and the same chunks to both; then what holds of both transports. -/

namespace KongjaExpress.Modbus

open BigEndian Memory Transport

variable {σ : Type} {n : Nat}

def Observed.send (kernel : List UInt8 → WriteResult) (tx : List UInt8) (seen : Observed σ n) :
    Observed σ n :=
  let written := streamWrite seen.stream tx (kernel tx)
  { seen with stream := written.stream, sent := seen.sent ++ written.accepted }

def Observed.execute {k : Nat} (seen : Observed σ n) (r : RequestResult σ k) : Observed σ n :=
  { seen with store := r.store, calls := seen.calls ++ r.calls }

def ModbusRTUSlave.observed (slave : ModbusRTUSlave σ) : Observed σ 768 :=
  ⟨slave.store, slave.calls, slave.stream, slave.sent⟩

def ValidFrame (held : List UInt8) : Prop := 4 ≤ held.length ∧ modbusCalcCrc held = 0

instance (held : List UInt8) : Decidable (ValidFrame held) := inferInstanceAs (Decidable (_ ∧ _))

def rtuPdu (held : List UInt8) : List UInt8 := (held.drop 1).take (held.length - 3)

@[simp] theorem rtuPdu_length (held : List UInt8) : (rtuPdu held).length = held.length - 3 := by
  simp only [rtuPdu, List.length_take, List.length_drop]
  omega

section Reception

variable {memory memory' : Vector UInt8 256} {r : Reception} {left right : ModbusRTUSlave σ}

theorem modbusRtuRx_agree (receives : Receives memory r left)
    (receives' : Receives memory' r right)
    (agree : AgreeBelow r.extent left.dataBuffer right.dataBuffer) (rx : RxChunk) :
    AgreeBelow (r.take rx).extent (modbusRtuRx left rx).dataBuffer
      (modbusRtuRx right rx).dataBuffer := by
  unfold modbusRtuRx Reception.take
  rw [receives.ndx, receives'.ndx]
  dsimp only
  by_cases full : r.held.length + rx.val.length ≥ 256
  · rw [if_pos full, if_pos full, if_pos full, List.nil_append]
    have copied := agree.blit (Nat.zero_le _) rx.val
    rwa [Nat.zero_add] at copied
  · rw [if_neg full, if_neg full, if_neg full, List.length_append, receives.ndx, receives'.ndx]
    exact agree.blit receives.within rx.val

theorem reception_agree (chunks : List RxChunk) (receives : Receives memory r left)
    (receives' : Receives memory' r right)
    (agree : AgreeBelow r.extent left.dataBuffer right.dataBuffer) :
    AgreeBelow (chunks.foldl Reception.take r).extent
      (chunks.foldl modbusRtuRx left).dataBuffer (chunks.foldl modbusRtuRx right).dataBuffer := by
  induction chunks generalizing r left right with
  | nil => exact agree
  | cons rx chunks ih =>
      exact ih (modbusRtuRx_receives receives rx) (modbusRtuRx_receives receives' rx)
        (modbusRtuRx_agree receives receives' agree rx)

/-- Receiving acts on nothing but the receiver. -/
theorem modbusRtuRx_observed (slave : ModbusRTUSlave σ) (rx : RxChunk) :
    (modbusRtuRx slave rx).observed = slave.observed ∧
      (modbusRtuRx slave rx).myAddress = slave.myAddress := by
  unfold modbusRtuRx ModbusRTUSlave.observed
  dsimp only
  split <;> exact ⟨rfl, rfl⟩

theorem reception_observed (chunks : List RxChunk) (slave : ModbusRTUSlave σ) :
    (chunks.foldl modbusRtuRx slave).observed = slave.observed ∧
      (chunks.foldl modbusRtuRx slave).myAddress = slave.myAddress := by
  induction chunks generalizing slave with
  | nil => exact ⟨rfl, rfl⟩
  | cons rx chunks ih =>
      rcases modbusRtuRx_observed slave rx with ⟨seen, address⟩
      rcases ih (modbusRtuRx slave rx) with ⟨seen', address'⟩
      exact ⟨seen'.trans seen, address'.trans address⟩

end Reception

section Handling

variable (ctx : ModbusSlaveCTX σ) (kernel : List UInt8 → WriteResult)

/-- The response to a frame of `size` bytes in the buffer. -/
def rtuResponse (store : σ) (size : Nat) (buffer : Vector UInt8 256) : RequestResult σ 2 :=
  modbusRtuHandlerRequestRx ctx (rtuAddr buffer) (.ofNat (size - 3)) (rtuPduArea buffer) store

def rtuHandled (seen : Observed σ 768) (myAddress : UInt8) (size : Nat)
    (buffer : Vector UInt8 256) : Observed σ 768 :=
  let r := rtuResponse ctx seen.store size buffer
  if Addressed myAddress (rtuAddr buffer) then
    if rtuAddr buffer ≠ 0 then
      (seen.execute r).send kernel (rtuFrame (rtuAddr buffer) (front r.pdu r.rspLen.toNat))
    else seen.execute r
  else seen

/-- The PDU of a frame of `size` bytes, as the frame handler computes its length. -/
theorem toNat_pduSize {size : Nat} (short : size < 256) :
    (UInt16.ofNat (size - 3)).toNat = size - 3 := Nat.mod_eq_of_lt (by omega)

theorem pduSize_length {size : Nat} (long : 4 ≤ size) (short : size < 256) :
    PduLength (.ofNat (size - 3)) := by
  rw [PduLength, toNat_pduSize short]
  omega

theorem rtuResponse_length (store : σ) {size : Nat} (long : 4 ≤ size) (short : size < 256)
    (buffer : Vector UInt8 256) : PduLength (rtuResponse ctx store size buffer).rspLen := by
  unfold rtuResponse
  exact requestRx_rspLen ctx _ (pduSize_length long short) _ _

theorem mbRtuHandleRxFrame_observed (slave : ModbusRTUSlave σ) {size : Nat}
    (ndx : slave.dataNdx.toNat = size) (long : 4 ≤ size) (short : size < 256) :
    (mbRtuHandleRxFrame ctx kernel slave).map ModbusRTUSlave.observed =
      some (rtuHandled ctx kernel slave.observed slave.myAddress size slave.dataBuffer) := by
  have len : slave.dataNdx - 1 - 2 = .ofNat (size - 3) := by
    apply UInt16.toNat_inj.mp
    rw [toNat_pduSize short, UInt16.toNat_sub, UInt16.toNat_sub, ndx]
    simp
    omega
  have length := rtuResponse_length ctx slave.store long short slave.dataBuffer
  unfold mbRtuHandleRxFrame rtuHandled
  dsimp only
  rw [len]
  by_cases addressed : Addressed slave.myAddress (rtuAddr slave.dataBuffer)
  · rw [if_pos addressed,
      if_pos (show rtuAddr slave.dataBuffer = slave.myAddress ∨ rtuAddr slave.dataBuffer = 0
        from addressed)]
    by_cases unicast : rtuAddr slave.dataBuffer ≠ 0
    · rw [if_pos unicast, if_pos unicast]
      rcases mbRtuReply_sends kernel (rtuAddr slave.dataBuffer) length _ with ⟨buffer, sent⟩
      refine (congrArg (Option.map ModbusRTUSlave.observed) sent).trans ?_
      dsimp only
      rw [Option.map_some, drop_overlay]
      rfl
    · rw [if_neg unicast, if_neg unicast]
      rfl
  · rw [if_neg addressed,
      if_neg (show ¬ (rtuAddr slave.dataBuffer = slave.myAddress ∨ rtuAddr slave.dataBuffer = 0)
        from addressed)]
    rfl

theorem rtuHandled_calls (seen : Observed σ 768) {myAddress : UInt8} (size : Nat)
    {buffer : Vector UInt8 256} (addressed : Addressed myAddress (rtuAddr buffer)) :
    (rtuHandled ctx kernel seen myAddress size buffer).calls =
      seen.calls ++ (rtuResponse ctx seen.store size buffer).calls := by
  unfold rtuHandled
  dsimp only
  rw [if_pos addressed]
  split <;> rfl

theorem mbRtuStartHandlingRxFrame_observed (slave : ModbusRTUSlave σ)
    {memory : Vector UInt8 256} {r : Reception} (receives : Receives memory r slave) :
    (mbRtuStartHandlingRxFrame ctx kernel slave).map ModbusRTUSlave.observed =
      some (if ValidFrame r.held then
        rtuHandled ctx kernel slave.observed slave.myAddress r.held.length slave.dataBuffer
      else slave.observed) := by
  have ndx := receives.ndx
  unfold mbRtuStartHandlingRxFrame
  dsimp only
  rw [ndx, receives.held]
  by_cases empty : slave.dataNdx = 0
  · have none : ¬ ValidFrame r.held := fun intact => by
      have := intact.1
      rw [empty] at ndx
      simp at ndx
      omega
    rw [if_pos empty, if_neg none]
    rfl
  · rw [if_neg empty]
    by_cases short : slave.dataNdx < 4
    · have none : ¬ ValidFrame r.held := fun intact => by
        have := intact.1
        have below : slave.dataNdx.toNat < 4 := UInt16.lt_iff_toNat_lt.mp short
        omega
      rw [if_pos short, if_neg none]
      rfl
    · have long : 4 ≤ r.held.length := by
        have above : ¬ slave.dataNdx.toNat < 4 :=
          fun below => short (UInt16.lt_iff_toNat_lt.mpr below)
        omega
      rw [if_neg short]
      by_cases sound : modbusCalcCrc r.held = 0
      · rw [if_neg (not_not.mpr sound), if_pos ⟨long, sound⟩]
        exact mbRtuHandleRxFrame_observed ctx kernel _ ndx long receives.small
      · rw [if_pos sound, if_neg fun intact => sound intact.2]
        rfl

end Handling

section Rtu

variable (ctx : ModbusSlaveCTX σ) (kernel : List UInt8 → WriteResult) (slave : ModbusRTUSlave σ)
  (chunks : List RxChunk)

/-- The slave once the chunks have arrived over `memory`. -/
def received (memory : Vector UInt8 256) : ModbusRTUSlave σ :=
  chunks.foldl modbusRtuRx { mbRtuEnableRx slave with dataBuffer := memory }

/-- All that is seen of the chunks and the timeout after them, with a buffer that holds
`memory`. -/
def rtuOutcome (memory : Vector UInt8 256) : Option (Observed σ 768) :=
  (rtuReceive ctx kernel { mbRtuEnableRx slave with dataBuffer := memory } chunks).map
    ModbusRTUSlave.observed

def RtuIsolated : Prop :=
  ∀ left right : Vector UInt8 256, rtuOutcome ctx kernel slave chunks left =
    rtuOutcome ctx kernel slave chunks right

/-- The data a request to this slave announces lies within the part of the buffer that
its reception has overwritten. -/
def RtuCovered (myAddress : UInt8) (chunks : List RxChunk) : Prop :=
  ValidFrame (reception chunks).held →
    Addressed myAddress ((reception chunks).held.headD 0) →
      Announced 2 (rtuPdu (reception chunks).held) ((reception chunks).extent - 1)

theorem received_receives (memory : Vector UInt8 256) :
    Receives memory (reception chunks) (received slave chunks memory) := by
  apply reception_receives
  constructor
  case untouched => exact fun i inside _ => rfl
  case held => exact front_zero _
  all_goals simp [mbRtuEnableRx, mbRtuResetDataBuffer]

theorem received_agree (left right : Vector UInt8 256) :
    AgreeBelow (reception chunks).extent (received slave chunks left).dataBuffer
      (received slave chunks right).dataBuffer :=
  reception_agree chunks (received_receives slave [] left) (received_receives slave [] right)
    fun _ _ none => absurd none (Nat.not_lt_zero _)

theorem rtuOutcome_eq (memory : Vector UInt8 256) :
    rtuOutcome ctx kernel slave chunks memory =
      some (if ValidFrame (reception chunks).held then
        rtuHandled ctx kernel slave.observed slave.myAddress (reception chunks).held.length
          (received slave chunks memory).dataBuffer
      else slave.observed) := by
  rcases reception_observed chunks { mbRtuEnableRx slave with dataBuffer := memory } with
    ⟨seen, address⟩
  have outcome := mbRtuStartHandlingRxFrame_observed ctx kernel (received slave chunks memory)
    (received_receives slave chunks memory)
  have seen' : (received slave chunks memory).observed = slave.observed := seen
  have address' : (received slave chunks memory).myAddress = slave.myAddress := address
  rw [seen', address'] at outcome
  exact outcome

variable {memory : Vector UInt8 256} {r : Reception} {slave' : ModbusRTUSlave σ}

theorem received_address (receives : Receives memory r slave') (intact : ValidFrame r.held) :
    rtuAddr slave'.dataBuffer = r.held.headD 0 := by
  have long := intact.1
  have bytes := receives.held
  have inFront : 0 < (front slave'.dataBuffer r.held.length).length := by
    rw [bytes]
    omega
  rw [rtuAddr, ← getElem_front slave'.dataBuffer (by omega) inFront]
  rw [List.headD_eq_getD, List.getD_eq_getElem?_getD, List.getElem?_eq_getElem (by omega)]
  simp only [bytes]
  rfl

theorem received_pdu (receives : Receives memory r slave') :
    front (rtuPduArea slave'.dataBuffer) (rtuPdu r.held).length = rtuPdu r.held := by
  have bytes : slave'.dataBuffer.toList.take r.held.length = r.held := receives.held
  rw [rtuPdu_length]
  calc front (rtuPduArea slave'.dataBuffer) (r.held.length - 3)
      = ((slave'.dataBuffer.toList.take r.held.length).drop 1).take (r.held.length - 3) := by
        rw [front, rtuPduArea, Vector.toList_drop, List.drop_take, List.take_take]
        congr 1
        omega
    _ = rtuPdu r.held := by rw [bytes, rtuPdu]

theorem getElem_rtuPduArea (buffer : Vector UInt8 256) (i : Nat) (inside : i < 253 + 2) :
    (rtuPduArea buffer)[i] = buffer[1 + i] :=
  Vector.getElem_drop ..

theorem rtuPdu_short (receives : Receives memory r slave') : (rtuPdu r.held).length ≤ 253 := by
  have := receives.small
  rw [rtuPdu_length]
  omega

theorem rtuPdu_toNat (receives : Receives memory r slave') :
    (UInt16.ofNat (r.held.length - 3)).toNat = (rtuPdu r.held).length := by
  rw [rtuPdu_length]
  exact toNat_pduSize receives.small

variable {slave chunks}

theorem rtuIsolated_of_covered (callbacks : PureCallbacks σ)
    (covered : RtuCovered slave.myAddress chunks) :
    RtuIsolated callbacks.ctx kernel slave chunks := by
  intro left right
  rw [rtuOutcome_eq, rtuOutcome_eq]
  by_cases intact : ValidFrame (reception chunks).held
  · rw [if_pos intact, if_pos intact]
    have receives := received_receives slave chunks left
    have receives' := received_receives slave chunks right
    have address := received_address receives intact
    have long := intact.1
    have agree := (received_agree slave chunks left right).drop 1
    have within := receives.within
    have same : Addressed slave.myAddress (rtuAddr (received slave chunks left).dataBuffer) →
        SameResponse (rtuResponse callbacks.ctx slave.observed.store (reception chunks).held.length
            (received slave chunks left).dataBuffer)
          (rtuResponse callbacks.ctx slave.observed.store (reception chunks).held.length
            (received slave chunks right).dataBuffer) := by
      intro addressed
      have data := (announced_iff (rtuPdu_short receives) (received_pdu receives)
        (rtuPdu_toNat receives) _).mp (covered intact (address ▸ addressed))
      unfold rtuResponse
      rw [received_address receives' intact, ← address]
      refine requestRx_same callbacks _ _ _ agree (by omega) ?_ data
      rw [rtuPdu_toNat receives, rtuPdu_length]
      omega
    unfold rtuHandled
    dsimp only
    rw [received_address receives' intact, ← address]
    split
    · rename_i addressed
      have alike := same addressed
      rw [alike.reply.front_eq, alike.rspLen, Observed.execute, Observed.execute, alike.store,
        alike.calls]
    · rfl
  · rw [if_neg intact, if_neg intact]

theorem covered_of_rtuIsolated {ctx : ModbusSlaveCTX σ}
    (isolated : RtuIsolated ctx kernel slave chunks) : RtuCovered slave.myAddress chunks := by
  intro intact addressed
  have receives := received_receives slave chunks (.replicate 256 0)
  have receives' := received_receives slave chunks (.replicate 256 1)
  have address := received_address receives intact
  have address' := received_address receives' intact
  have outcomes := isolated (.replicate 256 0) (.replicate 256 1)
  rw [rtuOutcome_eq, rtuOutcome_eq, if_pos intact, if_pos intact, Option.some.injEq] at outcomes
  have calls := congrArg Observed.calls outcomes
  rw [rtuHandled_calls ctx kernel _ _ (address ▸ addressed),
    rtuHandled_calls ctx kernel _ _ (address' ▸ addressed)] at calls
  have same := List.append_cancel_left calls
  unfold rtuResponse at same
  rw [address', ← address] at same
  have long := intact.1
  have within := receives.within
  have agree := (received_agree slave chunks (.replicate 256 0) (.replicate 256 1)).drop 1
  have request : AgreeBelow (UInt16.ofNat ((reception chunks).held.length - 3)).toNat
      (rtuPduArea (received slave chunks (.replicate 256 0)).dataBuffer)
      (rtuPduArea (received slave chunks (.replicate 256 1)).dataBuffer) := by
    refine agree.mono ?_
    rw [rtuPdu_toNat receives, rtuPdu_length]
    omega
  apply (announced_iff (rtuPdu_short receives) (received_pdu receives) (rtuPdu_toNat receives)
    _).mpr
  apply calls_cover _ _ _ ctx request ?_ same
  intro i inside _ behind
  rw [getElem_rtuPduArea _ _ inside, getElem_rtuPduArea _ _ inside,
    receives.untouched _ _ (by omega), receives'.untouched _ _ (by omega)]
  simp

theorem rtuIsolated_iff (callbacks : PureCallbacks σ) :
    RtuIsolated callbacks.ctx kernel slave chunks ↔ RtuCovered slave.myAddress chunks :=
  ⟨covered_of_rtuIsolated kernel, rtuIsolated_of_covered kernel callbacks⟩

end Rtu

/-- Nothing left over from earlier frames is seen exactly when a request that writes
several items covers the data it announces: over TCP all of it, on the serial line as far
as the buffer was not overwritten while the frame arrived. -/
theorem frameIsolated_iff (callbacks : PureCallbacks σ) (kernel : List UInt8 → WriteResult)
    (env : SlaveEnv σ) (request : Adu) (slave : ModbusRTUSlave σ) (chunks : List RxChunk) :
    (TcpIsolated callbacks.ctx kernel env request ↔ TcpCovered env.slave.myAddress request) ∧
      (RtuIsolated callbacks.ctx kernel slave chunks ↔ RtuCovered slave.myAddress chunks) :=
  ⟨tcpIsolated_iff kernel env callbacks, rtuIsolated_iff kernel callbacks⟩

def acceptingCallbacks : PureCallbacks Unit where
  write _ _ _ _ _ store := (.enoerr, store)
  read kind _ _ usNRegs store := (.enoerr, .replicate (dataSize kind usNRegs) 0, store)
  fills _ _ _ _ _ _ := List.length_replicate

theorem truncated_not_announced {k m : Nat} (short : m < 10) :
    ¬ Announced k [16, 0, 0, 0, 2, 4] m := by
  have header : HeaderAccepted 6 (pduMemory k [16, 0, 0, 0, 2, 4]) ∧
      dataEnd (pduMemory k [16, 0, 0, 0, 2, 4]) = 10 := by
    simp only [HeaderAccepted, dataEnd, quantity, byteCount, byte0, word3, byte5]
    rw [getElem_pduMemory (show 0 < 6 by decide), getElem_pduMemory (show 3 < 6 by decide),
      getElem_pduMemory (show 4 < 6 by decide), getElem_pduMemory (show 5 < 6 by decide)]
    exact ⟨⟨by decide, by decide, by decide, by decide⟩, rfl⟩
  intro announced
  have ends := announced header.1
  omega

/-- A request to write two registers without their values: what earlier frames left in
the buffer is written. -/
theorem frameIsolation_fails :
    ¬ TcpIsolated acceptingCallbacks.ctx acceptAll
        { slave := modbusTcpSlaveInit 1 ()
          stream := streamStart (streamInitWithFd 5 512 (.replicate 512 0))
          sent := [] }
        { tid := 1, pid := 0, uid := 1, pdu := [16, 0, 0, 0, 2, 4]
          counted := by decide, nonempty := by decide, short := by decide } ∧
      ¬ RtuIsolated acceptingCallbacks.ctx acceptAll
        (modbusRtuSlaveInit (.replicate 256 0) 1 5 (.replicate 768 0) ())
        [⟨rtuFrame 1 [16, 0, 0, 0, 2, 4], by decide⟩] := by
  constructor
  · intro isolated
    have covered := covered_of_tcpIsolated _ _ isolated
    exact truncated_not_announced (by decide) (covered (.inl rfl))
  · intro isolated
    have covered := covered_of_rtuIsolated _ isolated
    exact truncated_not_announced (by decide +kernel)
      (covered (by decide +kernel) (.inl (by decide +kernel)))

end KongjaExpress.Modbus
