import KongjaExpress.Modbus.Isolation
import KongjaExpress.Modbus.TcpSlave

/-! Two TCP slaves that differ in what their frame buffers hold from earlier frames, and
the same request to both. -/

namespace KongjaExpress.Modbus

open BigEndian Memory Transport

variable {σ : Type} {k : Nat}

def Addressed (myAddress uid : UInt8) : Prop := uid = myAddress ∨ uid = 0

instance (myAddress uid : UInt8) : Decidable (Addressed myAddress uid) :=
  inferInstanceAs (Decidable (_ ∨ _))

def pduMemory (k : Nat) (pdu : List UInt8) : Vector UInt8 (253 + k) :=
  blit (.replicate (253 + k) 0) 0 pdu

theorem agree_pduMemory {area : Vector UInt8 (253 + k)} {pdu : List UInt8}
    (fits : pdu.length ≤ 253) (holds : front area pdu.length = pdu) :
    AgreeBelow pdu.length area (pduMemory k pdu) := by
  apply agreeBelow_of_front
  rw [holds, pduMemory, front_blit_zero _ _ (by omega)]

theorem getElem_pduMemory {pdu : List UInt8} {i : Nat} (inside : i < pdu.length)
    (bound : i < 253 + k) : (pduMemory k pdu)[i] = pdu[i] := by
  have copied := getElem_blit_inside (.replicate (253 + k) 0) 0 pdu i inside (by omega)
  simpa only [pduMemory, Nat.zero_add] using copied

/-- The data a request announces lies within the first `m` bytes of its memory. -/
def Announced (k : Nat) (pdu : List UInt8) (m : Nat) : Prop :=
  HeaderAccepted (.ofNat pdu.length) (pduMemory k pdu) → dataEnd (pduMemory k pdu) ≤ m

theorem announced_iff {area : Vector UInt8 (253 + k)} {pdu : List UInt8} {len : UInt16}
    (fits : pdu.length ≤ 253) (holds : front area pdu.length = pdu)
    (length : len.toNat = pdu.length) (m : Nat) :
    Announced k pdu m ↔ (HeaderAccepted len area → dataEnd area ≤ m) := by
  have agree := agree_pduMemory (k := k) fits holds
  obtain rfl : len = .ofNat pdu.length := by
    apply UInt16.toNat_inj.mp
    rw [length, UInt16.toNat_ofNat']
    exact (Nat.mod_eq_of_lt (by omega)).symm
  rw [← length] at agree
  have agree' : AgreeBelow (UInt16.ofNat pdu.length).toNat (pduMemory k pdu) area :=
    fun i inside below => (agree i inside below).symm
  constructor
  · intro announced accepted
    rcases headerAccepted_agree agree accepted with ⟨accepted', ends, -⟩
    rw [← ends]
    exact announced accepted'
  · intro announced accepted
    rcases headerAccepted_agree agree' accepted with ⟨accepted', ends, -⟩
    rw [← ends]
    exact announced accepted'

/-- What the application and the peer see of a slave: the registers, the callbacks, what
was handed to the stream and has not been sent, and what was sent. -/
structure Observed (σ : Type) (n : Nat) where
  store : σ
  calls : List RegCall
  stream : Stream n
  sent : List UInt8

section Tcp

variable (ctx : ModbusSlaveCTX σ) (kernel : List UInt8 → WriteResult) (env : SlaveEnv σ)
  (request : Adu)

def SlaveEnv.observed (env : SlaveEnv σ) : Observed σ 512 :=
  ⟨env.slave.store, env.slave.calls, env.stream, env.sent⟩

/-- All that is seen of one request to a reader that holds `memory`. -/
def tcpOutcome (memory : MbapReader) : Option (Observed σ 512) :=
  (mbapReaderFeed (modbusTcpSlaveHandleRxFrame ctx kernel) (mbapReaderInit memory, env)
    request.bytes).map fun s => s.2.observed

/-- Whatever the frame buffer held before, the outcome is the same. -/
def TcpIsolated : Prop :=
  ∀ left right : MbapReader, tcpOutcome ctx kernel env request left =
    tcpOutcome ctx kernel env request right

/-- The data a request to this slave announces lies within the request. -/
def TcpCovered (myAddress : UInt8) (request : Adu) : Prop :=
  Addressed myAddress request.uid → Announced 0 request.pdu request.pdu.length

theorem tcpOutcome_eq (memory : MbapReader) :
    tcpOutcome ctx kernel env request memory =
      some (modbusTcpSlaveHandleRxFrame ctx kernel
        (delivered memory.frame request) env).2.observed := by
  rcases run_adu (modbusTcpSlaveHandleRxFrame ctx kernel) memory.frame request env with
    ⟨_, -, run⟩
  rw [tcpOutcome, mbapReaderFeed, mbapReaderInit, mbapReaderReset_eq, run]
  rfl

variable {request}

def tcpResponse (ctx : ModbusSlaveCTX σ) (env : SlaveEnv σ) (mbap : MbapReader) :
    RequestResult σ 0 :=
  modbusRtuHandlerRequestRx ctx mbap.uid (mbap.length - 1) (pduArea mbap.frame) env.slave.store

theorem pduLength_carried {mbap : MbapReader} (carries : Carries request.toRawAdu mbap) :
    (mbap.length - 1).toNat = request.pdu.length := by
  have bounds := request.length_bounds
  rw [carries.length, pred_toNat (by omega), request.length_toNat]
  omega

theorem tcpResponse_length {mbap : MbapReader} (carries : Carries request.toRawAdu mbap) :
    PduLength (tcpResponse ctx env mbap).rspLen := by
  have length : PduLength (mbap.length - 1) := by
    rw [PduLength, pduLength_carried carries]
    exact ⟨request.nonempty, request.short⟩
  unfold tcpResponse
  exact requestRx_rspLen ctx mbap.uid length (pduArea mbap.frame) env.slave.store

theorem handleRxFrame_effects (mbap : MbapReader) :
    (modbusTcpSlaveHandleRxFrame ctx kernel mbap env).2 =
      if Addressed env.slave.myAddress mbap.uid then
        if mbap.uid ≠ 0 then
          (env.execute (tcpResponse ctx env mbap)).reply kernel (tcpResponse ctx env mbap).ok
            (front (responseFrame mbap.frame (tcpResponse ctx env mbap))
              (frameLength (tcpResponse ctx env mbap).rspLen).toNat)
        else env.execute (tcpResponse ctx env mbap)
      else env := by
  unfold modbusTcpSlaveHandleRxFrame
  dsimp only
  by_cases addressed : Addressed env.slave.myAddress mbap.uid
  · rw [if_pos (show mbap.uid = env.slave.myAddress ∨ mbap.uid = 0 from addressed),
      if_pos addressed]
    split <;> rfl
  · rw [if_neg (show ¬ (mbap.uid = env.slave.myAddress ∨ mbap.uid = 0) from addressed),
      if_neg addressed]

theorem execute_congr {r r' : RequestResult σ 0} (store : r.store = r'.store)
    (calls : r.calls = r'.calls) : env.execute r = env.execute r' := by
  rw [SlaveEnv.execute, SlaveEnv.execute, store, calls]

theorem responseAdu_congr {r r' : RequestResult σ 0} (length : PduLength r.rspLen)
    (length' : PduLength r'.rspLen) (same : SameResponse r r') :
    responseAdu request r length = responseAdu request r' length' := by
  have pdu : front r.pdu r.rspLen.toNat = front r'.pdu r'.rspLen.toNat := by
    rw [same.reply.front_eq, same.rspLen]
  simp only [responseAdu, pdu]

theorem handleRxFrame_congr {left right : MbapReader} (carries : Carries request.toRawAdu left)
    (carries' : Carries request.toRawAdu right)
    (same : Addressed env.slave.myAddress request.uid →
      SameResponse (tcpResponse ctx env left) (tcpResponse ctx env right)) :
    (modbusTcpSlaveHandleRxFrame ctx kernel left env).2 =
      (modbusTcpSlaveHandleRxFrame ctx kernel right env).2 := by
  have length := tcpResponse_length ctx env carries
  have length' := tcpResponse_length ctx env carries'
  rw [handleRxFrame_effects, handleRxFrame_effects, carries.uid, carries'.uid]
  split
  · rename_i addressed
    have alike := same addressed
    rw [execute_congr env alike.store alike.calls, alike.ok,
      front_responseFrame carries _ length, front_responseFrame carries' _ length',
      responseAdu_congr length length' alike]
  · rfl

theorem handleRxFrame_calls (mbap : MbapReader)
    (addressed : Addressed env.slave.myAddress mbap.uid) :
    (modbusTcpSlaveHandleRxFrame ctx kernel mbap env).2.slave.calls =
      env.slave.calls ++ (tcpResponse ctx env mbap).calls := by
  rw [handleRxFrame_effects, if_pos addressed]
  split <;> rfl

theorem pduArea_holds {mbap : MbapReader} (carries : Carries request.toRawAdu mbap) :
    front (pduArea mbap.frame) request.pdu.length = request.pdu :=
  carries.parts.2

theorem pduArea_agree {left right : MbapReader} (carries : Carries request.toRawAdu left)
    (carries' : Carries request.toRawAdu right) :
    AgreeBelow request.pdu.length (pduArea left.frame) (pduArea right.frame) :=
  agreeBelow_of_front ((pduArea_holds carries).trans (pduArea_holds carries').symm)

/-- Behind the request the frame still holds what it held before. -/
theorem delivered_stale (memory : Vector UInt8 260) (request : Adu) (i : Nat) (inside : i < 253)
    (behind : request.pdu.length ≤ i) :
    (pduArea (delivered memory request).frame)[i] = memory[7 + i] := by
  have size := request.bytes_length
  rw [request.length_toNat] at size
  rw [pduArea, Vector.getElem_drop, delivered]
  simp only [readerAt_frame]
  exact getElem_blit_outside _ _ _ _ _ (by omega)

def staleReader (fill : UInt8) : MbapReader := readerAt (.replicate 260 fill) 0

theorem tcpIsolated_of_covered (callbacks : PureCallbacks σ)
    (covered : TcpCovered env.slave.myAddress request) :
    TcpIsolated callbacks.ctx kernel env request := by
  intro left right
  have carries := delivered_carries left.frame request
  have carries' := delivered_carries right.frame request
  have responses (addressed : Addressed env.slave.myAddress request.uid) :
      SameResponse (tcpResponse callbacks.ctx env (delivered left.frame request))
        (tcpResponse callbacks.ctx env (delivered right.frame request)) := by
    have length := pduLength_carried carries
    have data := (announced_iff request.short (pduArea_holds carries) length _).mp
      (covered addressed)
    have same := requestRx_same callbacks request.uid
      ((delivered left.frame request).length - 1) env.slave.store (pduArea_agree carries carries')
      request.nonempty length.le data
    unfold tcpResponse
    rw [carries.uid, carries'.uid, carries'.length, ← carries.length]
    exact same
  have effects := handleRxFrame_congr callbacks.ctx kernel env carries carries' responses
  rw [tcpOutcome_eq, tcpOutcome_eq, effects]

theorem covered_of_tcpIsolated {ctx : ModbusSlaveCTX σ}
    (isolated : TcpIsolated ctx kernel env request) :
    TcpCovered env.slave.myAddress request := by
  intro addressed
  have carries := delivered_carries (staleReader 0).frame request
  have carries' := delivered_carries (staleReader 1).frame request
  have length := pduLength_carried carries
  have outcomes := isolated (staleReader 0) (staleReader 1)
  rw [tcpOutcome_eq, tcpOutcome_eq, Option.some.injEq] at outcomes
  have calls := congrArg Observed.calls outcomes
  have agree := pduArea_agree carries carries'
  rw [← length] at agree
  have same : (tcpResponse ctx env (delivered (staleReader 0).frame request)).calls =
      (tcpResponse ctx env (delivered (staleReader 1).frame request)).calls := by
    apply @List.append_cancel_left _ env.slave.calls
    rw [← handleRxFrame_calls ctx kernel, ← handleRxFrame_calls ctx kernel]
    · exact calls
    · rw [carries'.uid]
      exact addressed
    · rw [carries.uid]
      exact addressed
  unfold tcpResponse at same
  rw [carries.uid, carries'.uid, carries'.length, ← carries.length] at same
  apply (announced_iff request.short (pduArea_holds carries) length request.pdu.length).mpr
  apply calls_cover request.uid _ env.slave.store ctx agree ?_ same
  intro i inside _ behind
  rw [delivered_stale _ _ _ inside behind, delivered_stale _ _ _ inside behind]
  simp [staleReader]

/-- Over TCP nothing is left of earlier frames exactly when the request covers its data. -/
theorem tcpIsolated_iff (callbacks : PureCallbacks σ) :
    TcpIsolated callbacks.ctx kernel env request ↔ TcpCovered env.slave.myAddress request :=
  ⟨covered_of_tcpIsolated kernel env, tcpIsolated_of_covered kernel env callbacks⟩

end Tcp

end KongjaExpress.Modbus
