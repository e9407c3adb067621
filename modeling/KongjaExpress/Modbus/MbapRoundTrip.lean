import KongjaExpress.Modbus.TcpMaster

/-! Decoding the ADUs that are sent gives them back, however their bytes are cut. -/

namespace KongjaExpress.Modbus

open BigEndian Memory Framing Transport

variable {S : Type}

theorem emits_calls {cb : MbapReader → S → MbapReader × S} {adus : List Adu} {env env' : S}
    (emits : Emits (Delivers cb) adus env env') :
    ∃ delivered, env' = calls cb delivered env ∧
      List.Forall₂ (fun adu mbap => Carries adu.toRawAdu mbap) adus delivered := by
  induction emits with
  | nil env => exact ⟨[], rfl, .nil⟩
  | cons head _ ih =>
      rcases head with ⟨mbap, carries, rfl⟩
      rcases ih with ⟨delivered, rfl, all⟩
      exact ⟨mbap :: delivered, rfl, .cons carries all⟩

/-- On any part of a sequence of ADUs, in any chunks, the callback is called for the ADUs
that are complete, in order, and a reader that has seen them all is reset. -/
theorem feed_adus (cb : MbapReader → S → MbapReader × S) (memory : MbapReader) (env : S)
    (adus : List Adu) (chunks : List (List UInt8))
    (within : chunks.flatten <+: adus.flatMap fun adu => adu.bytes) :
    ∃ mbap delivered,
      chunks.foldlM (mbapReaderFeed cb) (mbapReaderReset memory, env) =
        some (mbap, calls cb delivered env) ∧
      List.Forall₂ (fun adu mbap => Carries adu.toRawAdu mbap)
        (complete (fun adu : Adu => adu.bytes) chunks.flatten.length adus) delivered ∧
      ((chunks.flatten = adus.flatMap fun adu => adu.bytes) → mbapReaderReset mbap = mbap) := by
  have nonempty (adu : Adu) : adu.bytes ≠ [] := adu.bytes_ne_nil
  rcases (aduDecoder cb).feed chunks.flatten [] adus (mbapReaderReset memory, env)
    (held_init memory) (partOf_nil nonempty adus) (by rwa [List.nil_append]) with
    ⟨done, rest, tail, ⟨mbap, env'⟩, rfl, bytes, part, run, holds, emits⟩
  rw [List.nil_append] at bytes
  rcases emits_calls emits with ⟨delivered, (rfl : env' = _), all⟩
  refine ⟨mbap, delivered, ?_, ?_, ?_⟩
  · rw [← run]
    exact foldlM_chunks (mbapStateMachine cb) chunks _
  · rw [bytes, complete_eq part done]
    exact all
  · intro whole
    rcases holds with ⟨frame, (rfl : mbap = _), -⟩
    -- all bytes have arrived, so no part of an ADU is held
    have none : tail = [] := by
      rw [bytes, List.flatMap_append, List.append_cancel_left_eq] at whole
      cases rest with
      | nil => exact whole
      | cons adu rest =>
          have short : tail.length < adu.bytes.length := part.2
          rw [whole, List.flatMap_cons, List.length_append] at short
          omega
    rw [none, List.length_nil, mbapReaderReset_readerAt]

theorem request_adu {kernel : List UInt8 → WriteResult} {master master' : ModbusTCPMaster}
    {slave : UInt8} {tx : List UInt8} {size : Nat} (nonempty : 1 ≤ size) (short : size ≤ 253)
    (ndx : master.ctx.txNdx.toNat = 7 + size)
    (ran : modbusTcpMasterRequest kernel master slave = some (master', some tx)) :
    ∃ adu : Adu, tx = adu.bytes ∧ adu.tid = master.tid ∧ adu.pid = master.pid ∧
      adu.uid = slave ∧ adu.pdu = front (master.ctx.txBuf.drop 7) size := by
  have pdu : (front (master.ctx.txBuf.drop 7) size).length = size := front_length _ (by omega)
  rcases request_cases ran with ⟨-, -, none⟩ | ⟨-, sent, -⟩
  · contradiction
  · rw [Option.some.inj sent, request_bytes master slave (show size ≤ 505 by omega) ndx]
    exact ⟨{ requestAdu master slave size (by omega) with
      nonempty := pdu.symm ▸ nonempty
      short := pdu.symm ▸ short }, rfl, rfl, rfl, rfl, rfl⟩

theorem response_adu {σ : Type} (ctx : ModbusSlaveCTX σ) (store : σ) {request : Adu}
    {mbap : MbapReader} (carries : Carries request.toRawAdu mbap) {r : RequestResult σ 0}
    (handled : modbusRtuHandlerRequestRx ctx mbap.uid (mbap.length - 1) (pduArea mbap.frame)
      store = r) :
    ∃ adu : Adu, front (responseFrame mbap.frame r) (frameLength r.rspLen).toNat = adu.bytes ∧
      adu.tid = request.tid ∧ adu.pid = request.pid ∧ adu.uid = request.uid ∧
      adu.pdu = front r.pdu r.rspLen.toNat := by
  have bounds := request.length_bounds
  have length : PduLength (mbap.length - 1) := by
    rw [PduLength, carries.length, pred_toNat (by omega)]
    omega
  have rspLen : PduLength r.rspLen := handled ▸ requestRx_rspLen ctx _ length _ _
  exact ⟨responseAdu request r rspLen, front_responseFrame carries r rspLen, rfl, rfl, rfl, rfl⟩

/-- The reader decodes every sequence of ADUs, whatever the chunks; among them are all
requests of the master and all responses of the slave. -/
theorem mbap_decodes :
    (∀ {S : Type} (cb : MbapReader → S → MbapReader × S) (memory : MbapReader) (env : S)
      (adus : List Adu) (chunks : List (List UInt8)),
      (chunks.flatten <+: adus.flatMap fun adu => adu.bytes) →
      ∃ mbap delivered,
        chunks.foldlM (mbapReaderFeed cb) (mbapReaderReset memory, env) =
          some (mbap, calls cb delivered env) ∧
        List.Forall₂ (fun adu mbap => Carries adu.toRawAdu mbap)
          (complete (fun adu : Adu => adu.bytes) chunks.flatten.length adus) delivered ∧
        ((chunks.flatten = adus.flatMap fun adu => adu.bytes) →
          complete (fun adu : Adu => adu.bytes) chunks.flatten.length adus = adus ∧
          mbapReaderReset mbap = mbap)) ∧
    (∀ (kernel : List UInt8 → WriteResult) (master master' : ModbusTCPMaster) (slave : UInt8)
      (tx : List UInt8) (size : Nat), 1 ≤ size → size ≤ 253 →
      master.ctx.txNdx.toNat = 7 + size →
      modbusTcpMasterRequest kernel master slave = some (master', some tx) →
      ∃ adu : Adu, tx = adu.bytes ∧ adu.tid = master.tid ∧ adu.pid = master.pid ∧
        adu.uid = slave ∧ adu.pdu = front (master.ctx.txBuf.drop 7) size) ∧
    ∀ {σ : Type} (ctx : ModbusSlaveCTX σ) (store : σ) (request : Adu) (mbap : MbapReader)
      (r : RequestResult σ 0), Carries request.toRawAdu mbap →
      modbusRtuHandlerRequestRx ctx mbap.uid (mbap.length - 1) (pduArea mbap.frame) store = r →
      ∃ adu : Adu, front (responseFrame mbap.frame r) (frameLength r.rspLen).toNat = adu.bytes ∧
        adu.tid = request.tid ∧ adu.pid = request.pid ∧ adu.uid = request.uid ∧
        adu.pdu = front r.pdu r.rspLen.toNat := by
  refine ⟨fun cb memory env adus chunks within => ?_, fun _ _ _ _ _ _ nonempty short ndx ran =>
    request_adu nonempty short ndx ran, fun ctx store _ _ _ carries handled =>
    response_adu ctx store carries handled⟩
  rcases feed_adus cb memory env adus chunks within with ⟨mbap, delivered, run, all, reset⟩
  refine ⟨mbap, delivered, run, all, fun whole => ⟨?_, reset whole⟩⟩
  rw [whole]
  exact complete_all adus

/-- A request to read eight coils, in three chunks, reaches the callback once. -/
theorem mbap_decodes_coils :
    ∃ mbap frame,
      [[0, 1, 0, 0], [], [0, 6, 2, 1, 0, 0, 0, 8]].foldlM
          (mbapReaderFeed fun mbap (log : List MbapReader) => (mbap, log ++ [mbap]))
          (mbapReaderReset (readerAt (.replicate 260 0) 9), []) = some (mbap, [frame]) ∧
        frame.tid = 1 ∧ frame.uid = 2 ∧ frame.ndx = 12 ∧ mbapReaderReset mbap = mbap := by
  let request : Adu := {
    tid := 1, pid := 0, uid := 2, pdu := [1, 0, 0, 0, 8]
    counted := by decide, nonempty := by decide, short := by decide }
  rcases mbap_decodes.1 (fun mbap (log : List MbapReader) => (mbap, log ++ [mbap]))
    (readerAt (.replicate 260 0) 9) [] [request] [[0, 1, 0, 0], [], [0, 6, 2, 1, 0, 0, 0, 8]]
    (by decide) with ⟨mbap, delivered, run, all, whole⟩
  rcases whole (by decide) with ⟨complete, reset⟩
  rw [complete] at all
  rcases List.forall₂_cons_left_iff.mp all with ⟨frame, rest, carries, none, rfl⟩
  obtain rfl := List.forall₂_nil_left_iff.mp none
  exact ⟨mbap, frame, run, carries.tid, carries.uid, carries.ndx, reset⟩

end KongjaExpress.Modbus
