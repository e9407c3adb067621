import KongjaExpress.Modbus.RequestHandler
import KongjaExpress.Modbus.ResponseHandler

/-! A master's PDU in the slave's memory, and the slave's response at the master. -/

namespace KongjaExpress.Modbus

open BigEndian Memory

variable {σ : Type} {k j : Nat}

/-- The context a call leaves with a transport that takes the PDU as it stands. -/
def MasterCall.prepare (call : MasterCall) (ctx : ModbusMasterCTX) : Option ModbusMasterCTX :=
  call.run (fun ctx _ => some ctx) ctx

/-- The bytes from `pdu_offset` up to `tx_ndx`, which every transport sends. -/
def ModbusMasterCTX.txPdu (ctx : ModbusMasterCTX) : List UInt8 :=
  front (ctx.txBuf.drop ctx.pduOffset.toNat) (ctx.txNdx.toNat - ctx.pduOffset.toNat)

/-- A call is prepared and its PDU has come to the slave: `area` starts with it. -/
structure Asked (call : MasterCall) (master prepared : ModbusMasterCTX)
    (area : Vector UInt8 (253 + k)) : Prop where
  ran : call.prepare master = some prepared
  carried : front area prepared.txPdu.length = prepared.txPdu

def slaveAnswer (ctx : ModbusSlaveCTX σ) (call : MasterCall) (prepared : ModbusMasterCTX)
    (area : Vector UInt8 (253 + k)) (store : σ) : RequestResult σ k :=
  modbusRtuHandlerRequestRx ctx call.slave (.ofNat prepared.txPdu.length) area store

/-- The response PDU has come to the master: `reply` starts with it. -/
def Replied (r : RequestResult σ k) (reply : Vector UInt8 (253 + j)) : Prop :=
  front reply r.rspLen.toNat = front r.pdu r.rspLen.toNat

theorem txPdu_of_encoded {call : MasterCall} {master prepared : ModbusMasterCTX}
    (encoded : Encoded call master prepared) : prepared.txPdu = call.pdu := by
  have offset : prepared.pduOffset = master.pduOffset := encoded.saved.2.2.2.2
  have length : prepared.txNdx.toNat - master.pduOffset.toNat = call.pdu.length := by
    rw [encoded.ndx, Nat.add_sub_cancel_left]
  rw [ModbusMasterCTX.txPdu, offset, length, encoded.pdu]

/-- Every call that fits `tx_buf` is prepared. -/
theorem MasterCall.prepare_encoded {call : MasterCall} {master : ModbusMasterCTX}
    (room : master.pduOffset.toNat + call.pdu.length ≤ 512) :
    ∃ prepared, call.prepare master = some prepared ∧ Encoded call master prepared := by
  rcases call.run_encoded (fun ctx _ => some ctx) room with ⟨prepared, encoded, run⟩
  exact ⟨prepared, run, encoded⟩

theorem Asked.encoded {call : MasterCall} {master prepared : ModbusMasterCTX}
    {area : Vector UInt8 (253 + k)} (asked : Asked call master prepared area) :
    Encoded call master prepared := by
  rcases MasterCall.run_some asked.ran with ⟨ctx', encoded, same⟩
  obtain rfl := Option.some.inj same
  exact encoded

theorem Asked.front_eq {call : MasterCall} {master prepared : ModbusMasterCTX}
    {area : Vector UInt8 (253 + k)} (asked : Asked call master prepared area) :
    front area call.pdu.length = call.pdu := by
  have carried := asked.carried
  rwa [txPdu_of_encoded asked.encoded] at carried

theorem MasterCall.asked (call : MasterCall) {master : ModbusMasterCTX}
    (room : master.pduOffset.toNat + call.pdu.length ≤ 512) (small : call.pdu.length ≤ 253)
    (memory : Vector UInt8 (253 + k)) :
    ∃ prepared, Asked call master prepared (blit memory 0 call.pdu) := by
  rcases MasterCall.prepare_encoded room with ⟨prepared, run, encoded⟩
  use prepared, run
  rw [txPdu_of_encoded encoded]
  exact front_blit_zero memory call.pdu (by omega)

theorem getElem_of_front {n : Nat} {memory : Vector UInt8 n} {bytes : List UInt8}
    (same : front memory bytes.length = bytes) {i : Nat} (inside : i < bytes.length)
    (bound : i < n) : memory[i] = bytes[i] := by
  have inFront : i < (front memory bytes.length).length := by rwa [same]
  rw [← getElem_front memory bound inFront]
  simp only [same]

theorem header_of_front {n : Nat} {memory : Vector UInt8 n} {func : UInt8} {addr value : UInt16}
    {rest : List UInt8} (bound : 5 ≤ n)
    (same : front memory (func :: wordBytes addr ++ wordBytes value ++ rest).length =
      func :: wordBytes addr ++ wordBytes value ++ rest) :
    memory[0] = func ∧ word memory[1] memory[2] = addr ∧
      memory[3] = highByte value ∧ memory[4] = lowByte value := by
  have long : 5 ≤ (func :: wordBytes addr ++ wordBytes value ++ rest).length := by
    simp [wordBytes]
  have byte (i : Nat) (inside : i < 5) :
      memory[i] = (func :: wordBytes addr ++ wordBytes value ++ rest)[i] :=
    getElem_of_front same (by omega) (by omega)
  refine ⟨byte 0 (by decide), ?_, byte 3 (by decide), byte 4 (by decide)⟩
  rw [byte 1 (by decide), byte 2 (by decide)]
  exact word_bytes addr

theorem requestFinish_conclude {func : UInt8} {failed answered : Handling σ k} :
    requestFinish func (conclude .enoerr failed answered) =
      ⟨true, answered.usLen, answered.pucFrame, answered.store, answered.calls⟩ := rfl

theorem Asked.answer {call : MasterCall} {master prepared : ModbusMasterCTX}
    {area : Vector UInt8 (253 + k)} (asked : Asked call master prepared area)
    (ctx : ModbusSlaveCTX σ) (store : σ) :
    slaveAnswer ctx call prepared area store =
      requestFinish call.func (requestDispatch call.func ctx call.slave
        (requested (.ofNat call.pdu.length) area store)) := by
  have code : area[0] = call.func := by
    have inside := call.pdu_long
    rw [getElem_of_front asked.front_eq (show 0 < call.pdu.length by omega) (by omega)]
    cases call <;> rfl
  unfold slaveAnswer modbusRtuHandlerRequestRx
  rw [txPdu_of_encoded asked.encoded, ← code]

end KongjaExpress.Modbus
