import KongjaExpress.Modbus.RtuLink
import KongjaExpress.Modbus.TcpMaster

/-! The requests that fit a master's buffer and a PDU. -/

namespace KongjaExpress.Modbus

open BigEndian Memory Transport

inductive MasterLine
  | rtu (master : ModbusRTUMaster)
  | tcp (master : ModbusTCPMaster)

namespace MasterLine

def ctx : MasterLine → ModbusMasterCTX
  | rtu master => master.ctx
  | tcp master => master.ctx

/-- `pdu_offset`, as the two masters are initialised. -/
def offset : MasterLine → UInt8
  | rtu _ => 1
  | tcp _ => 7

/-- What a call hands to `stream_write`, if it does. -/
def transmitted (kernel : List UInt8 → WriteResult) (call : MasterCall) :
    MasterLine → Option (List UInt8)
  | rtu master => (modbusRtuMasterCall kernel master call).map Prod.snd
  | tcp master => (modbusTcpMasterCall kernel master call).bind Prod.snd

/-- Every store of a call is inside `tx_buf`: those of the encoder, and those of the checksum on
a serial line. The header of a TCP master has a fixed place in front of the PDU. -/
def StoresInside (kernel : List UInt8 → WriteResult) (call : MasterCall) : MasterLine → Prop
  | rtu master => (modbusRtuMasterCall kernel master call).isSome
  | tcp master => (call.run (fun ctx _ => some ctx) master.ctx).isSome

def framePdu : MasterLine → List UInt8 → List UInt8
  | rtu _, tx => rtuPdu tx
  | tcp _, tx => tx.drop 7

/-- A call on this master comes to `stream_write`. -/
def Transmits : MasterLine → Prop
  | rtu _ => True
  | tcp master => master.tcpState = .connected ∧ master.stream.isSome

end MasterLine

def MasterCall.countOffset : MasterCall → Option Nat
  | writeMultipleCoils .. | writeMultipleRegisters .. => some 5
  | writeAndReadRegisters .. => some 9
  | _ => none

structure WellFramed (call : MasterCall) (pdu : List UInt8) : Prop where
  short : pdu.length ≤ 253
  counted : ∀ place ∈ call.countOffset, ∃ count, pdu[place]? = some count ∧
    pdu.length = place + 1 + count.toNat

structure EncoderSound (kernel : List UInt8 → WriteResult) (call : MasterCall)
    (line : MasterLine) : Prop where
  inside : line.StoresInside kernel call
  framed : ∀ tx, line.transmitted kernel call = some tx → WellFramed call (line.framePdu tx)

def MasterCall.FitsPdu : MasterCall → Prop
  | writeMultipleCoils _ _ nb _ => (nb.toNat + 7) / 8 % 256 ≤ 247
  | writeMultipleRegisters _ _ nb _ => nb.toNat ≤ 123
  | writeAndReadRegisters _ _ nbWrite _ _ _ => nbWrite.toNat ≤ 121
  | _ => True

/-- The counts that fit `tx_buf` behind seven bytes. -/
def MasterCall.FitsBuffer : MasterCall → Prop
  | writeMultipleRegisters _ _ nb _ => nb.toNat ≤ 249
  | writeAndReadRegisters _ _ nbWrite _ _ _ => nbWrite.toNat ≤ 247
  | _ => True

section Pdu

theorem wellFramed_iff (call : MasterCall) : WellFramed call call.pdu ↔ call.FitsPdu := by
  have length := call.pdu_length
  constructor
  · rintro ⟨short, -⟩
    cases call <;> simp only [MasterCall.FitsPdu] at length ⊢ <;> omega
  · intro fits
    constructor
    · cases call <;> simp only [MasterCall.FitsPdu] at length fits <;> omega
    · cases call with
      | writeMultipleCoils slave regAddr nb values =>
          rintro place ⟨⟩
          refine ⟨masterCoilBytes nb, rfl, ?_⟩
          rw [length, masterCoilBytes_mod]
      | writeMultipleRegisters slave regAddr nb values =>
          have small : nb.toNat ≤ 123 := fits
          rintro place ⟨⟩
          refine ⟨registerBytes nb, rfl, ?_⟩
          rw [length, registerBytes_toNat (by omega)]
      | writeAndReadRegisters slave writeAddr nbWrite values readAddr nbRead =>
          have small : nbWrite.toNat ≤ 121 := fits
          rintro place ⟨⟩
          refine ⟨registerBytes nbWrite, rfl, ?_⟩
          rw [length, registerBytes_toNat (by omega)]
      | _ => rintro place ⟨⟩

theorem fitsBuffer_iff (call : MasterCall) : 7 + call.pdu.length ≤ 512 ↔ call.FitsBuffer := by
  rw [call.pdu_length]
  cases call with
  | writeMultipleCoils => exact iff_of_true (by dsimp only; omega) trivial
  | writeMultipleRegisters | writeAndReadRegisters =>
      dsimp only [MasterCall.FitsBuffer]
      omega
  | _ => exact iff_of_true (by simp) trivial

end Pdu

section Transports

variable {kernel : List UInt8 → WriteResult} {call : MasterCall}

theorem run_inside {ctx : ModbusMasterCTX} :
    (call.run (fun ctx _ => some ctx) ctx).isSome ↔
      ctx.pduOffset.toNat + call.pdu.length ≤ 512 := by
  constructor
  · intro ran
    rcases Option.isSome_iff_exists.mp ran with ⟨ctx', ran⟩
    rcases MasterCall.run_some ran with ⟨ctx', encoded, -⟩
    exact encoded.bound
  · intro room
    rcases call.run_encoded (fun ctx _ => some ctx) room with ⟨ctx', encoded, ran⟩
    rw [ran]
    rfl

theorem rtu_inside {master : ModbusRTUMaster} (offset : master.ctx.pduOffset = 1) :
    (modbusRtuMasterCall kernel master call).isSome ↔ call.pdu.length ≤ 509 := by
  constructor
  · intro ran
    rcases Option.isSome_iff_exists.mp ran with ⟨result, ran⟩
    rcases MasterCall.run_some ran with ⟨ctx', encoded, sent⟩
    have ndx : (addressTx ctx' call.slave).txNdx.toNat = 1 + call.pdu.length := by
      rw [← show master.ctx.pduOffset.toNat = 1 by rw [offset]; rfl]
      exact encoded.ndx
    have small : (addressTx ctx' call.slave).txNdx.toNat ≤ 512 := by
      have bound := encoded.bound
      rw [← encoded.ndx] at bound
      exact bound
    simp only [modbusRtuMasterRequest, Option.map_eq_some_iff] at sent
    rcases sent with ⟨ctx'', stored, -⟩
    have room := foldlM_putTx_room small stored
    rw [ndx] at room
    simp only [List.length_cons, List.length_nil] at room
    omega
  · intro room
    rcases modbusRtuMasterCall_frame kernel offset room with ⟨master', ran⟩
    rw [ran]
    rfl

variable (kernel) in
/-- With a stream a call that fits is transmitted, behind a header of seven bytes. -/
theorem tcp_transmitted {master : ModbusTCPMaster} (offset : master.ctx.pduOffset = 7)
    (room : 7 + call.pdu.length ≤ 512) (connected : master.tcpState = .connected)
    {stream : Stream 512} (opened : master.stream = some stream) :
    ∃ master' tx, modbusTcpMasterCall kernel master call = some (master', some tx) := by
  have inside : master.ctx.pduOffset.toNat + call.pdu.length ≤ 512 := by
    rw [offset]
    exact room
  rcases call.run_encoded (fun ctx slave =>
    modbusTcpMasterRequest kernel { master with ctx := ctx } slave) inside with
    ⟨ctx', encoded, run⟩
  rw [modbusTcpMasterCall, run, modbusTcpMasterRequest, if_neg (not_not.mpr connected)]
  dsimp only
  rw [opened, Option.bind_some]
  split
  · exact ⟨_, _, rfl⟩
  · exact ⟨_, _, rfl⟩

theorem tcp_frame {master master' : ModbusTCPMaster} (offset : master.ctx.pduOffset = 7)
    {tx : List UInt8} (ran : modbusTcpMasterCall kernel master call = some (master', some tx)) :
    tx.drop 7 = call.pdu ∧ master.tcpState = .connected ∧ master.stream.isSome := by
  rcases MasterCall.run_some ran with ⟨ctx', encoded, sent⟩
  rcases request_cases sent with ⟨-, -, impossible⟩ | ⟨connected, written, -⟩
  · simp at impossible
  · have ndx := encoded.ndx
    have bound := encoded.bound
    have pdu := encoded.pdu
    rw [offset] at ndx bound pdu
    have short : call.pdu.length ≤ 505 := Nat.le_of_add_le_add_left (a := 7) bound
    have bytes := request_bytes { master with ctx := ctx' } call.slave short ndx
    refine ⟨?_, connected, ?_⟩
    · rw [Option.some.inj written, bytes]
      exact pdu
    · rw [modbusTcpMasterRequest, if_neg (not_not.mpr connected)] at sent
      rcases Option.bind_eq_some_iff.mp sent with ⟨stream, opened, -⟩
      exact Option.isSome_of_eq_some opened

end Transports

section Lines

variable {kernel : List UInt8 → WriteResult} {call : MasterCall} {line : MasterLine}

theorem storesInside_iff (offset : line.ctx.pduOffset = line.offset) :
    line.StoresInside kernel call ↔
      match line with
      | .rtu _ => call.pdu.length ≤ 509
      | .tcp _ => 7 + call.pdu.length ≤ 512 := by
  cases line with
  | rtu master => exact rtu_inside offset
  | tcp master =>
      change (call.run (fun ctx _ => some ctx) master.ctx).isSome ↔ _
      rw [run_inside, show master.ctx.pduOffset = 7 from offset]
      rfl

theorem transmitted_pdu (offset : line.ctx.pduOffset = line.offset)
    (inside : line.StoresInside kernel call) {tx : List UInt8}
    (sent : line.transmitted kernel call = some tx) :
    line.framePdu tx = call.pdu ∧ line.Transmits := by
  cases line with
  | rtu master =>
      have room := (rtu_inside offset).mp inside
      rcases modbusRtuMasterCall_frame kernel offset room with ⟨master', ran⟩
      rw [MasterLine.transmitted, ran] at sent
      obtain rfl := Option.some.inj sent
      exact ⟨rtuPdu_rtuFrame call.slave call.pdu, trivial⟩
  | tcp master =>
      rcases Option.bind_eq_some_iff.mp sent with ⟨⟨master', sent'⟩, ran, rfl⟩
      rcases tcp_frame offset ran with ⟨pdu, connected, opened⟩
      exact ⟨pdu, connected, opened⟩

theorem transmitted_some (offset : line.ctx.pduOffset = line.offset)
    (inside : line.StoresInside kernel call) (able : line.Transmits) :
    ∃ tx, line.transmitted kernel call = some tx := by
  have room := (storesInside_iff offset).mp inside
  cases line with
  | rtu master =>
      rcases modbusRtuMasterCall_frame kernel offset room with ⟨master', ran⟩
      exact ⟨_, by rw [MasterLine.transmitted, ran]; rfl⟩
  | tcp master =>
      rcases Option.isSome_iff_exists.mp able.2 with ⟨stream, opened⟩
      rcases tcp_transmitted kernel offset room able.1 opened with ⟨master', tx, ran⟩
      exact ⟨tx, by rw [MasterLine.transmitted, ran]; rfl⟩

theorem fitsBuffer_of_fitsPdu (fits : call.FitsPdu) : call.FitsBuffer := by
  have short := ((wellFramed_iff call).mpr fits).short
  exact (fitsBuffer_iff call).mp (by omega)

/-- A call keeps inside the buffer and is framed as a PDU if and only if its counts fit a PDU;
where it is not transmitted, it is enough that they fit the buffer. -/
theorem master_encoder_iff (kernel : List UInt8 → WriteResult) (call : MasterCall)
    (line : MasterLine) (offset : line.ctx.pduOffset = line.offset) :
    EncoderSound kernel call line ↔ call.FitsBuffer ∧ (line.Transmits → call.FitsPdu) := by
  constructor
  · rintro ⟨inside, framed⟩
    have fits (able : line.Transmits) : call.FitsPdu := by
      rcases transmitted_some offset inside able with ⟨tx, sent⟩
      have frame := framed tx sent
      rw [(transmitted_pdu offset inside sent).1] at frame
      exact (wellFramed_iff call).mp frame
    refine ⟨?_, fits⟩
    cases line with
    | rtu master => exact fitsBuffer_of_fitsPdu (fits trivial)
    | tcp master => exact (fitsBuffer_iff call).mp ((storesInside_iff offset).mp inside)
  · rintro ⟨fits, framed⟩
    have inside : line.StoresInside kernel call := by
      have room := (fitsBuffer_iff call).mpr fits
      rw [storesInside_iff offset]
      cases line with
      | rtu master => dsimp only; omega
      | tcp master => exact room
    refine ⟨inside, fun tx sent => ?_⟩
    rcases transmitted_pdu offset inside sent with ⟨pdu, able⟩
    rw [pdu]
    exact (wellFramed_iff call).mpr (framed able)

end Lines

def serialMaster : ModbusRTUMaster :=
  modbusRtuMasterInit ⟨.replicate 512 0, 0, 0, 0, 0, 0, 0, 0⟩ 5 (.replicate 512 0)

theorem master_encoder_two :
    EncoderSound acceptAll (.writeMultipleRegisters 1 0 2 fun _ => 7) (.rtu serialMaster) := by
  have small : (MasterCall.writeMultipleRegisters 1 0 2 fun _ => 7).FitsPdu :=
    show (2 : UInt16).toNat ≤ 123 by decide
  exact (master_encoder_iff acceptAll _ (.rtu serialMaster) rfl).mpr
    ⟨fitsBuffer_of_fitsPdu small, fun _ => small⟩

/-- The PDU of 124 registers is too long, and with 252 registers the checksum is stored behind
the buffer. -/
theorem master_encoder_fails :
    ¬ EncoderSound acceptAll (.writeMultipleRegisters 1 0 124 fun _ => 7) (.rtu serialMaster) ∧
      ¬ EncoderSound acceptAll (.writeMultipleRegisters 1 0 252 fun _ => 7)
        (.rtu serialMaster) := by
  constructor
  · rintro ⟨inside, framed⟩
    have offset : (MasterLine.rtu serialMaster).ctx.pduOffset = 1 := rfl
    rcases transmitted_some offset inside trivial with ⟨tx, sent⟩
    have short := (framed tx sent).short
    rw [(transmitted_pdu offset inside sent).1, MasterCall.pdu_length] at short
    exact absurd short (by decide)
  · rintro ⟨inside, -⟩
    have room := (rtu_inside rfl).mp inside
    rw [MasterCall.pdu_length] at room
    exact absurd room (by decide)

end KongjaExpress.Modbus
