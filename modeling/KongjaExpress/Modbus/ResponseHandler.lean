import KongjaExpress.Modbus.Funcs
import KongjaExpress.Modbus.Master

/-! `modbus_rtu_handler_response_rx`. -/

namespace KongjaExpress.Modbus

open BigEndian Memory

variable {k : Nat}

/-- A call of one of the application's callbacks: `regs` is where the data start in the
PDU, or none for `NULL`. The read-only callbacks have no mode and stand with `read`. -/
structure AppCall where
  kind : RegKind
  slave : UInt8
  addr : UInt16
  nreg : UInt16
  regs : Option Nat
  mode : MBRegisterMode
  deriving DecidableEq, Repr

def modbusRtuValidateResponse (ctx : ModbusMasterCTX) (_slave : UInt8)
    (pdu : Vector UInt8 (253 + k)) (pduLen : Int) : Bool :=
  if ctx.reqFunc ≠ byte0 pdu then false
  else
    match ctx.reqFunc with
    | 1 | 2 =>
        if pduLen ≠ 2 + (byte1 pdu).toNat then false
        else
          let nb := (byte1 pdu).toUInt16 * 8
          if nb < ctx.reqNb then false else true
    | 3 | 4 =>
        if pduLen ≠ 2 + (byte1 pdu).toNat then false
        else
          let nb := (byte1 pdu).toUInt16 / 2
          if ctx.reqNb ≠ nb then false else true
    | 5 | 6 =>
        if pduLen ≠ 5 then false
        else
          let value := word3 pdu
          if value ≠ ctx.reqValue then false
          else
            let addr := word1 pdu
            if addr ≠ ctx.reqRegAddr then false else true
    | 15 | 16 =>
        if pduLen ≠ 5 then false
        else
          let addr := word1 pdu
          let nb := word3 pdu
          if addr ≠ ctx.reqRegAddr ∨ nb ≠ ctx.reqNb then false else true
    | 23 =>
        if pduLen ≠ 2 + (byte1 pdu).toNat then false
        else
          let nb := (byte1 pdu).toUInt16 / 2
          if ctx.reqNb ≠ nb then false else true
    | _ => false

def responseCallback (ctx : ModbusMasterCTX) (slave : UInt8) : Option AppCall :=
  match ctx.reqFunc with
  | 1 => some ⟨.coil, slave, ctx.reqRegAddr, ctx.reqNb, some 2, .read⟩
  | 2 => some ⟨.discrete, slave, ctx.reqRegAddr, ctx.reqNb, some 2, .read⟩
  | 3 => some ⟨.holding, slave, ctx.reqRegAddr, ctx.reqNb, some 2, .read⟩
  | 4 => some ⟨.input, slave, ctx.reqRegAddr, ctx.reqNb, some 2, .read⟩
  | 5 => some ⟨.coil, slave, ctx.reqRegAddr, ctx.reqNb, some 3, .write⟩
  | 6 => some ⟨.holding, slave, ctx.reqRegAddr, ctx.reqNb, some 3, .write⟩
  | 15 => some ⟨.coil, slave, ctx.reqRegAddr, ctx.reqNb, none, .write⟩
  | 16 => some ⟨.holding, slave, ctx.reqRegAddr, ctx.reqNb, none, .write⟩
  | 23 => some ⟨.holding, slave, ctx.reqRegAddr, ctx.reqNb, none, .read⟩
  | _ => none

def modbusRtuHandlerResponseRx (ctx : ModbusMasterCTX) (slave : UInt8)
    (pdu : Vector UInt8 (253 + k)) (pduLen : Int) : Option AppCall :=
  if modbusRtuValidateResponse ctx slave pdu pduLen ≠ true then none
  else responseCallback ctx slave

theorem coilsCounted_toNat (count : UInt8) : (count.toUInt16 * 8).toNat = 8 * count.toNat := by
  have small : count.toNat < 2 ^ 8 := count.toNat_lt
  rw [UInt16.toNat_mul, UInt8.toNat_toUInt16]
  simp only [UInt16.reduceToNat]
  omega

/-- The number of registers it reads, with a byte too many or without. -/
theorem registersCounted_toNat (count : UInt8) : (count.toUInt16 / 2).toNat = count.toNat / 2 := by
  rw [UInt16.toNat_div, UInt8.toNat_toUInt16]
  rfl

theorem registersCounted {count : UInt8} {n : UInt16} (twice : count.toNat = 2 * n.toNat) :
    count.toUInt16 / 2 = n := by
  apply UInt16.toNat_inj.mp
  rw [registersCounted_toNat, twice]
  exact Nat.mul_div_cancel_left n.toNat (by decide)

theorem validateResponse_func {ctx : ModbusMasterCTX} {slave : UInt8}
    {pdu : Vector UInt8 (253 + k)} {pduLen : Int}
    (valid : modbusRtuValidateResponse ctx slave pdu pduLen = true) : ctx.reqFunc = byte0 pdu := by
  by_contra other
  rw [modbusRtuValidateResponse, if_pos other] at valid
  exact Bool.false_ne_true valid

theorem responseCallback_args {ctx : ModbusMasterCTX} {slave : UInt8} {call : AppCall}
    (called : responseCallback ctx slave = some call) :
    call.slave = slave ∧ call.addr = ctx.reqRegAddr ∧ call.nreg = ctx.reqNb := by
  unfold responseCallback at called
  split at called
  case h_10 => simp at called
  all_goals
    obtain rfl := Option.some.inj called
    exact ⟨rfl, rfl, rfl⟩

theorem handlerResponseRx_args {ctx : ModbusMasterCTX} {slave : UInt8}
    {pdu : Vector UInt8 (253 + k)} {pduLen : Int} {call : AppCall}
    (called : modbusRtuHandlerResponseRx ctx slave pdu pduLen = some call) :
    byte0 pdu = ctx.reqFunc ∧ call.slave = slave ∧ call.addr = ctx.reqRegAddr ∧
      call.nreg = ctx.reqNb := by
  unfold modbusRtuHandlerResponseRx at called
  split at called
  · simp at called
  · rename_i valid
    exact ⟨(validateResponse_func (not_not.mp valid)).symm, responseCallback_args called⟩

end KongjaExpress.Modbus
