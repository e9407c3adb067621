import KongjaExpress.Modbus.Funcs

/-! `modbus_rtu_handler_request_rx`. -/

namespace KongjaExpress.Modbus

open BigEndian Memory

variable {σ : Type} {k : Nat}

/-- What the handler returns, `*rsp_len`, the memory behind `pdu`, the registers and
the callbacks made. -/
structure RequestResult (σ : Type) (k : Nat) where
  ok : Bool
  rspLen : UInt16
  pdu : Vector UInt8 (253 + k)
  store : σ
  calls : List RegCall

def requestDispatch (func : UInt8) (ctx : ModbusSlaveCTX σ) (addr : UInt8)
    (h : Handling σ k) : MBException × Handling σ k :=
  match func with
  | 4 => modbusFuncHandlerReadInputRegister ctx addr h
  | 3 => modbusFuncHandlerReadHoldingRegister ctx addr h
  | 16 => modbusFuncHandlerWriteMultipleHoldingRegisters ctx addr h
  | 6 => modbusFuncHandlerWriteHoldingRegister ctx addr h
  | 23 => modbusFuncHandlerReadWriteMultipleHoldingRegisters ctx addr h
  | 1 => modbusFuncHandlerReadCoils ctx addr h
  | 5 => modbusFuncHandlerWriteCoil ctx addr h
  | 15 => modbusFuncHandlerWriteMultipleCoils ctx addr h
  | 2 => modbusFuncHandlerReadDiscreteInputs ctx addr h
  | _ => (.illegalFunction, h)

/-- The exception response, or the response the handler left in the PDU. -/
def requestFinish (func : UInt8) (r : MBException × Handling σ k) : RequestResult σ k :=
  let (ret, h) := r
  if ret ≠ .none then
    { ok := false
      rspLen := 2
      pdu := setHeader h.pucFrame (func ||| 0x80) ret.code
      store := h.store
      calls := h.calls }
  else
    { ok := true, rspLen := h.usLen, pdu := h.pucFrame, store := h.store, calls := h.calls }

def requested (len : UInt16) (pdu : Vector UInt8 (253 + k)) (store : σ) : Handling σ k :=
  { pucFrame := pdu, usLen := len, store := store, calls := [] }

def modbusRtuHandlerRequestRx (ctx : ModbusSlaveCTX σ) (addr : UInt8) (len : UInt16)
    (pdu : Vector UInt8 (253 + k)) (store : σ) : RequestResult σ k :=
  let func := byte0 pdu
  requestFinish func (requestDispatch func ctx addr (requested len pdu store))

@[simp] theorem requestFinish_calls (func : UInt8) (r : MBException × Handling σ k) :
    (requestFinish func r).calls = r.2.calls := by
  unfold requestFinish
  dsimp only
  split <;> rfl

@[simp] theorem requestFinish_store (func : UInt8) (r : MBException × Handling σ k) :
    (requestFinish func r).store = r.2.store := by
  unfold requestFinish
  dsimp only
  split <;> rfl

theorem requestFinish_ok_iff {func : UInt8} {r : MBException × Handling σ k} :
    (requestFinish func r).ok = true ↔ r.1 = .none := by
  unfold requestFinish
  dsimp only
  split <;> simp_all

theorem requestFinish_exception {func : UInt8} {r : MBException × Handling σ k}
    (exception : r.1 ≠ .none) :
    requestFinish func r =
      { ok := false
        rspLen := 2
        pdu := setHeader r.2.pucFrame (func ||| 0x80) r.1.code
        store := r.2.store
        calls := r.2.calls } :=
  if_pos exception

def Supported (func : UInt8) : Prop :=
  func ∈ ([1, 2, 3, 4, 5, 6, 15, 16, 23] : List UInt8)

instance (func : UInt8) : Decidable (Supported func) := inferInstanceAs (Decidable (_ ∈ _))

section Grammar

variable (len : UInt16) (pdu : Vector UInt8 (253 + k))

def quantity : Nat := (word3 pdu).toNat

def byteCount : Nat := (byte5 pdu).toNat

def writeQuantity : Nat := (word7 pdu).toNat

def writeByteCount : Nat := (byte9 pdu).toNat

/-- The PDU has the length its function code and its byte count announce, and the byte
count is the one for its quantity. -/
def LengthConsistent : Prop :=
  match byte0 pdu with
  | 1 | 2 | 3 | 4 | 5 | 6 => len = 5
  | 15 => len.toNat = 6 + byteCount pdu ∧ byteCount pdu = (quantity pdu + 7) / 8
  | 16 => len.toNat = 6 + byteCount pdu ∧ byteCount pdu = 2 * quantity pdu
  | 23 => len.toNat = 10 + writeByteCount pdu ∧ writeByteCount pdu = 2 * writeQuantity pdu
  | _ => False

/-- The checks a handler makes before it writes the `dataSize` bytes that follow a
header of 6 or 10 bytes. -/
def HeaderAccepted : Prop :=
  match byte0 pdu with
  | 15 => 6 ≤ len.toNat ∧ 1 ≤ quantity pdu ∧ quantity pdu ≤ 0x07B0 ∧
      byteCount pdu = (quantity pdu + 7) / 8
  | 16 => 6 ≤ len.toNat ∧ 1 ≤ quantity pdu ∧ quantity pdu ≤ 0x0078 ∧
      byteCount pdu = 2 * quantity pdu
  | 23 => 10 ≤ len.toNat ∧ 1 ≤ quantity pdu ∧ quantity pdu ≤ 0x7D ∧
      1 ≤ writeQuantity pdu ∧ writeQuantity pdu ≤ 0x79 ∧
      writeByteCount pdu = 2 * writeQuantity pdu
  | _ => False

def dataEnd : Nat :=
  match byte0 pdu with
  | 15 | 16 => 6 + byteCount pdu
  | 23 => 10 + writeByteCount pdu
  | _ => 0

end Grammar

end KongjaExpress.Modbus
