import KongjaExpress.Library.BigEndian
import KongjaExpress.Library.Memory

/-! The codes of `modbus_common.h` and the register callbacks of `modbus_slave.h`. -/

namespace KongjaExpress.Modbus

open BigEndian Memory

inductive MBException
  | none | illegalFunction | illegalDataAddress | illegalDataValue | slaveDeviceFailure
  | acknowledge | slaveBusy | memoryParityError | gatewayPathFailed | gatewayTgtFailed
  deriving DecidableEq, Repr

def MBException.code : MBException → UInt8
  | none => 0x00
  | illegalFunction => 0x01
  | illegalDataAddress => 0x02
  | illegalDataValue => 0x03
  | slaveDeviceFailure => 0x04
  | acknowledge => 0x05
  | slaveBusy => 0x06
  | memoryParityError => 0x08
  | gatewayPathFailed => 0x0A
  | gatewayTgtFailed => 0x0B

theorem MBException.code_injective {exception exception' : MBException}
    (same : exception.code = exception'.code) : exception = exception' := by
  cases exception <;> cases exception' <;> simp_all [code]

inductive MBErrorCode
  | enoerr | enoreg | einval | eporterr | enores | eio | eillstate | etimedout
  deriving DecidableEq, Repr

inductive MBRegisterMode
  | read | write
  deriving DecidableEq, Repr

def prveMBError2Exception : MBErrorCode → MBException
  | .enoerr => .none
  | .enoreg => .illegalDataAddress
  | .etimedout => .slaveBusy
  | _ => .slaveDeviceFailure

theorem prveMBError2Exception_none_iff {status : MBErrorCode} :
    prveMBError2Exception status = .none ↔ status = .enoerr := by
  cases status <;> simp [prveMBError2Exception]

/-- The four callbacks of `ModbusSlaveCTX`. -/
inductive RegKind
  | input | holding | coil | discrete
  deriving DecidableEq, Repr

/-- `eRegStatus`, the memory behind `pucRegBuffer` and the registers afterwards. -/
structure CallbackResult (σ : Type) (m : Nat) where
  status : MBErrorCode
  buffer : Vector UInt8 m
  store : σ
  deriving DecidableEq

/-- The application's callbacks over registers `σ`: slave address, the memory from
`pucRegBuffer` on, `usAddress`, `usNRegs`. The read-only ones are called with
`read`. -/
structure ModbusSlaveCTX (σ : Type) where
  callback : RegKind → MBRegisterMode → UInt8 → {m : Nat} → Vector UInt8 m → UInt16 →
    UInt16 → σ → CallbackResult σ m

/-- The callbacks of `modbus_slave_test.c`, which trace their arguments and agree. -/
def testSlave : ModbusSlaveCTX Unit where
  callback _ _ _ _ buffer _ _ store := ⟨.enoerr, buffer, store⟩

/-- The bytes that hold the values of `usNRegs` items. -/
def dataSize (kind : RegKind) (usNRegs : UInt16) : Nat :=
  match kind with
  | .input | .holding => 2 * usNRegs.toNat
  | .coil | .discrete => (usNRegs.toNat + 7) / 8

structure RegCall where
  kind : RegKind
  mode : MBRegisterMode
  addr : UInt8
  usAddress : UInt16
  usNRegs : UInt16
  written : List UInt8
  status : MBErrorCode
  deriving DecidableEq, Repr

/-- A handler at work: the memory from `pucFrame` on (`k` bytes more than a PDU's
253), `*usLen`, the registers and the calls made so far. -/
structure Handling (σ : Type) (k : Nat) where
  pucFrame : Vector UInt8 (253 + k)
  usLen : UInt16
  store : σ
  calls : List RegCall

variable {σ : Type} {k m : Nat}

def writtenData (kind : RegKind) (mode : MBRegisterMode) (usNRegs : UInt16)
    (buffer : Vector UInt8 m) : List UInt8 :=
  match mode with
  | .read => []
  | .write => front buffer (dataSize kind usNRegs)

/-- A callback on memory of its own, which the handler does not look at again. -/
def invokeOn (ctx : ModbusSlaveCTX σ) (kind : RegKind) (mode : MBRegisterMode) (addr : UInt8)
    (buffer : Vector UInt8 m) (usAddress usNRegs : UInt16) (h : Handling σ k) :
    MBErrorCode × Handling σ k :=
  let result := ctx.callback kind mode addr buffer usAddress usNRegs h.store
  (result.status, { h with
    store := result.store
    calls := h.calls ++
      [⟨kind, mode, addr, usAddress, usNRegs, writtenData kind mode usNRegs buffer,
        result.status⟩] })

/-- A callback on `&pucFrame[offset]`. -/
def invoke (ctx : ModbusSlaveCTX σ) (kind : RegKind) (mode : MBRegisterMode) (addr : UInt8)
    (offset : Nat) (usAddress usNRegs : UInt16) (h : Handling σ k) :
    MBErrorCode × Handling σ k :=
  let buffer := h.pucFrame.drop offset
  let result := ctx.callback kind mode addr buffer usAddress usNRegs h.store
  let (eRegStatus, next) := invokeOn ctx kind mode addr buffer usAddress usNRegs h
  (eRegStatus, { next with pucFrame := overlay h.pucFrame offset result.buffer })

end KongjaExpress.Modbus
