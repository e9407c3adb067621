import KongjaExpress.Library.BigEndian
import KongjaExpress.Library.Memory
import KongjaExpress.Library.Run

/-! The request encoders of `modbus_master.c`. -/

namespace KongjaExpress.Modbus

open BigEndian Memory

/-- `ModbusMasterCTX`; the transport's `request` and the application's callbacks are
arguments and results of the functions that call them. -/
structure ModbusMasterCTX where
  txBuf : Vector UInt8 512
  txNdx : UInt16
  pduOffset : UInt8
  reqFunc : UInt8
  reqSlave : UInt8
  reqRegAddr : UInt16
  reqNb : UInt16
  reqValue : UInt16
  deriving DecidableEq, Repr

/-- `ctx->tx_buf[ctx->tx_ndx++] = data`; `none` is a store outside `tx_buf`. -/
def putTx (ctx : ModbusMasterCTX) (data : UInt8) : Option ModbusMasterCTX :=
  (store ctx.txBuf ctx.txNdx.toNat data).map fun txBuf =>
    { ctx with txBuf := txBuf, txNdx := ctx.txNdx + 1 }

def putWord (ctx : ModbusMasterCTX) (value : UInt16) : Option ModbusMasterCTX := do
  let ctx ← putTx ctx (highByte value)
  putTx ctx (lowByte value)

def mbMasterFillIoStatusReq (ctx : ModbusMasterCTX) (function : UInt8)
    (regAddr nbOrV : UInt16) : Option ModbusMasterCTX := do
  let ctx ← putTx { ctx with txNdx := ctx.pduOffset.toUInt16 } function
  let ctx ← putWord ctx regAddr
  putWord ctx nbOrV

/-- The bits of one byte, from `bit` up to 8: its value and where `pos` has come to. -/
def coilBits (values : Nat → UInt8) (nb : UInt16) :
    (left : Nat) → (bit : Nat) → (pos : UInt16) → UInt8 → UInt8 × UInt16
  | 0, _, pos, byte => (byte, pos)
  | left + 1, bit, pos, byte =>
      if pos < nb then
        let byte := if values pos.toNat ≠ 0 then byte ||| ((1 : UInt8) <<< .ofNat bit) else byte
        coilBits values nb left (bit + 1) (pos + 1) byte
      else (byte, pos)

/-- The loop of `mb_master_write_multiple_coils`, with `left` bytes to come. -/
def putCoils (values : Nat → UInt8) (nb : UInt16) :
    (left : Nat) → (pos : UInt16) → ModbusMasterCTX → Option ModbusMasterCTX
  | 0, _, ctx => some ctx
  | left + 1, pos, ctx => do
      let (byte, pos) := coilBits values nb 8 0 pos 0
      let ctx ← putTx ctx byte
      putCoils values nb left pos ctx

/-- The loop over `values[i]`, with `left` registers to come. -/
def putRegisters (values : Nat → UInt16) :
    (left : Nat) → (i : Nat) → ModbusMasterCTX → Option ModbusMasterCTX
  | 0, _, ctx => some ctx
  | left + 1, i, ctx => do
      let ctx ← putWord ctx (values i)
      putRegisters values left (i + 1) ctx

def saveRequest (ctx : ModbusMasterCTX) (func slave : UInt8) (regAddr nb : UInt16) :
    ModbusMasterCTX :=
  { ctx with reqFunc := func, reqSlave := slave, reqRegAddr := regAddr, reqNb := nb }

section Encoders

variable {R : Type} (request : ModbusMasterCTX → UInt8 → Option R) (ctx : ModbusMasterCTX)
  (slave : UInt8)

/-- The four encoders of read requests, by their function codes. -/
def readReq (func : UInt8) (regAddr nb : UInt16) : Option R := do
  let ctx ← mbMasterFillIoStatusReq (saveRequest ctx func slave regAddr nb) func regAddr nb
  request ctx slave

def mbMasterReadCoilsReq (regAddr nb : UInt16) : Option R :=
  readReq request ctx slave 1 regAddr nb

def mbMasterReadDiscreteInputs (regAddr nb : UInt16) : Option R :=
  readReq request ctx slave 2 regAddr nb

def mbMasterReadHoldingRegisters (regAddr nb : UInt16) : Option R :=
  readReq request ctx slave 3 regAddr nb

def mbMasterReadInputRegisters (regAddr nb : UInt16) : Option R :=
  readReq request ctx slave 4 regAddr nb

/-- The two encoders of requests to write one item. -/
def writeSingleReq (func : UInt8) (regAddr value : UInt16) : Option R := do
  let ctx := { saveRequest ctx func slave regAddr 1 with reqValue := value }
  let ctx ← mbMasterFillIoStatusReq ctx func regAddr value
  request ctx slave

def mbMasterWriteSingleCoil (regAddr : UInt16) (value : UInt8) : Option R :=
  writeSingleReq request ctx slave 5 regAddr (if value ≠ 0 then 0xff00 else 0x0000)

def mbMasterWriteSingleRegister (regAddr value : UInt16) : Option R :=
  writeSingleReq request ctx slave 6 regAddr value

/-- `(nb / 8) + ((nb % 8) ? 1 : 0)`, kept to eight bits. -/
def masterCoilBytes (nb : UInt16) : UInt8 := (nb / 8 + (if nb % 8 ≠ 0 then 1 else 0)).toUInt8

/-- `values` is the memory behind the argument. -/
def mbMasterWriteMultipleCoils (regAddr nb : UInt16) (values : Nat → UInt8) : Option R := do
  let ctx ← mbMasterFillIoStatusReq (saveRequest ctx 15 slave regAddr nb) 15 regAddr nb
  let byteCount := masterCoilBytes nb
  let ctx ← putTx ctx byteCount
  let ctx ← putCoils values nb byteCount.toNat 0 ctx
  request ctx slave

def mbMasterWriteMultipleRegisters (regAddr nb : UInt16) (values : Nat → UInt16) : Option R := do
  let ctx ← mbMasterFillIoStatusReq (saveRequest ctx 16 slave regAddr nb) 16 regAddr nb
  let ctx ← putTx ctx (nb * 2).toUInt8
  let ctx ← putRegisters values nb.toNat 0 ctx
  request ctx slave

def mbMasterWriteAndReadRegisters (writeAddr nbWrite : UInt16) (values : Nat → UInt16)
    (readAddr nbRead : UInt16) : Option R := do
  let ctx ← mbMasterFillIoStatusReq (saveRequest ctx 23 slave readAddr nbRead) 23 readAddr nbRead
  let ctx ← putWord ctx writeAddr
  let ctx ← putWord ctx nbWrite
  let ctx ← putTx ctx (nbWrite * 2).toUInt8
  let ctx ← putRegisters values nbWrite.toNat 0 ctx
  request ctx slave

end Encoders

/-- The calls of `mb_master_*` without the context. -/
inductive MasterCall
  | readCoils (slave : UInt8) (regAddr nb : UInt16)
  | readDiscreteInputs (slave : UInt8) (regAddr nb : UInt16)
  | readHoldingRegisters (slave : UInt8) (regAddr nb : UInt16)
  | readInputRegisters (slave : UInt8) (regAddr nb : UInt16)
  | writeSingleCoil (slave : UInt8) (regAddr : UInt16) (value : UInt8)
  | writeSingleRegister (slave : UInt8) (regAddr value : UInt16)
  | writeMultipleCoils (slave : UInt8) (regAddr nb : UInt16) (values : Nat → UInt8)
  | writeMultipleRegisters (slave : UInt8) (regAddr nb : UInt16) (values : Nat → UInt16)
  | writeAndReadRegisters (slave : UInt8) (writeAddr nbWrite : UInt16) (values : Nat → UInt16)
      (readAddr nbRead : UInt16)

namespace MasterCall

def run {R : Type} (request : ModbusMasterCTX → UInt8 → Option R) (ctx : ModbusMasterCTX) :
    MasterCall → Option R
  | readCoils slave regAddr nb => mbMasterReadCoilsReq request ctx slave regAddr nb
  | readDiscreteInputs slave regAddr nb => mbMasterReadDiscreteInputs request ctx slave regAddr nb
  | readHoldingRegisters slave regAddr nb =>
      mbMasterReadHoldingRegisters request ctx slave regAddr nb
  | readInputRegisters slave regAddr nb => mbMasterReadInputRegisters request ctx slave regAddr nb
  | writeSingleCoil slave regAddr value =>
      mbMasterWriteSingleCoil request ctx slave regAddr value
  | writeSingleRegister slave regAddr value =>
      mbMasterWriteSingleRegister request ctx slave regAddr value
  | writeMultipleCoils slave regAddr nb values =>
      mbMasterWriteMultipleCoils request ctx slave regAddr nb values
  | writeMultipleRegisters slave regAddr nb values =>
      mbMasterWriteMultipleRegisters request ctx slave regAddr nb values
  | writeAndReadRegisters slave writeAddr nbWrite values readAddr nbRead =>
      mbMasterWriteAndReadRegisters request ctx slave writeAddr nbWrite values readAddr nbRead

def slave : MasterCall → UInt8
  | readCoils slave .. | readDiscreteInputs slave .. | readHoldingRegisters slave ..
  | readInputRegisters slave .. | writeSingleCoil slave .. | writeSingleRegister slave ..
  | writeMultipleCoils slave .. | writeMultipleRegisters slave ..
  | writeAndReadRegisters slave .. => slave

def func : MasterCall → UInt8
  | readCoils .. => 1
  | readDiscreteInputs .. => 2
  | readHoldingRegisters .. => 3
  | readInputRegisters .. => 4
  | writeSingleCoil .. => 5
  | writeSingleRegister .. => 6
  | writeMultipleCoils .. => 15
  | writeMultipleRegisters .. => 16
  | writeAndReadRegisters .. => 23

def regAddr : MasterCall → UInt16
  | readCoils _ regAddr _ | readDiscreteInputs _ regAddr _ | readHoldingRegisters _ regAddr _
  | readInputRegisters _ regAddr _ | writeSingleCoil _ regAddr _
  | writeSingleRegister _ regAddr _ | writeMultipleCoils _ regAddr _ _
  | writeMultipleRegisters _ regAddr _ _ => regAddr
  | writeAndReadRegisters _ _ _ _ readAddr _ => readAddr

def nb : MasterCall → UInt16
  | readCoils _ _ nb | readDiscreteInputs _ _ nb | readHoldingRegisters _ _ nb
  | readInputRegisters _ _ nb | writeMultipleCoils _ _ nb _
  | writeMultipleRegisters _ _ nb _ => nb
  | writeSingleCoil .. | writeSingleRegister .. => 1
  | writeAndReadRegisters _ _ _ _ _ nbRead => nbRead

end MasterCall

/-- The data bytes of the coils, `left` bytes from `pos` on. -/
def coilData (values : Nat → UInt8) (nb : UInt16) : (left : Nat) → (pos : UInt16) → List UInt8
  | 0, _ => []
  | left + 1, pos =>
      (coilBits values nb 8 0 pos 0).1 ::
        coilData values nb left (coilBits values nb 8 0 pos 0).2

/-- The data bytes of the registers, `left` registers from `i` on. -/
def registerData (values : Nat → UInt16) : (left : Nat) → (i : Nat) → List UInt8
  | 0, _ => []
  | left + 1, i => wordBytes (values i) ++ registerData values left (i + 1)

theorem putWord_eq (ctx : ModbusMasterCTX) (value : UInt16) :
    putWord ctx value = (wordBytes value).foldlM putTx ctx := by
  simp [putWord, wordBytes]

theorem putCoils_eq (values : Nat → UInt8) (nb : UInt16) (left : Nat) (pos : UInt16)
    (ctx : ModbusMasterCTX) :
    putCoils values nb left pos ctx = (coilData values nb left pos).foldlM putTx ctx := by
  induction left generalizing pos ctx with
  | zero => rfl
  | succ left ih => simp [putCoils, coilData, ih]

theorem putRegisters_eq (values : Nat → UInt16) (left i : Nat) (ctx : ModbusMasterCTX) :
    putRegisters values left i ctx = (registerData values left i).foldlM putTx ctx := by
  induction left generalizing i ctx with
  | zero => rfl
  | succ left ih => simp [putRegisters, registerData, ih, putWord_eq, List.foldlM_append]

theorem fill_eq (ctx : ModbusMasterCTX) (function : UInt8) (regAddr nbOrV : UInt16) :
    mbMasterFillIoStatusReq ctx function regAddr nbOrV =
      (function :: wordBytes regAddr ++ wordBytes nbOrV).foldlM putTx
        { ctx with txNdx := ctx.pduOffset.toUInt16 } := by
  simp [mbMasterFillIoStatusReq, putWord_eq, List.foldlM_append]

namespace MasterCall

def pdu : MasterCall → List UInt8
  | readCoils _ regAddr nb => 1 :: wordBytes regAddr ++ wordBytes nb
  | readDiscreteInputs _ regAddr nb => 2 :: wordBytes regAddr ++ wordBytes nb
  | readHoldingRegisters _ regAddr nb => 3 :: wordBytes regAddr ++ wordBytes nb
  | readInputRegisters _ regAddr nb => 4 :: wordBytes regAddr ++ wordBytes nb
  | writeSingleCoil _ regAddr value =>
      5 :: wordBytes regAddr ++ wordBytes (if value ≠ 0 then 0xff00 else 0x0000)
  | writeSingleRegister _ regAddr value => 6 :: wordBytes regAddr ++ wordBytes value
  | writeMultipleCoils _ regAddr nb values =>
      15 :: wordBytes regAddr ++ wordBytes nb ++
        masterCoilBytes nb :: coilData values nb (masterCoilBytes nb).toNat 0
  | writeMultipleRegisters _ regAddr nb values =>
      16 :: wordBytes regAddr ++ wordBytes nb ++
        (nb * 2).toUInt8 :: registerData values nb.toNat 0
  | writeAndReadRegisters _ writeAddr nbWrite values readAddr nbRead =>
      23 :: wordBytes readAddr ++ wordBytes nbRead ++ wordBytes writeAddr ++
        wordBytes nbWrite ++ (nbWrite * 2).toUInt8 :: registerData values nbWrite.toNat 0

def begin (call : MasterCall) (ctx : ModbusMasterCTX) : ModbusMasterCTX :=
  let ctx := { saveRequest ctx call.func call.slave call.regAddr call.nb with
    txNdx := ctx.pduOffset.toUInt16 }
  match call with
  | writeSingleCoil _ _ value => { ctx with reqValue := if value ≠ 0 then 0xff00 else 0x0000 }
  | writeSingleRegister _ _ value => { ctx with reqValue := value }
  | _ => ctx

theorem run_eq {R : Type} (request : ModbusMasterCTX → UInt8 → Option R)
    (ctx : ModbusMasterCTX) (call : MasterCall) :
    call.run request ctx =
      (call.pdu.foldlM putTx (call.begin ctx)).bind fun ctx => request ctx call.slave := by
  cases call with
  | readCoils | readDiscreteInputs | readHoldingRegisters | readInputRegisters =>
      simp only [run, mbMasterReadCoilsReq, mbMasterReadDiscreteInputs,
        mbMasterReadHoldingRegisters, mbMasterReadInputRegisters, readReq, fill_eq, pdu,
        Option.bind_eq_bind]
      rfl
  | writeSingleCoil | writeSingleRegister =>
      simp only [run, mbMasterWriteSingleCoil, mbMasterWriteSingleRegister, writeSingleReq,
        fill_eq, pdu, Option.bind_eq_bind]
      rfl
  | writeMultipleCoils =>
      simp only [run, mbMasterWriteMultipleCoils, fill_eq, putCoils_eq, pdu, List.foldlM_append,
        List.foldlM_cons, Option.bind_eq_bind, Option.bind_assoc]
      rfl
  | writeMultipleRegisters =>
      simp only [run, mbMasterWriteMultipleRegisters, fill_eq, putRegisters_eq, pdu,
        List.foldlM_append, List.foldlM_cons, Option.bind_eq_bind, Option.bind_assoc]
      rfl
  | writeAndReadRegisters =>
      simp only [run, mbMasterWriteAndReadRegisters, fill_eq, putWord_eq, putRegisters_eq, pdu,
        List.foldlM_append, List.foldlM_cons, Option.bind_eq_bind, Option.bind_assoc]
      rfl

end MasterCall

/-- All of a context but its transmit buffer. -/
structure SameRequest (ctx ctx' : ModbusMasterCTX) : Prop where
  pduOffset : ctx'.pduOffset = ctx.pduOffset
  reqFunc : ctx'.reqFunc = ctx.reqFunc
  reqSlave : ctx'.reqSlave = ctx.reqSlave
  reqRegAddr : ctx'.reqRegAddr = ctx.reqRegAddr
  reqNb : ctx'.reqNb = ctx.reqNb
  reqValue : ctx'.reqValue = ctx.reqValue

theorem putTx_some {ctx : ModbusMasterCTX} (room : ctx.txNdx.toNat < 512) (data : UInt8) :
    putTx ctx data = some { ctx with
      txBuf := ctx.txBuf.set ctx.txNdx.toNat data
      txNdx := ctx.txNdx + 1 } := by
  rw [putTx, store_some room]
  rfl

theorem putTx_room {ctx ctx' : ModbusMasterCTX} {data : UInt8}
    (put : putTx ctx data = some ctx') : ctx.txNdx.toNat < 512 := by
  rw [putTx, Option.map_eq_some_iff] at put
  rcases put with ⟨txBuf, stored, -⟩
  have inside := (@store_isSome_iff _ _ ctx.txBuf ctx.txNdx.toNat data).mp (by rw [stored]; rfl)
  omega

structure Appends (ctx : ModbusMasterCTX) (bytes : List UInt8) (ctx' : ModbusMasterCTX) :
    Prop where
  same : SameRequest ctx ctx'
  ndx : ctx'.txNdx.toNat = ctx.txNdx.toNat + bytes.length
  bound : ctx.txNdx.toNat + bytes.length ≤ 512
  held : front ctx'.txBuf ctx'.txNdx.toNat = front ctx.txBuf ctx.txNdx.toNat ++ bytes

theorem foldlM_putTx {bytes : List UInt8} {ctx : ModbusMasterCTX}
    (room : ctx.txNdx.toNat + bytes.length ≤ 512) :
    ∃ ctx', bytes.foldlM putTx ctx = some ctx' ∧ Appends ctx bytes ctx' := by
  induction bytes generalizing ctx with
  | nil => exact ⟨ctx, rfl, ⟨rfl, rfl, rfl, rfl, rfl, rfl⟩, rfl, room, (List.append_nil _).symm⟩
  | cons data bytes ih =>
      rw [List.length_cons] at room
      have inside : ctx.txNdx.toNat < 512 := by omega
      have next : (ctx.txNdx + 1).toNat = ctx.txNdx.toNat + 1 := by
        rw [UInt16.toNat_add]
        exact Nat.mod_eq_of_lt (by simp; omega)
      let stored := { ctx with
        txBuf := ctx.txBuf.set ctx.txNdx.toNat data
        txNdx := ctx.txNdx + 1 }
      have more : stored.txNdx.toNat + bytes.length ≤ 512 := by
        change (ctx.txNdx + 1).toNat + bytes.length ≤ 512
        omega
      rcases ih more with ⟨ctx', run, appends⟩
      refine ⟨ctx', ?_, ?_⟩
      · rw [List.foldlM_cons, putTx_some inside]
        exact run
      · constructor
        · exact ⟨appends.same.pduOffset, appends.same.reqFunc, appends.same.reqSlave,
            appends.same.reqRegAddr, appends.same.reqNb, appends.same.reqValue⟩
        · rw [appends.ndx, List.length_cons]
          change (ctx.txNdx + 1).toNat + bytes.length = _
          omega
        · exact room
        · have written : front stored.txBuf stored.txNdx.toNat =
              front ctx.txBuf ctx.txNdx.toNat ++ [data] := by
            change front (ctx.txBuf.set ctx.txNdx.toNat data) (ctx.txNdx + 1).toNat = _
            rw [next, front_set_succ _ inside]
          rw [appends.held, written, List.append_assoc, List.singleton_append]

theorem foldlM_putTx_room {bytes : List UInt8} {ctx ctx' : ModbusMasterCTX}
    (start : ctx.txNdx.toNat ≤ 512) (ran : bytes.foldlM putTx ctx = some ctx') :
    ctx.txNdx.toNat + bytes.length ≤ 512 := by
  induction bytes generalizing ctx with
  | nil => exact start
  | cons data bytes ih =>
      rcases Run.foldlM_cons_some ran with ⟨stored, put, rest⟩
      have inside := putTx_room put
      rw [putTx_some inside, Option.some.injEq] at put
      have next : stored.txNdx.toNat = ctx.txNdx.toNat + 1 := by
        rw [← put, UInt16.toNat_add]
        exact Nat.mod_eq_of_lt (by simp; omega)
      have more := ih (by omega) rest
      rw [List.length_cons]
      omega

/-- A call that reaches the transport: the request is saved, and its PDU stands at
`pdu_offset` in `tx_buf`, up to `tx_ndx`. -/
structure Encoded (call : MasterCall) (ctx ctx' : ModbusMasterCTX) : Prop where
  same : SameRequest (call.begin ctx) ctx'
  ndx : ctx'.txNdx.toNat = ctx.pduOffset.toNat + call.pdu.length
  bound : ctx.pduOffset.toNat + call.pdu.length ≤ 512
  pdu : front (ctx'.txBuf.drop ctx.pduOffset.toNat) call.pdu.length = call.pdu

theorem begin_txNdx (call : MasterCall) (ctx : ModbusMasterCTX) :
    (call.begin ctx).txNdx.toNat = ctx.pduOffset.toNat := by
  cases call <;> exact UInt8.toNat_toUInt16 _

theorem encoded_of_appends {call : MasterCall} {ctx ctx' : ModbusMasterCTX}
    (appends : Appends (call.begin ctx) call.pdu ctx') : Encoded call ctx ctx' := by
  have start := begin_txNdx call ctx
  have bound := appends.bound
  have ndx := appends.ndx
  rw [start] at bound ndx
  refine ⟨appends.same, ndx, bound, ?_⟩
  have held := appends.held
  rw [ndx, start, front_add] at held
  refine (List.append_inj held ?_).2
  rw [front_length _ (by omega), front_length _ (by omega)]

/-- A call that fits `tx_buf` is encoded and handed to the transport. -/
theorem MasterCall.run_encoded {R : Type} (request : ModbusMasterCTX → UInt8 → Option R)
    {ctx : ModbusMasterCTX} {call : MasterCall}
    (room : ctx.pduOffset.toNat + call.pdu.length ≤ 512) :
    ∃ ctx', Encoded call ctx ctx' ∧ call.run request ctx = request ctx' call.slave := by
  rcases @foldlM_putTx call.pdu (call.begin ctx) (by rwa [begin_txNdx]) with
    ⟨ctx', stored, appends⟩
  exact ⟨ctx', encoded_of_appends appends, by rw [run_eq, stored, Option.bind_some]⟩

/-- Only a call that fits `tx_buf` comes back. -/
theorem MasterCall.run_some {R : Type} {request : ModbusMasterCTX → UInt8 → Option R}
    {ctx : ModbusMasterCTX} {call : MasterCall} {r : R} (ran : call.run request ctx = some r) :
    ∃ ctx', Encoded call ctx ctx' ∧ request ctx' call.slave = some r := by
  rw [run_eq, Option.bind_eq_some_iff] at ran
  rcases ran with ⟨ctx', stored, sent⟩
  have small : (call.begin ctx).txNdx.toNat ≤ 512 := by
    have := ctx.pduOffset.toNat_lt
    rw [begin_txNdx]
    omega
  have room := foldlM_putTx_room small stored
  rcases foldlM_putTx room with ⟨ctx'', stored', appends⟩
  rw [stored, Option.some.injEq] at stored'
  subst stored'
  exact ⟨ctx', encoded_of_appends appends, sent⟩

theorem Encoded.saved {call : MasterCall} {ctx ctx' : ModbusMasterCTX}
    (encoded : Encoded call ctx ctx') :
    ctx'.reqFunc = call.func ∧ ctx'.reqSlave = call.slave ∧ ctx'.reqRegAddr = call.regAddr ∧
      ctx'.reqNb = call.nb ∧ ctx'.pduOffset = ctx.pduOffset := by
  have same := encoded.same
  refine ⟨same.reqFunc.trans ?_, same.reqSlave.trans ?_, same.reqRegAddr.trans ?_,
    same.reqNb.trans ?_, same.pduOffset.trans ?_⟩ <;> cases call <;> rfl

theorem MasterCall.pdu_long (call : MasterCall) : 5 ≤ call.pdu.length := by
  cases call <;> simp [pdu, wordBytes]

end KongjaExpress.Modbus
