import KongjaExpress.Modbus.RequestGrammar

/-! The registers after a request that is answered with an exception. -/

namespace KongjaExpress.Modbus

open BigEndian Memory

variable {σ : Type} {k : Nat}

def UnchangedOnError (ctx : ModbusSlaveCTX σ) : Prop :=
  ∀ kind mode addr {m : Nat} (buffer : Vector UInt8 m) usAddress usNRegs store,
    (ctx.callback kind mode addr buffer usAddress usNRegs store).status ≠ .enoerr →
      (ctx.callback kind mode addr buffer usAddress usNRegs store).store = store

/-- A handler whose exception leaves the registers `store`. -/
def LeavesOnError (store : σ) (r : MBException × Handling σ k) : Prop :=
  r.1 ≠ .none → r.2.store = store

theorem leavesOnError_refusal (h : Handling σ k) (exception : MBException) :
    LeavesOnError h.store (exception, h) :=
  fun _ => rfl

theorem leavesOnError_conclude {store : σ} {status : MBErrorCode} {failed answered : Handling σ k}
    (unchanged : status ≠ .enoerr → failed.store = store) :
    LeavesOnError store (conclude status failed answered) := by
  intro exception
  unfold conclude at exception ⊢
  split
  · rename_i error
    exact unchanged error
  · rename_i good
    rw [if_neg good] at exception
    contradiction

section Handlers

variable {ctx : ModbusSlaveCTX σ} (unchanged : UnchangedOnError ctx) (addr : UInt8)
  (h : Handling σ k)

include unchanged

theorem invoke_unchanged {kind : RegKind} {mode : MBRegisterMode} {offset : Nat}
    {usAddress usNRegs : UInt16}
    (error : (invoke ctx kind mode addr offset usAddress usNRegs h).1 ≠ .enoerr) :
    (invoke ctx kind mode addr offset usAddress usNRegs h).2.store = h.store :=
  unchanged kind mode addr _ usAddress usNRegs h.store error

theorem answerRead_leavesOnError (kind : RegKind) (code byteCount : UInt8)
    (growth usRegAddress usCount : UInt16) :
    LeavesOnError h.store
      (answerRead ctx kind code byteCount growth addr usRegAddress usCount h) := by
  apply leavesOnError_conclude
  intro error
  exact invoke_unchanged unchanged addr (startReply code byteCount h) error

theorem readHandler_leavesOnError (f : ReadFunction) :
    LeavesOnError h.store (readHandler f ctx addr h) := by
  by_cases called : f.Called h.usLen h.pucFrame
  · rw [readHandler_called ctx addr called]
    exact answerRead_leavesOnError unchanged addr h _ _ _ _ _ _
  · rw [readHandler_refused ctx addr called]
    exact leavesOnError_refusal h _

theorem writeHandler_leavesOnError (f : WriteFunction) :
    LeavesOnError h.store (writeHandler f ctx addr h) := by
  by_cases called : f.Called h.usLen h.pucFrame
  · rw [writeHandler_called ctx addr called]
    apply leavesOnError_conclude
    intro error
    exact invoke_unchanged unchanged addr h error
  · rw [writeHandler_refused ctx addr called]
    exact leavesOnError_refusal h _

theorem writeHoldingRegister_leavesOnError :
    LeavesOnError h.store (modbusFuncHandlerWriteHoldingRegister ctx addr h) := by
  unfold modbusFuncHandlerWriteHoldingRegister
  split
  · apply leavesOnError_conclude
    intro error
    exact invoke_unchanged unchanged addr h error
  · exact leavesOnError_refusal h _

theorem writeCoil_leavesOnError :
    LeavesOnError h.store (modbusFuncHandlerWriteCoil ctx addr h) := by
  by_cases called : CoilCalled h.usLen h.pucFrame
  · rw [writeCoil_called ctx addr called]
    apply leavesOnError_conclude
    intro error
    exact unchanged .coil .write addr _ _ _ h.store error
  · rw [writeCoil_refused ctx addr called]
    exact leavesOnError_refusal h _

end Handlers

section Request

variable {ctx : ModbusSlaveCTX σ} (addr : UInt8) (len : UInt16) (pdu : Vector UInt8 (253 + k))
  (store : σ)

def firstWrite (ctx : ModbusSlaveCTX σ) : CallbackResult σ (253 + k - 10) :=
  ctx.callback .holding .write addr (pdu.drop 10) (word5 pdu) (word7 pdu) store

/-- A request to write and read gets as far as its second callback. -/
def WritesFirst (ctx : ModbusSlaveCTX σ) : Prop :=
  byte0 pdu = 23 ∧ len ≥ 10 ∧ ReadWriteAccepts pdu ∧
    (firstWrite addr pdu store ctx).status = .enoerr

theorem readWrite_leavesOnError (unchanged : UnchangedOnError ctx) (code : byte0 pdu = 23) :
    (WritesFirst addr len pdu store ctx →
      LeavesOnError (firstWrite addr pdu store ctx).store
        (modbusFuncHandlerReadWriteMultipleHoldingRegisters ctx addr
          (requested len pdu store))) ∧
    (¬ WritesFirst addr len pdu store ctx →
      LeavesOnError store
        (modbusFuncHandlerReadWriteMultipleHoldingRegisters ctx addr
          (requested len pdu store))) := by
  by_cases long : len ≥ 10
  · by_cases accepts : ReadWriteAccepts pdu
    · rw [readWrite_called (h := requested len pdu store) ctx addr long accepts]
      split
      · rename_i good
        have writes : WritesFirst addr len pdu store ctx := ⟨code, long, accepts, good⟩
        refine ⟨fun _ => ?_, fun fails => absurd writes fails⟩
        exact answerRead_leavesOnError unchanged addr
          (invoke ctx .holding .write addr 10 _ _ (requested len pdu store)).2 _ _ _ _ _ _
      · rename_i error
        refine ⟨fun writes => absurd writes.2.2.2 error, fun _ _ => ?_⟩
        exact invoke_unchanged unchanged addr (requested len pdu store) error
    · rw [readWrite_refused (h := requested len pdu store) ctx addr long accepts]
      refine ⟨fun writes => absurd writes.2.2.1 accepts, fun _ => ?_⟩
      exact leavesOnError_refusal (requested len pdu store) _
  · rw [readWrite_short (h := requested len pdu store) ctx addr long]
    refine ⟨fun writes => absurd writes.2.1 long, fun _ => ?_⟩
    exact leavesOnError_refusal (requested len pdu store) _

theorem dispatch_leavesOnError (unchanged : UnchangedOnError ctx) (h : Handling σ k)
    {func : UInt8} (other : func ≠ 23) :
    LeavesOnError h.store (requestDispatch func ctx addr h) := by
  unfold requestDispatch
  split
  · exact readHandler_leavesOnError unchanged addr h _
  · exact readHandler_leavesOnError unchanged addr h _
  · exact writeHandler_leavesOnError unchanged addr h _
  · exact writeHoldingRegister_leavesOnError unchanged addr h
  · contradiction
  · exact readHandler_leavesOnError unchanged addr h _
  · exact writeCoil_leavesOnError unchanged addr h
  · exact writeHandler_leavesOnError unchanged addr h _
  · exact readHandler_leavesOnError unchanged addr h _
  · exact leavesOnError_refusal h _

/-- Only the write of a request whose read fails outlives its exception. -/
theorem exception_store (unchanged : UnchangedOnError ctx)
    (failed : (modbusRtuHandlerRequestRx ctx addr len pdu store).ok = false) :
    (¬ WritesFirst addr len pdu store ctx →
      (modbusRtuHandlerRequestRx ctx addr len pdu store).store = store) ∧
    (WritesFirst addr len pdu store ctx →
      (modbusRtuHandlerRequestRx ctx addr len pdu store).store =
        (firstWrite addr pdu store ctx).store) := by
  have exception : (requestDispatch (byte0 pdu) ctx addr (requested len pdu store)).1 ≠ .none := by
    intro none
    have ok := (@requestFinish_ok_iff σ k (byte0 pdu) _).mpr none
    change (modbusRtuHandlerRequestRx ctx addr len pdu store).ok = true at ok
    rw [failed] at ok
    contradiction
  unfold modbusRtuHandlerRequestRx
  dsimp only
  rw [requestFinish_store]
  by_cases code : byte0 pdu = 23
  · rw [code] at exception ⊢
    rcases readWrite_leavesOnError addr len pdu store unchanged code with ⟨written, left⟩
    exact ⟨fun fails => left fails exception, fun writes => written writes exception⟩
  · refine ⟨fun _ => ?_, fun writes => absurd writes.1 code⟩
    exact dispatch_leavesOnError addr unchanged (requested len pdu store) code exception

end Request

def writeOnly : ModbusSlaveCTX Bool where
  callback _ mode _ _ buffer _ _ store :=
    match mode with
    | .write => ⟨.enoerr, buffer, true⟩
    | .read => ⟨.enoreg, buffer, store⟩

theorem writeOnly_unchanged : UnchangedOnError writeOnly := by
  intro kind mode addr m buffer usAddress usNRegs store error
  cases mode with
  | read => rfl
  | write => exact absurd rfl error

def writeAndRead : Vector UInt8 (253 + 0) :=
  blit (.replicate 253 0) 0 [23, 0, 0, 0, 1, 0, 0, 0, 1, 2]

theorem writeAndRead_refused :
    (modbusRtuHandlerRequestRx writeOnly 1 12 writeAndRead false).ok = false := by
  decide +kernel

theorem exception_store_writeOnly :
    (modbusRtuHandlerRequestRx writeOnly 1 12 writeAndRead false).store = true :=
  (exception_store 1 12 writeAndRead false writeOnly_unchanged writeAndRead_refused).2
    ⟨by decide +kernel, by decide, by decide +kernel, rfl⟩

theorem exception_store_fails :
    UnchangedOnError writeOnly ∧
      (modbusRtuHandlerRequestRx writeOnly 1 12 writeAndRead false).ok = false ∧
      (modbusRtuHandlerRequestRx writeOnly 1 12 writeAndRead false).store ≠ false := by
  refine ⟨writeOnly_unchanged, writeAndRead_refused, ?_⟩
  decide +kernel

end KongjaExpress.Modbus
