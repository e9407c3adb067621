import KongjaExpress.Modbus.Isolation

/-! Exactly which requests come to a callback. -/

namespace KongjaExpress.Modbus

open BigEndian Memory

variable {σ : Type} {k : Nat}

def Invokes (len : UInt16) (pdu : Vector UInt8 (253 + k)) : Prop :=
  match byte0 pdu with
  | 1 => readCoils.Called len pdu
  | 2 => readDiscreteInputs.Called len pdu
  | 3 => readHoldingRegister.Called len pdu
  | 4 => readInputRegister.Called len pdu
  | 5 => len = 5 ∧ byte4 pdu = 0x00 ∧ (byte3 pdu = 0xFF ∨ byte3 pdu = 0x00)
  | 6 => len = 5
  | 15 => writeMultipleCoils.Called len pdu
  | 16 => writeMultipleRegisters.Called len pdu
  | 23 => len ≥ 10 ∧ ReadWriteAccepts pdu
  | _ => False

structure CallsBack (called : Prop) (h : Handling σ k) (r : MBException × Handling σ k) :
    Prop where
  calls : called → ∃ call, call ∈ r.2.calls
  silent : ¬ called → r.2.calls = h.calls ∧ r.2.store = h.store

theorem callsBack_refusal {called : Prop} (refused : ¬ called) (exception : MBException)
    (h : Handling σ k) : CallsBack called h (exception, h) :=
  ⟨fun holds => absurd holds refused, fun _ => ⟨rfl, rfl⟩⟩

theorem callsBack_called {called : Prop} {h : Handling σ k} {r : MBException × Handling σ k}
    (holds : called) {done : List RegCall} {last : RegCall} (calls : r.2.calls = done ++ [last]) :
    CallsBack called h r :=
  ⟨fun _ => ⟨last, by rw [calls]; simp⟩, fun fails => absurd holds fails⟩

section Handlers

variable (ctx : ModbusSlaveCTX σ) (addr : UInt8) (h : Handling σ k)

theorem conclude_callsBack {called : Prop} {status : MBErrorCode} {failed answered : Handling σ k}
    (holds : called) (made : ∃ last, failed.calls = h.calls ++ [last] ∧ last.status = status)
    (same : answered.calls = failed.calls) :
    CallsBack called h (conclude status failed answered) := by
  rcases made with ⟨last, calls, -⟩
  exact callsBack_called holds ((conclude_calls same).trans calls)

theorem readHandler_callsBack (f : ReadFunction) :
    CallsBack (f.Called h.usLen h.pucFrame) h (readHandler f ctx addr h) := by
  by_cases called : f.Called h.usLen h.pucFrame
  · rw [readHandler_called ctx addr called]
    rcases answerRead_calls addr ctx f.kind f.code _ _ _ _ h with ⟨last, calls⟩
    exact callsBack_called called calls
  · rw [readHandler_refused ctx addr called]
    exact callsBack_refusal called _ h

theorem writeHandler_callsBack (f : WriteFunction) :
    CallsBack (f.Called h.usLen h.pucFrame) h (writeHandler f ctx addr h) := by
  by_cases called : f.Called h.usLen h.pucFrame
  · rw [writeHandler_called ctx addr called]
    exact conclude_callsBack h called (invoke_called ctx _ _ _ _ _ _ h) rfl
  · rw [writeHandler_refused ctx addr called]
    exact callsBack_refusal called _ h

theorem writeHoldingRegister_callsBack :
    CallsBack (h.usLen = 5) h (modbusFuncHandlerWriteHoldingRegister ctx addr h) := by
  unfold modbusFuncHandlerWriteHoldingRegister
  split
  · rename_i size
    exact conclude_callsBack h size (invoke_called ctx _ _ _ _ _ _ h) rfl
  · rename_i size
    exact callsBack_refusal size _ h

theorem writeCoil_callsBack :
    CallsBack (CoilCalled h.usLen h.pucFrame) h (modbusFuncHandlerWriteCoil ctx addr h) := by
  by_cases called : CoilCalled h.usLen h.pucFrame
  · rw [writeCoil_called ctx addr called]
    exact conclude_callsBack h called (invokeOn_called ctx _ _ _ _ _ _ h) rfl
  · rw [writeCoil_refused ctx addr called]
    exact callsBack_refusal called _ h

theorem readWrite_callsBack :
    CallsBack (h.usLen ≥ 10 ∧ ReadWriteAccepts h.pucFrame) h
      (modbusFuncHandlerReadWriteMultipleHoldingRegisters ctx addr h) := by
  by_cases called : h.usLen ≥ 10 ∧ ReadWriteAccepts h.pucFrame
  · rcases readWrite_calls addr ctx called.1 called.2 with ⟨later, calls⟩
    rcases invoke_called ctx .holding .write addr 10 (word5 h.pucFrame)
      (word7 h.pucFrame) h with ⟨last, first, -⟩
    refine ⟨fun _ => ⟨last, ?_⟩, fun fails => absurd called fails⟩
    rw [calls, first]
    simp
  · by_cases long : h.usLen ≥ 10
    · rw [readWrite_refused ctx addr long fun accepts => called ⟨long, accepts⟩]
      exact callsBack_refusal called _ h
    · rw [readWrite_short ctx addr long]
      exact callsBack_refusal called _ h

end Handlers

section Request

variable (ctx : ModbusSlaveCTX σ) (addr : UInt8) (len : UInt16) (pdu : Vector UInt8 (253 + k))
  (store : σ)

theorem supported_of_invokes (invokes : Invokes len pdu) : Supported (byte0 pdu) := by
  unfold Invokes at invokes
  split at invokes
  case h_10 => exact invokes.elim
  all_goals rename_i code; rw [code]; decide

theorem dispatch_callsBack :
    CallsBack (Invokes len pdu) (requested len pdu store)
      (requestDispatch (byte0 pdu) ctx addr (requested len pdu store)) := by
  by_cases supported : Supported (byte0 pdu)
  · have codes := supported
    simp only [Supported, List.mem_cons, List.not_mem_nil, or_false] at codes
    unfold Invokes
    rcases codes with code | code | code | code | code | code | code | code | code <;>
      simp only [code]
    · exact readHandler_callsBack ctx addr (requested len pdu store) readCoils
    · exact readHandler_callsBack ctx addr (requested len pdu store) readDiscreteInputs
    · exact readHandler_callsBack ctx addr (requested len pdu store) readHoldingRegister
    · exact readHandler_callsBack ctx addr (requested len pdu store) readInputRegister
    · exact writeCoil_callsBack ctx addr (requested len pdu store)
    · exact writeHoldingRegister_callsBack ctx addr (requested len pdu store)
    · exact writeHandler_callsBack ctx addr (requested len pdu store) writeMultipleCoils
    · exact writeHandler_callsBack ctx addr (requested len pdu store) writeMultipleRegisters
    · exact readWrite_callsBack ctx addr (requested len pdu store)
  · rw [dispatch_unsupported ctx addr supported]
    exact callsBack_refusal (fun invokes => supported (supported_of_invokes len pdu invokes)) _ _

/-- A request that comes to no callback leaves the registers alone. -/
theorem requestRx_callsBack :
    (Invokes len pdu → (modbusRtuHandlerRequestRx ctx addr len pdu store).calls ≠ []) ∧
      (¬ Invokes len pdu → (modbusRtuHandlerRequestRx ctx addr len pdu store).calls = [] ∧
        (modbusRtuHandlerRequestRx ctx addr len pdu store).store = store) := by
  have callsBack := dispatch_callsBack ctx addr len pdu store
  unfold modbusRtuHandlerRequestRx
  dsimp only
  rw [requestFinish_calls, requestFinish_store]
  constructor
  · intro invokes
    rcases callsBack.calls invokes with ⟨call, member⟩
    exact List.ne_nil_of_mem member
  · exact callsBack.silent

end Request

section Agree

variable {len : UInt16} {pdu pdu' : Vector UInt8 (253 + k)}

/-- Only the request decides whether it comes to a callback. -/
theorem invokes_agree (agree : AgreeBelow len.toNat pdu pdu') (positive : 1 ≤ len.toNat)
    (invokes : Invokes len pdu) : Invokes len pdu' := by
  have codes := supported_of_invokes len pdu invokes
  simp only [Supported, List.mem_cons, List.not_mem_nil, or_false] at codes
  have same : CommonRequest len pdu pdu' := fun i inside _ below => (agree i inside below).symm
  have func : byte0 pdu' = byte0 pdu := same.byteAt (by omega) positive (by omega)
  unfold Invokes at invokes ⊢
  rw [func]
  rcases codes with code | code | code | code | code | code | code | code | code <;>
    simp only [code] at invokes ⊢
  · exact (same.readCalled readCoils).mpr invokes
  · exact (same.readCalled readDiscreteInputs).mpr invokes
  · exact (same.readCalled readHoldingRegister).mpr invokes
  · exact (same.readCalled readInputRegister).mpr invokes
  · exact same.coilCalled.mpr invokes
  · exact invokes
  · exact (same.writeCalled writeMultipleCoils).mpr invokes
  · exact (same.writeCalled writeMultipleRegisters).mpr invokes
  · exact ⟨invokes.1, (same.readWriteAccepts invokes.1).mpr invokes.2⟩

end Agree

end KongjaExpress.Modbus
