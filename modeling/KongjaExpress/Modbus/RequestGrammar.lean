import KongjaExpress.Modbus.RequestHandler

/-! Which requests reach a register callback, and what is answered to the others. -/

namespace KongjaExpress.Modbus

open BigEndian Memory

variable {σ : Type} {k : Nat}

structure RequestGrammar (len : UInt16) (pdu : Vector UInt8 (253 + k))
    (result : RequestResult σ k) : Prop where
  invoked : result.calls ≠ [] → LengthConsistent len pdu
  succeeds : result.ok = true ↔
    result.calls ≠ [] ∧ ∀ call ∈ result.calls, call.status = .enoerr
  fails : result.ok = false → ∃ exception : MBException,
    exception ≠ .none ∧ result.rspLen = 2 ∧
      byte0 result.pdu = byte0 pdu ||| 0x80 ∧ byte1 result.pdu = exception.code ∧
      (¬ Supported (byte0 pdu) → exception = .illegalFunction) ∧
      (Supported (byte0 pdu) → ¬ LengthConsistent len pdu → exception = .illegalDataValue)

/-- A header that passes the checks announces the length the request has, and a
request to write and read has a whole header. -/
def GrammarSafe (len : UInt16) (pdu : Vector UInt8 (253 + k)) : Prop :=
  (HeaderAccepted len pdu → len.toNat = dataEnd pdu) ∧ (byte0 pdu = 23 → 10 ≤ len.toNat)

/-- A handler calls back for consistent requests only, and its exception says how the
calls went. -/
structure Obeys (consistent : Prop) (r : MBException × Handling σ k) : Prop where
  invoked : r.2.calls ≠ [] → consistent
  succeeds : r.1 = .none ↔ r.2.calls ≠ [] ∧ ∀ call ∈ r.2.calls, call.status = .enoerr
  refused : ¬ consistent → r.1 = .illegalDataValue

section Obeys

variable {consistent : Prop} {r : MBException × Handling σ k}

theorem obeys_refusal {h : Handling σ k} (fresh : h.calls = []) :
    Obeys consistent (.illegalDataValue, h) where
  invoked called := absurd fresh called
  succeeds := by simp [fresh]
  refused _ := rfl

theorem obeys_called {done : List RegCall} {last : RegCall} (calls : r.2.calls = done ++ [last])
    (well : ∀ call ∈ done, call.status = .enoerr)
    (exception : r.1 = prveMBError2Exception last.status) (holds : consistent) :
    Obeys consistent r where
  invoked _ := holds
  succeeds := by
    rw [exception, prveMBError2Exception_none_iff, calls]
    constructor
    · intro good
      refine ⟨by simp, fun call member => ?_⟩
      rcases List.mem_append.mp member with early | final
      · exact well call early
      · rwa [List.mem_singleton.mp final]
    · rintro ⟨-, all⟩
      exact all last (by simp)
  refused fails := absurd holds fails

theorem conclude_fst (status : MBErrorCode) (failed answered : Handling σ k) :
    (conclude status failed answered).1 = prveMBError2Exception status := by
  unfold conclude
  split
  · rfl
  · rename_i good
    rw [not_not.mp good]
    rfl

theorem conclude_calls {status : MBErrorCode} {failed answered : Handling σ k}
    (same : answered.calls = failed.calls) :
    (conclude status failed answered).2.calls = failed.calls := by
  unfold conclude
  split
  · rfl
  · exact same

theorem obeys_conclude {done : List RegCall} {status : MBErrorCode}
    {failed answered : Handling σ k}
    (called : ∃ last, failed.calls = done ++ [last] ∧ last.status = status)
    (same : answered.calls = failed.calls) (well : ∀ call ∈ done, call.status = .enoerr) :
    Obeys consistent (conclude status failed answered) ↔ consistent := by
  rcases called with ⟨last, calls, rfl⟩
  have all := (@conclude_calls σ k last.status failed answered same).trans calls
  constructor
  · exact fun obeys => obeys.invoked (by rw [all]; simp)
  · exact fun holds => obeys_called all well (conclude_fst _ _ _) holds

theorem invokeOn_called {m : Nat} (ctx : ModbusSlaveCTX σ) (kind : RegKind)
    (mode : MBRegisterMode) (addr : UInt8) (buffer : Vector UInt8 m)
    (usAddress usNRegs : UInt16) (h : Handling σ k) :
    ∃ last, (invokeOn ctx kind mode addr buffer usAddress usNRegs h).2.calls =
        h.calls ++ [last] ∧
      last.status = (invokeOn ctx kind mode addr buffer usAddress usNRegs h).1 :=
  ⟨_, rfl, rfl⟩

theorem invoke_called (ctx : ModbusSlaveCTX σ) (kind : RegKind) (mode : MBRegisterMode)
    (addr : UInt8) (offset : Nat) (usAddress usNRegs : UInt16) (h : Handling σ k) :
    ∃ last, (invoke ctx kind mode addr offset usAddress usNRegs h).2.calls =
        h.calls ++ [last] ∧
      last.status = (invoke ctx kind mode addr offset usAddress usNRegs h).1 :=
  ⟨_, rfl, rfl⟩

end Obeys

section Handlers

variable (ctx : ModbusSlaveCTX σ) (addr : UInt8) {h : Handling σ k} {consistent : Prop}

theorem well_of_fresh (fresh : h.calls = []) : ∀ call ∈ h.calls, call.status = .enoerr := by
  simp [fresh]

theorem answerRead_obeys (kind : RegKind) (code byteCount : UInt8)
    (growth usRegAddress usCount : UInt16)
    (well : ∀ call ∈ h.calls, call.status = .enoerr) :
    Obeys consistent (answerRead ctx kind code byteCount growth addr usRegAddress usCount h) ↔
      consistent :=
  obeys_conclude (invoke_called ctx _ _ _ _ _ _ (startReply code byteCount h)) rfl well

theorem readHandler_obeys (fresh : h.calls = []) (f : ReadFunction) :
    Obeys (h.usLen = 5) (readHandler f ctx addr h) := by
  by_cases called : f.Called h.usLen h.pucFrame
  · rw [readHandler_called ctx addr called]
    exact (answerRead_obeys ctx addr _ _ _ _ _ _ (well_of_fresh fresh)).mpr called.1
  · rw [readHandler_refused ctx addr called]
    exact obeys_refusal fresh

theorem writeHoldingRegister_obeys (fresh : h.calls = []) :
    Obeys (h.usLen = 5) (modbusFuncHandlerWriteHoldingRegister ctx addr h) := by
  unfold modbusFuncHandlerWriteHoldingRegister
  split
  · rename_i size
    exact (obeys_conclude (invoke_called ..) rfl (well_of_fresh fresh)).mpr size
  · exact obeys_refusal fresh

theorem writeCoil_obeys (fresh : h.calls = []) :
    Obeys (h.usLen = 5) (modbusFuncHandlerWriteCoil ctx addr h) := by
  by_cases called : CoilCalled h.usLen h.pucFrame
  · rw [writeCoil_called ctx addr called]
    exact (obeys_conclude (invokeOn_called ..) rfl (well_of_fresh fresh)).mpr called.1
  · rw [writeCoil_refused ctx addr called]
    exact obeys_refusal fresh

theorem writeHandler_obeys (fresh : h.calls = []) (f : WriteFunction) :
    Obeys consistent (writeHandler f ctx addr h) ↔
      (f.long h.usLen = true ∧ f.Accepts h.pucFrame → consistent) := by
  by_cases called : f.Called h.usLen h.pucFrame
  · rw [writeHandler_called ctx addr called]
    refine (obeys_conclude (invoke_called ..) (by rfl) (well_of_fresh fresh)).trans ?_
    exact ⟨fun holds _ => holds, fun implies => implies called⟩
  · rw [writeHandler_refused ctx addr called]
    exact ⟨fun _ holds => absurd holds called, fun _ => obeys_refusal fresh⟩

theorem readWrite_obeys (fresh : h.calls = []) :
    Obeys consistent (modbusFuncHandlerReadWriteMultipleHoldingRegisters ctx addr h) ↔
      h.usLen ≥ 10 ∧ (ReadWriteAccepts h.pucFrame → consistent) := by
  by_cases long : h.usLen ≥ 10
  · rw [and_iff_right long]
    by_cases accepts : ReadWriteAccepts h.pucFrame
    · rw [imp_iff_right accepts, readWrite_called ctx addr long accepts]
      rcases invoke_called ctx .holding .write addr 10 (word5 h.pucFrame)
        (word7 h.pucFrame) h with ⟨last, calls, status⟩
      rw [fresh] at calls
      split
      · rename_i good
        refine answerRead_obeys ctx addr _ _ _ _ _ _ ?_
        rw [calls]
        simpa [status] using good
      · constructor
        · exact fun obeys => obeys.invoked (by rw [calls]; simp)
        · exact fun holds => obeys_called calls (by simp) (by rw [status]) holds
    · rw [readWrite_refused ctx addr long accepts]
      exact ⟨fun _ holds => absurd holds accepts, fun _ => obeys_refusal fresh⟩
  · rw [readWrite_short ctx addr long]
    constructor
    · intro obeys
      exact absurd fresh (obeys.succeeds.mp rfl).1
    · exact fun both => absurd both.1 long

end Handlers

section Request

variable (ctx : ModbusSlaveCTX σ) (addr : UInt8) (len : UInt16) (pdu : Vector UInt8 (253 + k))
  (store : σ)

theorem exception_bytes {func : UInt8} {r : MBException × Handling σ k}
    (exception : r.1 ≠ .none) :
    (requestFinish func r).rspLen = 2 ∧ byte0 (requestFinish func r).pdu = func ||| 0x80 ∧
      byte1 (requestFinish func r).pdu = r.1.code := by
  rw [requestFinish_exception exception]
  refine ⟨rfl, ?_, ?_⟩ <;> simp

/-- For a supported function the response is in order exactly if the handler is. -/
theorem requestGrammar_obeys (supported : Supported (byte0 pdu)) (r : MBException × Handling σ k) :
    RequestGrammar len pdu (requestFinish (byte0 pdu) r) ↔ Obeys (LengthConsistent len pdu) r := by
  constructor
  · intro grammar
    refine ⟨?_, ?_, fun fails => ?_⟩
    · simpa using grammar.invoked
    · simpa [requestFinish_ok_iff] using grammar.succeeds
    · have silent : (requestFinish (byte0 pdu) r).calls = [] := by
        by_contra called
        exact fails (grammar.invoked called)
      have failed : (requestFinish (byte0 pdu) r).ok = false := by
        rw [Bool.eq_false_iff]
        exact fun ok => (grammar.succeeds.mp ok).1 silent
      have exception : r.1 ≠ .none := fun none => by
        rw [requestFinish_ok_iff.mpr none] at failed
        contradiction
      rcases grammar.fails failed with ⟨named, -, -, -, second, -, inconsistent⟩
      apply MBException.code_injective
      rw [← (exception_bytes exception).2.2, second, inconsistent supported fails]
  · intro obeys
    refine ⟨by simpa using obeys.invoked, by simpa [requestFinish_ok_iff] using obeys.succeeds,
      fun failed => ?_⟩
    have exception : r.1 ≠ .none := fun none => by
      rw [requestFinish_ok_iff.mpr none] at failed
      contradiction
    rcases @exception_bytes σ k (byte0 pdu) r exception with ⟨length, first, second⟩
    exact ⟨r.1, exception, length, first, second, fun fails => absurd supported fails,
      fun _ fails => obeys.refused fails⟩

theorem dispatch_unsupported {func : UInt8} (unsupported : ¬ Supported func) (h : Handling σ k) :
    requestDispatch func ctx addr h = (.illegalFunction, h) := by
  unfold requestDispatch
  split
  case h_10 => rfl
  all_goals exact absurd (by decide) unsupported

theorem requestGrammar_unsupported (unsupported : ¬ Supported (byte0 pdu)) :
    RequestGrammar len pdu (modbusRtuHandlerRequestRx ctx addr len pdu store) := by
  unfold modbusRtuHandlerRequestRx
  dsimp only
  rw [dispatch_unsupported ctx addr unsupported]
  have bytes := @exception_bytes σ k (byte0 pdu) (.illegalFunction, requested len pdu store)
    (by simp)
  refine ⟨fun called => absurd rfl called, ?_, fun _ => ?_⟩
  · rw [requestFinish_ok_iff]
    simp [requested]
  · exact ⟨.illegalFunction, by simp, bytes.1, bytes.2.1, bytes.2.2, fun _ => rfl,
      fun supported => absurd supported unsupported⟩

theorem writeAccepts_iff (f : WriteFunction) :
    (f.long len = true ∧ f.Accepts pdu) ↔
      6 ≤ len.toNat ∧ 1 ≤ quantity pdu ∧ quantity pdu ≤ f.max.toNat ∧
        byteCount pdu = dataSize f.kind (word3 pdu) := by
  rw [f.long_iff]
  refine and_congr_right fun _ => and_congr Iff.rfl (and_congr_right fun small => ?_)
  rw [← UInt8.toNat_inj, (f.fits _ small).1, eq_comm]
  rfl

theorem writeHandler_safe (f : WriteFunction) :
    Obeys (len.toNat = 6 + byteCount pdu ∧ byteCount pdu = dataSize f.kind (word3 pdu))
        (writeHandler f ctx addr (requested len pdu store)) ↔
      (6 ≤ len.toNat ∧ 1 ≤ quantity pdu ∧ quantity pdu ≤ f.max.toNat ∧
          byteCount pdu = dataSize f.kind (word3 pdu) →
        len.toNat = 6 + byteCount pdu) := by
  calc
    _ ↔ (f.long len = true ∧ f.Accepts pdu →
          len.toNat = 6 + byteCount pdu ∧ byteCount pdu = dataSize f.kind (word3 pdu)) :=
      writeHandler_obeys ctx addr rfl f
    _ ↔ (6 ≤ len.toNat ∧ 1 ≤ quantity pdu ∧ quantity pdu ≤ f.max.toNat ∧
            byteCount pdu = dataSize f.kind (word3 pdu) →
          len.toNat = 6 + byteCount pdu ∧ byteCount pdu = dataSize f.kind (word3 pdu)) :=
      imp_congr_left (writeAccepts_iff len pdu f)
    _ ↔ _ :=
      ⟨fun all accepts => (all accepts).1,
        fun size accepts => ⟨size accepts, accepts.2.2.2⟩⟩

theorem readWriteAccepts_iff :
    ReadWriteAccepts pdu ↔ 1 ≤ quantity pdu ∧ quantity pdu ≤ 0x7D ∧
      1 ≤ writeQuantity pdu ∧ writeQuantity pdu ≤ 0x79 ∧
      writeByteCount pdu = 2 * writeQuantity pdu := by
  simp only [ReadWriteAccepts, quantity, writeQuantity, writeByteCount, UInt16.le_iff_toNat_le]
  constructor <;> rintro ⟨a, b, c, d, e⟩ <;> exact ⟨a, b, c, d, e.symm⟩

theorem readWrite_safe :
    Obeys (len.toNat = 10 + writeByteCount pdu ∧ writeByteCount pdu = 2 * writeQuantity pdu)
        (modbusFuncHandlerReadWriteMultipleHoldingRegisters ctx addr (requested len pdu store)) ↔
      10 ≤ len.toNat ∧ (10 ≤ len.toNat ∧ 1 ≤ quantity pdu ∧ quantity pdu ≤ 0x7D ∧
          1 ≤ writeQuantity pdu ∧ writeQuantity pdu ≤ 0x79 ∧
          writeByteCount pdu = 2 * writeQuantity pdu →
        len.toNat = 10 + writeByteCount pdu) := by
  refine (readWrite_obeys ctx addr rfl).trans ?_
  constructor
  · rintro ⟨long, all⟩
    exact ⟨UInt16.le_iff_toNat_le.mp long,
      fun accepts => (all ((readWriteAccepts_iff pdu).mpr accepts.2)).1⟩
  · rintro ⟨long, size⟩
    refine ⟨UInt16.le_iff_toNat_le.mpr long, fun accepts => ?_⟩
    have counts := (readWriteAccepts_iff pdu).mp accepts
    exact ⟨size ⟨long, counts⟩, counts.2.2.2.2⟩

theorem supported_of_accepted (accepted : HeaderAccepted len pdu) : Supported (byte0 pdu) := by
  unfold HeaderAccepted at accepted
  split at accepted
  case h_4 => exact accepted.elim
  all_goals rename_i code; rw [code]; decide

theorem requestGrammar_iff :
    RequestGrammar len pdu (modbusRtuHandlerRequestRx ctx addr len pdu store) ↔
      GrammarSafe len pdu := by
  by_cases supported : Supported (byte0 pdu)
  · refine (requestGrammar_obeys len pdu supported _).trans ?_
    have fresh : (requested len pdu store).calls = [] := rfl
    have codes := supported
    simp only [Supported, List.mem_cons, List.not_mem_nil, or_false] at codes
    rcases codes with code | code | code | code | code | code | code | code | code <;>
      rw [code] <;>
      simp only [GrammarSafe, LengthConsistent, HeaderAccepted, dataEnd, code]
    · exact iff_of_true (readHandler_obeys ctx addr fresh readCoils) (by simp)
    · exact iff_of_true (readHandler_obeys ctx addr fresh readDiscreteInputs) (by simp)
    · exact iff_of_true (readHandler_obeys ctx addr fresh readHoldingRegister) (by simp)
    · exact iff_of_true (readHandler_obeys ctx addr fresh readInputRegister) (by simp)
    · exact iff_of_true (writeCoil_obeys ctx addr fresh) (by simp)
    · exact iff_of_true (writeHoldingRegister_obeys ctx addr fresh) (by simp)
    · exact (writeHandler_safe ctx addr len pdu store writeMultipleCoils).trans
        (and_iff_left (by simp)).symm
    · exact (writeHandler_safe ctx addr len pdu store writeMultipleRegisters).trans
        (and_iff_left (by simp)).symm
    · exact (readWrite_safe ctx addr len pdu store).trans (by simp [and_comm])
  · refine iff_of_true (requestGrammar_unsupported ctx addr len pdu store supported) ?_
    exact ⟨fun accepted => absurd (supported_of_accepted len pdu accepted) supported,
      fun code => absurd (code ▸ by decide) supported⟩

end Request

/-- A lone function code 23 is answered as a success, with itself. -/
theorem requestGrammar_fails :
    ¬ RequestGrammar 1 (.replicate (253 + 0) 23)
      (modbusRtuHandlerRequestRx testSlave 1 1 (.replicate (253 + 0) 23) ()) := by
  intro grammar
  have accepted : (modbusRtuHandlerRequestRx testSlave 1 1
      (.replicate (253 + 0) 23) ()).ok = true := by
    decide +kernel
  have silent : (modbusRtuHandlerRequestRx testSlave 1 1
      (.replicate (253 + 0) 23) ()).calls = [] := by
    decide +kernel
  exact (grammar.succeeds.mp accepted).1 silent

end KongjaExpress.Modbus
