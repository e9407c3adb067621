import KongjaExpress.Modbus.Invocation
import KongjaExpress.Modbus.RtuDiscipline

/-! What becomes of the chunks between two timeouts. -/

namespace KongjaExpress.Modbus

open BigEndian Memory Transport Utils

variable {σ : Type}

def RtuEvent.chunk : RtuEvent → Option RxChunk
  | .rx chunk => some chunk
  | _ => none

def joined (chunks : List RxChunk) : List UInt8 := chunks.flatMap Subtype.val

/-- A timeout makes no callback and sends nothing, whatever stream it is given. -/
def Silent (ctx : ModbusSlaveCTX σ) (slave : ModbusRTUSlave σ) : Prop :=
  ∀ (stream : Stream 768) (kernel : List UInt8 → WriteResult),
    (t35TimeoutHandler ctx kernel { slave with stream := stream }).map
      ModbusRTUSlave.observed = some { slave with stream := stream }.observed

@[irreducible] def FrameInvokes (held : List UInt8) : Prop :=
  Invokes (.ofNat (rtuPdu held).length) (pduMemory 2 (rtuPdu held))

/-- A valid frame that is answered, or a broadcast that comes to a callback. -/
def FrameHandled (address : UInt8) (held : List UInt8) : Prop :=
  ValidFrame held ∧
    (held.headD 0 = address ∧ held.headD 0 ≠ 0 ∨ held.headD 0 = 0 ∧ FrameInvokes held)

theorem invokes_held {address : UInt8} {slave : ModbusRTUSlave σ}
    (sound : RtuSound address slave) (valid : ValidFrame slave.held) :
    Invokes (.ofNat (slave.held.length - 3)) (rtuPduArea slave.dataBuffer) ↔
      FrameInvokes slave.held := by
  unfold FrameInvokes
  have receives := receives_held sound
  have length : (UInt16.ofNat (slave.held.length - 3)).toNat = (rtuPdu slave.held).length :=
    (rtuPdu_toNat receives :)
  have agree := @agree_pduMemory 2 (rtuPduArea slave.dataBuffer) (rtuPdu slave.held)
    (rtuPdu_short receives) (received_pdu receives)
  have long := valid.1
  have positive : 1 ≤ (UInt16.ofNat (slave.held.length - 3)).toNat := by
    rw [length, rtuPdu_length]
    omega
  rw [← length] at agree
  rw [rtuPdu_length]
  constructor
  · exact @invokes_agree 2 (.ofNat (slave.held.length - 3)) _ _ agree positive
  · have agree' : AgreeBelow (UInt16.ofNat (slave.held.length - 3)).toNat
        (pduMemory 2 (rtuPdu slave.held)) (rtuPduArea slave.dataBuffer) :=
      fun i inside below => (agree i inside below).symm
    exact @invokes_agree 2 (.ofNat (slave.held.length - 3)) _ _ agree' positive

theorem response_callsBack {address : UInt8} {slave : ModbusRTUSlave σ}
    (sound : RtuSound address slave) (valid : ValidFrame slave.held) (ctx : ModbusSlaveCTX σ) :
    (FrameInvokes slave.held → (slave.response ctx).calls ≠ []) ∧
      (¬ FrameInvokes slave.held → (slave.response ctx).calls = [] ∧ (slave.response ctx).store = slave.store) := by
  have callsBack := @requestRx_callsBack σ 2 ctx (rtuAddr slave.dataBuffer)
    (.ofNat (slave.held.length - 3)) (rtuPduArea slave.dataBuffer) slave.store
  rw [invokes_held sound valid] at callsBack
  exact callsBack

theorem send_sent {seen : Observed σ 768} (direct : circBufferIsEmpty seen.stream.txBuf = true)
    (tx : List UInt8) : (seen.send acceptAll tx).sent = seen.sent ++ tx := by
  unfold Observed.send
  rw [streamWrite_acceptAll tx direct]

/-- With nothing queued and a kernel that takes everything, a frame that is handled shows. -/
theorem t35_shows {ctx : ModbusSlaveCTX σ} {address : UInt8} {slave : ModbusRTUSlave σ}
    (sound : RtuSound address slave) (direct : circBufferIsEmpty slave.stream.txBuf = true)
    (handled : FrameHandled address slave.held) :
    (t35TimeoutHandler ctx acceptAll slave).map ModbusRTUSlave.observed ≠
      some slave.observed := by
  intro quiet
  rcases Option.map_eq_some_iff.mp quiet with ⟨next, expired, observed⟩
  have expiry := t35_expiry ctx acceptAll sound expired
  rcases handled with ⟨valid, ⟨mine, unicast⟩ | ⟨zero, invokes⟩⟩
  · rcases expiry.answered valid mine unicast with ⟨reply, isReply, seen⟩
    have sent := congrArg Observed.sent (observed.symm.trans seen)
    rw [send_sent direct] at sent
    have empty : reply = [] := List.self_eq_append_right.mp sent
    have long := isReply.bounds.1
    rw [empty] at long
    contradiction
  · have calls := congrArg Observed.calls (observed.symm.trans (expiry.broadcast valid zero))
    have empty : (slave.response ctx).calls = [] := List.self_eq_append_right.mp calls
    exact (response_callsBack sound valid ctx).1 invokes empty

theorem t35_quiet {ctx : ModbusSlaveCTX σ} (kernel : List UInt8 → WriteResult) {address : UInt8}
    {slave : ModbusRTUSlave σ} (sound : RtuSound address slave)
    (unhandled : ¬ FrameHandled address slave.held) :
    (t35TimeoutHandler ctx kernel slave).map ModbusRTUSlave.observed = some slave.observed := by
  rcases t35_spec ctx kernel sound with ⟨next, expired, -⟩
  have expiry := t35_expiry ctx kernel sound expired
  rw [expired, Option.map_some]
  by_cases acted : ValidFrame slave.held ∧ Addressed address (slave.held.headD 0)
  · rcases acted with ⟨valid, addressed⟩
    by_cases zero : slave.held.headD 0 = 0
    · rcases (response_callsBack sound valid ctx).2 (fun invokes =>
        unhandled ⟨valid, Or.inr ⟨zero, invokes⟩⟩) with ⟨calls, store⟩
      rw [expiry.broadcast valid zero]
      unfold Observed.execute
      rw [calls, store, List.append_nil]
      rfl
    · have mine : slave.held.headD 0 = address := addressed.resolve_right zero
      exact absurd ⟨valid, Or.inl ⟨mine, zero⟩⟩ unhandled
  · rw [expiry.ignored acted]

theorem silent_iff {ctx : ModbusSlaveCTX σ} {address : UInt8} {slave : ModbusRTUSlave σ}
    (sound : RtuSound address slave) :
    Silent ctx slave ↔ ¬ FrameHandled address slave.held := by
  have changed (stream : Stream 768) : RtuSound address { slave with stream := stream } :=
    ⟨sound.small, sound.address⟩
  constructor
  · intro silent handled
    have direct : circBufferIsEmpty
        (streamInitWithFd 0 128 (Vector.replicate 768 0)).txBuf = true := rfl
    exact t35_shows (changed _) direct handled (silent _ acceptAll)
  · intro unhandled stream kernel
    exact t35_quiet kernel (changed stream) unhandled

/-- Chunks that fit the buffer together are held together. -/
theorem reception_joined (chunks : List RxChunk) {r : Reception}
    (room : r.held.length + (joined chunks).length < 256) :
    (chunks.foldl Reception.take r).held = r.held ++ joined chunks := by
  induction chunks generalizing r with
  | nil => exact (List.append_nil _).symm
  | cons chunk chunks ih =>
      have whole : joined (chunk :: chunks) = chunk.val ++ joined chunks := List.flatMap_cons
      rw [whole, List.length_append] at room
      have taken : (r.take chunk).held = r.held ++ chunk.val := by
        unfold Reception.take
        dsimp only
        rw [if_neg (by omega)]
      rw [List.foldl_cons, ih (by rw [taken, List.length_append]; omega), taken, whole,
        List.append_assoc]

theorem burst_receives {ctx : ModbusSlaveCTX σ} {burst : List RtuEvent}
    {memory : Vector UInt8 256} {r : Reception} {slave last : ModbusRTUSlave σ}
    (between : ∀ kernel, RtuEvent.t35 kernel ∉ burst) (receives : Receives memory r slave)
    (run : burst.foldlM (rtuStep ctx) slave = some last) :
    Receives memory ((burst.filterMap RtuEvent.chunk).foldl Reception.take r) last := by
  induction burst generalizing r slave with
  | nil =>
      obtain rfl := Option.some.inj run
      exact receives
  | cons event burst ih =>
      rcases Run.foldlM_cons_some run with ⟨next, taken, rest⟩
      have later : ∀ kernel, RtuEvent.t35 kernel ∉ burst := fun kernel member =>
        between kernel (List.mem_cons_of_mem event member)
      cases event with
      | rx chunk =>
          obtain rfl := Option.some.inj taken
          exact ih later (modbusRtuRx_receives receives chunk) rest
      | t35 kernel => exact absurd List.mem_cons_self (between kernel)
      | writable result =>
          rcases Option.map_eq_some_iff.mp taken with ⟨⟨stream, accepted⟩, -, rfl⟩
          refine ih later ?_ rest
          exact ⟨receives.ndx, receives.within, receives.bound, receives.small, receives.held,
            receives.untouched⟩

theorem receives_empty {slave : ModbusRTUSlave σ} (ndx : slave.dataNdx = 0) :
    Receives slave.dataBuffer ⟨[], 0⟩ slave := by
  constructor
  · rw [ndx]
    rfl
  · exact le_refl 0
  · exact Nat.zero_le 256
  · exact Nat.zero_lt_succ 255
  · exact front_zero _
  · intro i inside outside
    rfl

def AtRest (events : List RtuEvent) : Prop :=
  events = [] ∨ ∃ earlier kernel, events = earlier ++ [.t35 kernel]

theorem atRest_ndx {ctx : ModbusSlaveCTX σ} {events : List RtuEvent}
    {start slave : ModbusRTUSlave σ} (ndx : start.dataNdx = 0) (rest : AtRest events)
    (run : events.foldlM (rtuStep ctx) start = some slave) : slave.dataNdx = 0 := by
  rcases rest with rfl | ⟨earlier, kernel, rfl⟩
  · rw [← Option.some.inj run]
    exact ndx
  · rcases Run.foldlM_append_some run with ⟨before, -, expired⟩
    rcases Run.foldlM_cons_some expired with ⟨next, taken, same⟩
    rw [← Option.some.inj same]
    exact (t35_reset ctx kernel before next taken).1

/-- Too many bytes between two timeouts come to nothing, and fewer than the buffer has
are examined as they came. -/
structure DiscardsWhole (ctx : ModbusSlaveCTX σ) (chunks : List RxChunk)
    (slave : ModbusRTUSlave σ) : Prop where
  overlong : 256 < (joined chunks).length → Silent ctx slave
  short : (joined chunks).length < 256 → slave.held = joined chunks

/-- What is left of too many bytes, from the last chunk that would have filled the buffer
on, is a frame that is handled. -/
def TailHandled (address : UInt8) (chunks : List RxChunk) : Prop :=
  256 < (joined chunks).length ∧ FrameHandled address (reception chunks).held

theorem discardsWhole_iff {ctx : ModbusSlaveCTX σ} {address : UInt8} {chunks : List RxChunk}
    {memory : Vector UInt8 256} {slave : ModbusRTUSlave σ} (sound : RtuSound address slave)
    (receives : Receives memory (reception chunks) slave) :
    DiscardsWhole ctx chunks slave ↔ ¬ TailHandled address chunks := by
  have held : slave.held = (reception chunks).held := by
    unfold ModbusRTUSlave.held
    rw [receives.ndx, receives.held]
  have silent := @silent_iff σ ctx address slave sound
  rw [held] at silent
  constructor
  · rintro discards ⟨long, handled⟩
    exact silent.mp (discards.overlong long) handled
  · intro unhandled
    refine ⟨fun long => silent.mpr fun handled => unhandled ⟨long, handled⟩, fun small => ?_⟩
    rw [held]
    exact reception_joined chunks (by simpa using small)

/-- In every run, what arrives between two timeouts is discarded as it should be exactly
if its tail is not a frame that is handled. -/
theorem overlong_discarded_iff (ctx : ModbusSlaveCTX σ) (memory : Vector UInt8 256)
    (deviceAddr : UInt8) (fd : Int) (heap : Vector UInt8 768) (store : σ)
    {before burst : List RtuEvent} {slave : ModbusRTUSlave σ} (rest : AtRest before)
    (between : ∀ kernel, RtuEvent.t35 kernel ∉ burst)
    (run : (before ++ burst).foldlM (rtuStep ctx)
      (modbusRtuSlaveInit memory deviceAddr fd heap store) = some slave) :
    DiscardsWhole ctx (burst.filterMap RtuEvent.chunk) slave ↔
      ¬ TailHandled deviceAddr (burst.filterMap RtuEvent.chunk) := by
  have start := rtuInit_sound memory deviceAddr fd heap store
  have sound := Run.invariant rtuStep_sound start run
  rcases Run.foldlM_append_some run with ⟨quiet, earlier, later⟩
  have ndx : quiet.dataNdx = 0 := atRest_ndx rfl rest earlier
  exact discardsWhole_iff sound (burst_receives between (receives_empty ndx) later)

def noiseAndFrame : List RxChunk :=
  [⟨.replicate 128 0, by simp⟩, ⟨.replicate 124 0, by simp⟩, writeRequest]

def noiseAlone : List RxChunk :=
  [⟨.replicate 128 0, by simp⟩, ⟨.replicate 124 0, by simp⟩, ⟨.replicate 8 0, by simp⟩]

def burstSlave (chunks : List RxChunk) : ModbusRTUSlave Unit :=
  chunks.foldl modbusRtuRx (modbusRtuSlaveInit (.replicate 256 0) 1 5 (.replicate 768 0) ())

theorem chunks_run (ctx : ModbusSlaveCTX σ) (chunks : List RxChunk) (start : ModbusRTUSlave σ) :
    (chunks.map RtuEvent.rx).foldlM (rtuStep ctx) start =
      some (chunks.foldl modbusRtuRx start) := by
  induction chunks generalizing start with
  | nil => rfl
  | cons chunk chunks ih => exact ih (modbusRtuRx start chunk)

theorem overlong_discarded_noise : 256 < (joined noiseAlone).length ∧
    DiscardsWhole testSlave noiseAlone (burstSlave noiseAlone) := by
  refine ⟨by decide +kernel, ?_⟩
  have between : ∀ kernel, RtuEvent.t35 kernel ∉ noiseAlone.map RtuEvent.rx := by
    simp [noiseAlone]
  apply (overlong_discarded_iff testSlave _ 1 5 _ () (Or.inl rfl) between
    (chunks_run testSlave noiseAlone _)).mpr
  rintro ⟨-, checked, -⟩
  exact absurd checked (by decide +kernel)

/-- The request at the end of the burst is executed and answered. -/
theorem overlong_discarded_fails :
    256 < (joined noiseAndFrame).length ∧
      ¬ DiscardsWhole testSlave noiseAndFrame (burstSlave noiseAndFrame) := by
  have long : 256 < (joined noiseAndFrame).length := by decide +kernel
  have sound : RtuSound 1 (burstSlave noiseAndFrame) :=
    chunks_sound noiseAndFrame (rtuInit_sound _ 1 5 _ ())
  have receives := reception_receives noiseAndFrame (@receives_empty Unit
    (modbusRtuSlaveInit (.replicate 256 0) 1 5 (.replicate 768 0) ()) rfl)
  have handled : TailHandled 1 noiseAndFrame :=
    ⟨long, by decide +kernel, Or.inl ⟨by decide +kernel, by decide +kernel⟩⟩
  exact ⟨long, fun discards => (discardsWhole_iff sound receives).mp discards handled⟩

end KongjaExpress.Modbus
