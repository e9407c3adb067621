import KongjaExpress.Library.Run
import KongjaExpress.Modbus.FrameIsolation

/-! Runs of a serial slave: chunks, timeouts, and a stream that goes on sending. -/

namespace KongjaExpress.Modbus

open BigEndian Memory Transport

variable {σ : Type}

inductive RtuEvent
  | rx (chunk : RxChunk)
  | t35 (kernel : List UInt8 → WriteResult)
  | writable (result : WriteResult)

def rtuStep (ctx : ModbusSlaveCTX σ) (slave : ModbusRTUSlave σ) :
    RtuEvent → Option (ModbusRTUSlave σ)
  | .rx chunk => some (modbusRtuRx slave chunk)
  | .t35 kernel => t35TimeoutHandler ctx kernel slave
  | .writable result =>
      (streamHandleTxEvent slave.stream result).map fun (stream, accepted) =>
        { slave with stream := stream, sent := slave.sent ++ accepted }

def writeRequest : RxChunk := ⟨rtuFrame 1 [6, 0, 0, 0, 7], by decide +kernel⟩

def ModbusRTUSlave.held (slave : ModbusRTUSlave σ) : List UInt8 :=
  front slave.dataBuffer slave.dataNdx.toNat

def ModbusRTUSlave.response (slave : ModbusRTUSlave σ) (ctx : ModbusSlaveCTX σ) :
    RequestResult σ 2 :=
  rtuResponse ctx slave.store slave.held.length slave.dataBuffer

structure RtuSound (address : UInt8) (slave : ModbusRTUSlave σ) : Prop where
  small : slave.dataNdx.toNat < 256
  address : slave.myAddress = address

theorem held_length {address : UInt8} {slave : ModbusRTUSlave σ}
    (sound : RtuSound address slave) : slave.held.length = slave.dataNdx.toNat :=
  front_length _ (by have := sound.small; omega)

theorem receives_held {address : UInt8} {slave : ModbusRTUSlave σ}
    (sound : RtuSound address slave) :
    Receives slave.dataBuffer ⟨slave.held, 256⟩ slave := by
  have length := held_length sound
  have small := sound.small
  constructor
  · exact length.symm
  · change slave.held.length ≤ 256
    omega
  · exact le_refl 256
  · change slave.held.length < 256
    omega
  · rw [length]
    rfl
  · intro i inside outside
    exact absurd inside (Nat.not_lt.mpr outside)

theorem putData_address {slave next : ModbusRTUSlave σ} {data : UInt8}
    (put : putData slave data = some next) : next.myAddress = slave.myAddress := by
  rw [putData, Option.map_eq_some_iff] at put
  rcases put with ⟨dataBuffer, -, rfl⟩
  rfl

theorem mbRtuReply_ready {kernel : List UInt8 → WriteResult} {addr : UInt8} {rspLen : UInt16}
    {slave next : ModbusRTUSlave σ} (replied : mbRtuReply kernel addr rspLen slave = some next) :
    next.dataNdx = 0 ∧ next.myAddress = slave.myAddress := by
  unfold mbRtuReply at replied
  simp only [Option.bind_eq_bind, Option.bind_eq_some_iff, Option.some.injEq] at replied
  rcases replied with ⟨first, putFirst, second, putSecond, rfl⟩
  refine ⟨rfl, ?_⟩
  change second.myAddress = slave.myAddress
  rw [putData_address putSecond, putData_address putFirst]

def Reset (slave : ModbusRTUSlave σ) (result : Option (ModbusRTUSlave σ)) : Prop :=
  ∀ next, result = some next → next.dataNdx = 0 ∧ next.myAddress = slave.myAddress

theorem enableRx_reset {slave slave' : ModbusRTUSlave σ}
    (same : slave'.myAddress = slave.myAddress) : Reset slave (some (mbRtuEnableRx slave')) := by
  intro next enabled
  rw [← Option.some.inj enabled]
  exact ⟨rfl, same⟩

theorem handleRxFrame_reset (ctx : ModbusSlaveCTX σ) (kernel : List UInt8 → WriteResult)
    (slave : ModbusRTUSlave σ) : Reset slave (mbRtuHandleRxFrame ctx kernel slave) := by
  unfold mbRtuHandleRxFrame
  dsimp only
  split
  · split
    · intro next replied
      rcases mbRtuReply_ready replied with ⟨ndx, same⟩
      exact ⟨ndx, same⟩
    · exact enableRx_reset rfl
  · exact enableRx_reset rfl

theorem t35_reset (ctx : ModbusSlaveCTX σ) (kernel : List UInt8 → WriteResult)
    (slave : ModbusRTUSlave σ) : Reset slave (t35TimeoutHandler ctx kernel slave) := by
  unfold t35TimeoutHandler mbRtuStartHandlingRxFrame
  dsimp only
  split
  · exact enableRx_reset rfl
  · split
    · exact enableRx_reset rfl
    · split
      · exact enableRx_reset rfl
      · intro next handled
        rcases handleRxFrame_reset ctx kernel _ next handled with ⟨ndx, same⟩
        exact ⟨ndx, same⟩

def expiredObserved (ctx : ModbusSlaveCTX σ) (kernel : List UInt8 → WriteResult)
    (slave : ModbusRTUSlave σ) : Observed σ 768 :=
  if ValidFrame slave.held then
    rtuHandled ctx kernel slave.observed slave.myAddress slave.held.length slave.dataBuffer
  else slave.observed

theorem t35_spec (ctx : ModbusSlaveCTX σ) (kernel : List UInt8 → WriteResult) {address : UInt8}
    {slave : ModbusRTUSlave σ} (sound : RtuSound address slave) :
    ∃ next, t35TimeoutHandler ctx kernel slave = some next ∧ next.dataNdx = 0 ∧
      next.myAddress = slave.myAddress ∧
      next.observed = expiredObserved ctx kernel slave := by
  have outcome := mbRtuStartHandlingRxFrame_observed ctx kernel slave (receives_held sound)
  rcases Option.map_eq_some_iff.mp outcome with ⟨next, expired, observed⟩
  rcases t35_reset ctx kernel slave next expired with ⟨ndx, same⟩
  exact ⟨next, expired, ndx, same, observed⟩

theorem modbusRtuRx_sound {address : UInt8} {slave : ModbusRTUSlave σ}
    (sound : RtuSound address slave) (chunk : RxChunk) :
    RtuSound address (modbusRtuRx slave chunk) := by
  have receives := modbusRtuRx_receives (receives_held sound) chunk
  constructor
  · rw [receives.ndx]
    exact receives.small
  · rw [(modbusRtuRx_observed slave chunk).2, sound.address]

theorem chunks_sound {address : UInt8} (chunks : List RxChunk) {slave : ModbusRTUSlave σ}
    (sound : RtuSound address slave) : RtuSound address (chunks.foldl modbusRtuRx slave) := by
  induction chunks generalizing slave with
  | nil => exact sound
  | cons chunk chunks ih => exact ih (modbusRtuRx_sound sound chunk)

theorem rtuStep_sound {ctx : ModbusSlaveCTX σ} {address : UInt8} (slave : ModbusRTUSlave σ)
    (event : RtuEvent) (next : ModbusRTUSlave σ) (sound : RtuSound address slave)
    (taken : rtuStep ctx slave event = some next) : RtuSound address next := by
  cases event with
  | rx chunk =>
      obtain rfl := Option.some.inj taken
      exact modbusRtuRx_sound sound chunk
  | t35 kernel =>
      rcases t35_reset ctx kernel slave next taken with ⟨ndx, same⟩
      exact ⟨by rw [ndx]; decide, same.trans sound.address⟩
  | writable result =>
      rcases Option.map_eq_some_iff.mp taken with ⟨⟨stream, accepted⟩, -, rfl⟩
      exact ⟨sound.small, sound.address⟩

theorem rtuInit_sound (memory : Vector UInt8 256) (deviceAddr : UInt8) (fd : Int)
    (heap : Vector UInt8 768) (store : σ) :
    RtuSound deviceAddr (modbusRtuSlaveInit memory deviceAddr fd heap store) :=
  ⟨Nat.zero_lt_succ 255, rfl⟩

end KongjaExpress.Modbus
