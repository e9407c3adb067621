import KongjaExpress.Library.Framing
import KongjaExpress.Modbus.RtuOverlong

/-! Several serial slaves on one line. -/

namespace KongjaExpress.Modbus

open BigEndian Framing Memory Transport

variable {σ : Type} {n : Nat}

/-- A frame on the line and who put it there: a slave, or `none` for the master and for
noise. -/
structure LineFrame (n : Nat) where
  sender : Option (Fin n)
  bytes : List UInt8
  deriving DecidableEq

/-- The slaves, what each has yet to hear of the line, frame by frame, and all that was put
on the line. -/
structure RtuBus (σ : Type) (n : Nat) where
  slaves : Fin n → ModbusRTUSlave σ
  line : Fin n → List (List UInt8)
  passed : List (LineFrame n)

/-- Slaves that `modbus_rtu_slave_init` has set up on a silent line. -/
def rtuBusInit (memory : Fin n → Vector UInt8 256) (deviceAddr : Fin n → UInt8) (fd : Fin n → Int)
    (heap : Fin n → Vector UInt8 768) (store : Fin n → σ) : RtuBus σ n where
  slaves i := modbusRtuSlaveInit (memory i) (deviceAddr i) (fd i) (heap i) (store i)
  line _ := []
  passed := []

inductive BusEvent (n : Nat)
  /-- A frame of the master, or noise, once the line is silent for everyone. -/
  | request (frame : List UInt8)
  /-- A slave reads some bytes. -/
  | hear (i : Fin n) (chunk : RxChunk)
  /-- The timer of a slave expires in the pause behind a frame. -/
  | pause (i : Fin n)

/-- A frame is put on the line; a slave does not hear itself. -/
def RtuBus.put (bus : RtuBus σ n) (sender : Option (Fin n)) (bytes : List UInt8) : RtuBus σ n :=
  { bus with
    line := fun i => if sender = some i then bus.line i else bus.line i ++ [bytes]
    passed := bus.passed ++ [⟨sender, bytes⟩] }

/-- The timer of a slave; what it sends passes the line as one frame. -/
def RtuBus.expire (bus : RtuBus σ n) (i : Fin n) (next : ModbusRTUSlave σ) : RtuBus σ n :=
  let tx := next.sent.drop (bus.slaves i).sent.length
  let bus := { bus with
    slaves := Function.update bus.slaves i next
    line := Function.update bus.line i (bus.line i).tail }
  if tx = [] then bus else bus.put (some i) tx

/-- The kernel takes what a slave writes; frames that fill a receiver's buffer are left out. -/
def busStep (ctx : Fin n → ModbusSlaveCTX σ) (bus : RtuBus σ n) :
    BusEvent n → Option (RtuBus σ n)
  | .request frame =>
      if frame ≠ [] ∧ frame.length < 256 ∧ ∀ i, bus.line i = [] then some (bus.put none frame)
      else none
  | .hear i chunk =>
      if chunk.val ≠ [] ∧ chunk.val.isPrefixOf ((bus.line i).headD []) then
        some { bus with
          slaves := Function.update bus.slaves i (modbusRtuRx (bus.slaves i) chunk)
          line := Function.update bus.line i
            (((bus.line i).headD []).drop chunk.val.length :: (bus.line i).tail) }
      else none
  | .pause i =>
      if (bus.line i).head? = some [] then
        (t35TimeoutHandler (ctx i) acceptAll (bus.slaves i)).map (bus.expire i)
      else none

/-! Abstractly, the line goes from request to request. -/

structure Round (n : Nat) where
  request : List UInt8
  reply : Option (Fin n × List UInt8)

def Round.frames (round : Round n) : List (LineFrame n) :=
  ⟨none, round.request⟩ :: round.reply.toList.map fun reply => ⟨some reply.1, reply.2⟩

def Round.replyOf (i : Fin n) (round : Round n) : Option (List UInt8) :=
  (round.reply.filter fun reply => decide (reply.1 = i)).map Prod.snd

structure Station (σ : Type) where
  store : σ
  calls : List RegCall
  sent : List UInt8

def ModbusRTUSlave.station (slave : ModbusRTUSlave σ) : Station σ :=
  ⟨slave.store, slave.calls, slave.sent⟩

/-- What a slave makes of a frame, and its answer. The request handler works on memory that
holds the PDU in front. -/
inductive Attends (ctx : ModbusSlaveCTX σ) (address : UInt8) :
    List UInt8 × Option (List UInt8) → Station σ → Station σ → Prop
  | ignored {frame : List UInt8} (s : Station σ)
      (other : ¬ (ValidFrame frame ∧ Addressed address (frame.headD 0))) :
      Attends ctx address (frame, none) s s
  | broadcast {frame : List UInt8} (s : Station σ) (pdu : Vector UInt8 (253 + 2))
      {r : RequestResult σ 2} (valid : ValidFrame frame) (broadcast : frame.headD 0 = 0)
      (holds : front pdu (rtuPdu frame).length = rtuPdu frame)
      (handled : r = modbusRtuHandlerRequestRx ctx 0 (.ofNat (rtuPdu frame).length) pdu s.store) :
      Attends ctx address (frame, none) s { s with store := r.store, calls := s.calls ++ r.calls }
  | answered {frame : List UInt8} (s : Station σ) (pdu : Vector UInt8 (253 + 2))
      {r : RequestResult σ 2} {reply : List UInt8} (valid : ValidFrame frame)
      (addressed : frame.headD 0 = address) (unicast : address ≠ 0)
      (holds : front pdu (rtuPdu frame).length = rtuPdu frame)
      (handled : r = modbusRtuHandlerRequestRx ctx address (.ofNat (rtuPdu frame).length) pdu
        s.store)
      (replied : reply = rtuFrame address (front r.pdu r.rspLen.toNat)) :
      Attends ctx address (frame, some reply) s
        { store := r.store, calls := s.calls ++ r.calls, sent := s.sent ++ reply }

/-- The line has gone from round to round, with no answer but the addressed slave's, and each
slave has attended to the requests in order, but perhaps not to the last one, to which it has
once the line is silent for it. -/
structure Rounds (ctx : Fin n → ModbusSlaveCTX σ) (address : Fin n → UInt8) (store : Fin n → σ)
    (bus : RtuBus σ n) (rounds : List (Round n)) : Prop where
  passed : bus.passed = rounds.flatMap Round.frames
  addressed : ∀ round ∈ rounds, ∀ reply, round.reply = some reply →
    round.request.headD 0 = address reply.1
  attended : ∀ i, ∃ heard, heard <+: rounds ∧ rounds.length ≤ heard.length + 1 ∧
    (bus.line i = [] → heard = rounds) ∧
    Emits (Attends (ctx i) (address i)) (heard.map fun round => (round.request, round.replyOf i))
      ⟨store i, [], []⟩ (bus.slaves i).station

end KongjaExpress.Modbus
