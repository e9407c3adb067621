import KongjaExpress.Library.Automaton
import KongjaExpress.Utils.Sbuf

/-! The serialisation buffer beside the queue of bytes it is meant to be. Its
comparisons leave out the exact fit, and no write records the data it stored. -/

namespace KongjaExpress.Utils

open Memory BigEndian

variable {len : UInt32}

/-- The lengths of blocks are passed as an `int`. -/
abbrev SbufData := { data : Typed // data.kind.size < 2 ^ 31 }

abbrev SbufKind := { kind : Kind // kind.size < 2 ^ 31 }

inductive SbufCall
  | write (data : SbufData)
  | read (kind : SbufKind)

structure SbufReply where
  ok : Bool
  data : Option Typed
  deriving DecidableEq, Repr

def sbufCall (host : Endian) (sbuf : Sbuf len) : SbufCall → Option (SbufReply × Sbuf len)
  | .write data => (sbufWriteTyped host sbuf data).map fun (ok, sbuf) => (⟨ok, none⟩, sbuf)
  | .read kind => (sbufReadTyped host sbuf kind).map fun (data, sbuf) => (⟨data.isSome, data⟩, sbuf)

/-- How many bytes were written in total, and those that were not read yet. -/
structure ByteQueue where
  written : Nat
  unread : List UInt8
  deriving DecidableEq, Repr

/-- The calls on a queue with room for `room` bytes in total. -/
def queueCall (room : Nat) (queue : ByteQueue) : SbufCall → SbufReply × ByteQueue
  | .write data =>
      if queue.written + data.val.kind.size ≤ room then
        (⟨true, none⟩, ⟨queue.written + data.val.kind.size, queue.unread ++ data.val.encode⟩)
      else (⟨false, none⟩, queue)
  | .read kind =>
      if kind.val.size ≤ queue.unread.length then
        (⟨true, some (kind.val.decode (queue.unread.take kind.val.size))⟩,
          ⟨queue.written, queue.unread.drop kind.val.size⟩)
      else (⟨false, none⟩, queue)

def totalSize (values : List SbufData) : Nat := (values.map fun data => data.val.kind.size).sum

def kindOf (data : SbufData) : SbufKind := ⟨data.val.kind, data.property⟩

@[simp] theorem totalSize_cons (data : SbufData) (values : List SbufData) :
    totalSize (data :: values) = data.val.kind.size + totalSize values := by
  simp [totalSize]

theorem queue_writes {room : Nat} (queue : ByteQueue) {values : List SbufData}
    (fits : queue.written + totalSize values ≤ room) :
    Automaton.run (Automaton.total (queueCall room)) queue (values.map .write) =
      some (values.map fun _ => ⟨true, none⟩, ⟨queue.written + totalSize values,
        queue.unread ++ values.flatMap fun data => data.val.encode⟩) := by
  induction values generalizing queue with
  | nil => simp [totalSize]
  | cons data values ih =>
      rw [totalSize_cons] at fits
      apply Automaton.run_cons_eq_some.mpr
      refine ⟨⟨true, none⟩, ⟨queue.written + data.val.kind.size,
        queue.unread ++ data.val.encode⟩, _, ?_, ?_, rfl⟩
      · rw [Automaton.total, queueCall, if_pos (by omega)]
      · have stored := ih ⟨queue.written + data.val.kind.size, queue.unread ++ data.val.encode⟩
          (by simp only; omega)
        rw [stored]
        simp [Nat.add_assoc]

theorem queue_read_front (room written : Nat) (data : SbufData) (later : List UInt8) :
    queueCall room ⟨written, data.val.encode ++ later⟩ (.read (kindOf data)) =
      (⟨true, some data.val⟩, ⟨written, later⟩) := by
  have size : data.val.encode.length = (kindOf data).val.size := data.val.encode_length
  have enough : (kindOf data).val.size ≤ (data.val.encode ++ later).length := by
    rw [List.length_append, size]
    exact Nat.le_add_right _ _
  have decoded : (kindOf data).val.decode data.val.encode = data.val := data.val.decode_encode
  simp only [queueCall, if_pos enough, List.take_left' size, List.drop_left' size, decoded]

theorem queue_reads {room written : Nat} (later : List UInt8) (values : List SbufData) :
    Automaton.run (Automaton.total (queueCall room))
        ⟨written, (values.flatMap fun data => data.val.encode) ++ later⟩
        (values.map fun data => .read (kindOf data)) =
      some (values.map fun data => ⟨true, some data.val⟩, ⟨written, later⟩) := by
  induction values with
  | nil => rfl
  | cons data values ih =>
      rw [List.flatMap_cons, List.append_assoc]
      apply Automaton.run_cons_eq_some.mpr
      exact ⟨⟨true, some data.val⟩, ⟨written, _⟩, _,
        congrArg some (queue_read_front room written data _), ih, rfl⟩

theorem queue_round_trip {room : Nat} {values : List SbufData} (fits : totalSize values ≤ room) :
    ∃ queue, Automaton.run (Automaton.total (queueCall room)) ⟨0, []⟩ (values.map .write) =
        some (values.map fun _ => ⟨true, none⟩, queue) ∧
      Automaton.run (Automaton.total (queueCall room)) queue
          (values.map fun data => .read (kindOf data)) =
        some (values.map fun data => ⟨true, some data.val⟩, ⟨totalSize values, []⟩) := by
  refine ⟨_, queue_writes ⟨0, []⟩ (by simpa using fits), ?_⟩
  simpa using queue_reads [] values

def unreadBytes (sbuf : Sbuf len) : ByteQueue :=
  ⟨sbuf.writeNdx.toNat, (front sbuf.buf sbuf.writeNdx.toNat).drop sbuf.readNdx.toNat⟩

def ActsAsQueue (host : Endian) (sbuf : Sbuf len) (calls : List SbufCall) : Prop :=
  Automaton.Agree (sbufCall host) (Automaton.total (queueCall len.toNat)) unreadBytes sbuf calls

/-- No write that fills the buffer exactly or leaves the range of the 32-bit
sum, and no read of bytes that are there. -/
def Spared (sbuf : Sbuf len) : SbufCall → Prop
  | .write data => sbuf.writeNdx.toNat + data.val.kind.size ≠ len.toNat ∧
      sbuf.writeNdx.toNat + data.val.kind.size < 2 ^ 32
  | .read kind => sbuf.writeNdx.toNat < sbuf.readNdx.toNat + kind.val.size

/-- What all reachable buffers have in common: nothing is ever recorded as stored. -/
structure NothingRecorded (sbuf : Sbuf len) : Prop where
  data : sbuf.dataLen = 0
  read : sbuf.readNdx = 0
  write : sbuf.writeNdx.toNat ≤ len.toNat

theorem read_fails {sbuf : Sbuf len} (state : NothingRecorded sbuf) (host : Endian) (kind : SbufKind) :
    sbufCall host sbuf (.read kind) = some (⟨false, none⟩, sbuf) := by
  have closed : sbufIsReadPossible sbuf (.ofNat kind.val.size) = false := by
    simp [sbufIsReadPossible, state.data]
  simp [sbufCall, sbufReadTyped_eq, sbufRead, closed]

theorem write_possible_iff (sbuf : Sbuf len) (count : Nat) :
    sbufIsWritePossible sbuf (.ofNat count) = true ↔
      (sbuf.writeNdx.toNat + count) % 2 ^ 32 < len.toNat := by
  simp [sbufIsWritePossible, UInt32.lt_iff_toNat_lt]

theorem storeBytes_inside {sbuf : Sbuf len} (bytes : List UInt8)
    (fits : sbuf.writeNdx.toNat + bytes.length ≤ len.toNat) :
    ∃ buf ndx, storeBytes sbuf bytes = some { sbuf with buf := buf, writeNdx := ndx } ∧
      ndx.toNat = sbuf.writeNdx.toNat + bytes.length ∧
      front buf ndx.toNat = front sbuf.buf sbuf.writeNdx.toNat ++ bytes := by
  induction bytes generalizing sbuf with
  | nil => exact ⟨sbuf.buf, sbuf.writeNdx, rfl, rfl, by simp⟩
  | cons byte bytes ih =>
      have size := len.toNat_lt
      rw [List.length_cons] at fits
      have next : (sbuf.writeNdx + 1).toNat = sbuf.writeNdx.toNat + 1 := by
        simp only [UInt32.toNat_add, UInt32.reduceToNat]
        omega
      have inside : sbuf.writeNdx.toNat < len.toNat := by omega
      let after : Sbuf len :=
        { sbuf with buf := sbuf.buf.set sbuf.writeNdx.toNat byte, writeNdx := sbuf.writeNdx + 1 }
      have room : after.writeNdx.toNat + bytes.length ≤ len.toNat := by
        simp only [after, next]
        omega
      rcases ih room with ⟨buf, ndx, stored, moved, shown⟩
      simp only [after] at stored moved shown
      refine ⟨buf, ndx, ?_, ?_, ?_⟩
      · simp only [storeBytes, store_some inside, Option.bind_eq_bind, Option.bind_some, stored]
      · simp only [moved, next, List.length_cons]
        omega
      · simp only [shown, next, front_set_succ _ inside, List.append_assoc, List.singleton_append]

theorem storeBytes_outside {sbuf : Sbuf len} {bytes : List UInt8}
    (start : sbuf.writeNdx.toNat ≤ len.toNat)
    (leaves : len.toNat < sbuf.writeNdx.toNat + bytes.length) : storeBytes sbuf bytes = none := by
  induction bytes generalizing sbuf with
  | nil =>
      rw [List.length_nil] at leaves
      omega
  | cons byte bytes ih =>
      rw [List.length_cons] at leaves
      by_cases inside : sbuf.writeNdx.toNat < len.toNat
      · have size := len.toNat_lt
        have next : (sbuf.writeNdx + 1).toNat = sbuf.writeNdx.toNat + 1 := by
          simp only [UInt32.toNat_add, UInt32.reduceToNat]
          omega
        simp only [storeBytes, store_some inside, Option.bind_eq_bind, Option.bind_some]
        apply ih
        · simp only [next]
          omega
        · simp only [next]
          omega
      · have outside : store sbuf.buf sbuf.writeNdx.toNat byte = none := by
          rw [store, dif_neg (by omega)]
        simp [storeBytes, outside]

theorem write_possible {sbuf : Sbuf len} {host : Endian} {data : SbufData}
    (possible : sbufIsWritePossible sbuf (.ofNat data.val.kind.size) = true) :
    sbufCall host sbuf (.write data) =
      (storeBytes sbuf data.val.encode).map fun sbuf => (⟨true, none⟩, sbuf) := by
  simp [sbufCall, sbufWriteTyped_eq, sbufWrite, possible, Function.comp_def]

theorem write_refused {sbuf : Sbuf len} {host : Endian} {data : SbufData}
    (refused : sbufIsWritePossible sbuf (.ofNat data.val.kind.size) = false) :
    sbufCall host sbuf (.write data) = some (⟨false, none⟩, sbuf) := by
  simp [sbufCall, sbufWriteTyped_eq, sbufWrite, refused]

theorem write_appends {sbuf : Sbuf len} (state : NothingRecorded sbuf) (host : Endian)
    {data : SbufData} (room : sbuf.writeNdx.toNat + data.val.kind.size < len.toNat) :
    ∃ next, sbufCall host sbuf (.write data) = some (⟨true, none⟩, next) ∧ NothingRecorded next ∧
      unreadBytes next = ⟨(unreadBytes sbuf).written + data.val.kind.size,
        (unreadBytes sbuf).unread ++ data.val.encode⟩ := by
  have size := len.toNat_lt
  have bytes := data.val.encode_length
  have possible : sbufIsWritePossible sbuf (.ofNat data.val.kind.size) = true := by
    rw [write_possible_iff, Nat.mod_eq_of_lt (by omega)]
    exact room
  rcases storeBytes_inside data.val.encode (show sbuf.writeNdx.toNat + _ ≤ len.toNat by omega)
    with ⟨buf, ndx, stored, moved, shown⟩
  rw [bytes] at moved
  rw [moved] at shown
  refine ⟨{ sbuf with buf := buf, writeNdx := ndx }, ?_, ⟨state.data, state.read, ?_⟩, ?_⟩
  · rw [write_possible possible, stored, Option.map_some]
  · simp only [moved]
    omega
  · simp only [unreadBytes, state.read, UInt32.toNat_zero, List.drop_zero, moved, shown]

theorem spared_step {sbuf : Sbuf len} (state : NothingRecorded sbuf) (host : Endian)
    {call : SbufCall} (spared : Spared sbuf call) :
    ∃ reply next, sbufCall host sbuf call = some (reply, next) ∧ NothingRecorded next ∧
      Automaton.total (queueCall len.toNat) (unreadBytes sbuf) call =
        some (reply, unreadBytes next) := by
  have inside := state.write
  cases call with
  | write data =>
      rcases spared with ⟨notExact, small⟩
      by_cases room : sbuf.writeNdx.toNat + data.val.kind.size < len.toNat
      · rcases write_appends state host room with ⟨next, taken, kept, shown⟩
        refine ⟨⟨true, none⟩, next, taken, kept, ?_⟩
        have fits : (unreadBytes sbuf).written + data.val.kind.size ≤ len.toNat := Nat.le_of_lt room
        rw [Automaton.total, queueCall, if_pos fits, shown]
      · have refused : sbufIsWritePossible sbuf (.ofNat data.val.kind.size) = false := by
          rw [Bool.eq_false_iff, ne_eq, write_possible_iff, Nat.mod_eq_of_lt small]
          exact room
        have full : ¬ (unreadBytes sbuf).written + data.val.kind.size ≤ len.toNat := by
          simp only [unreadBytes]
          omega
        refine ⟨⟨false, none⟩, sbuf, write_refused refused, state, ?_⟩
        rw [Automaton.total, queueCall, if_neg full]
  | read kind =>
      have start : sbuf.readNdx.toNat = 0 := by rw [state.read, UInt32.toNat_zero]
      have short : ¬ kind.val.size ≤ (unreadBytes sbuf).unread.length := by
        have wanted : sbuf.writeNdx.toNat < sbuf.readNdx.toNat + kind.val.size := spared
        simp only [unreadBytes, List.length_drop, front_length _ inside]
        omega
      refine ⟨⟨false, none⟩, sbuf, read_fails state host kind, state, ?_⟩
      rw [Automaton.total, queueCall, if_neg short]

theorem writes_follow {sbuf : Sbuf len} (state : NothingRecorded sbuf) (host : Endian)
    {values : List SbufData} (room : sbuf.writeNdx.toNat + totalSize values < len.toNat) :
    ∃ replies last, Automaton.run (sbufCall host) sbuf (values.map .write) = some (replies, last) ∧
      NothingRecorded last ∧
      Automaton.run (Automaton.total (queueCall len.toNat)) (unreadBytes sbuf)
        (values.map .write) = some (replies, unreadBytes last) := by
  induction values generalizing sbuf with
  | nil => exact ⟨[], sbuf, rfl, state, rfl⟩
  | cons data values ih =>
      rw [totalSize_cons] at room
      have start : sbuf.writeNdx.toNat + data.val.kind.size < len.toNat := by omega
      rcases write_appends state host start with ⟨next, taken, kept, shown⟩
      have moved : next.writeNdx.toNat = sbuf.writeNdx.toNat + data.val.kind.size :=
        congrArg ByteQueue.written shown
      have fits : (unreadBytes sbuf).written + data.val.kind.size ≤ len.toNat := Nat.le_of_lt start
      have queued : Automaton.total (queueCall len.toNat) (unreadBytes sbuf) (.write data) =
          some (⟨true, none⟩, unreadBytes next) := by
        rw [Automaton.total, queueCall, if_pos fits, shown]
      have later : next.writeNdx.toNat + totalSize values < len.toNat := by omega
      rcases ih kept later with ⟨replies, last, ran, final, specified⟩
      exact ⟨⟨true, none⟩ :: replies, last,
        Automaton.run_cons_eq_some.mpr ⟨_, next, replies, taken, ran, rfl⟩, final,
        Automaton.run_cons_eq_some.mpr ⟨_, _, replies, queued, specified, rfl⟩⟩

theorem reads_fail {sbuf : Sbuf len} (state : NothingRecorded sbuf) (host : Endian)
    (values : List SbufData) :
    Automaton.run (sbufCall host) sbuf (values.map fun data => .read (kindOf data)) =
      some (values.map fun _ => ⟨false, none⟩, sbuf) := by
  induction values with
  | nil => rfl
  | cons data values ih =>
      apply Automaton.run_cons_eq_some.mpr
      exact ⟨⟨false, none⟩, sbuf, _, read_fails state host (kindOf data), ih, rfl⟩

/-- What was written is in the buffer, as a queue would read it; the buffer itself gives none
of it back. -/
theorem sbuf_round_trip (host : Endian) (buf : Vector UInt8 len.toNat) {values : List SbufData}
    (room : totalSize values < len.toNat) :
    ∃ last, Automaton.run (sbufCall host) (sbufInit buf)
        (values.map .write ++ values.map fun data => .read (kindOf data)) =
        some ((values.map fun _ => ⟨true, none⟩) ++ values.map fun _ => ⟨false, none⟩, last) ∧
      Automaton.run (Automaton.total (queueCall len.toNat)) (unreadBytes last)
          (values.map fun data => .read (kindOf data)) =
        some (values.map fun data => ⟨true, some data.val⟩, ⟨totalSize values, []⟩) := by
  have state : NothingRecorded (sbufInit buf) := ⟨rfl, rfl, Nat.zero_le _⟩
  have start : unreadBytes (sbufInit buf) = ⟨0, []⟩ := by simp [unreadBytes, sbufInit]
  have free : (sbufInit buf).writeNdx.toNat + totalSize values < len.toNat := by
    simpa [sbufInit] using room
  rcases writes_follow state host free with ⟨replies, last, ran, final, specified⟩
  rcases queue_round_trip (Nat.le_of_lt room) with ⟨queue, written, read⟩
  rw [start, written] at specified
  obtain ⟨rfl, rfl⟩ := Prod.mk.inj (Option.some.inj specified)
  exact ⟨last, Automaton.run_append ran (reads_fail final host values), read⟩

theorem unspared_step {sbuf next : Sbuf len} {host : Endian} {call : SbufCall} {reply : SbufReply}
    {queue : ByteQueue} (state : NothingRecorded sbuf) (hit : ¬ Spared sbuf call)
    (taken : sbufCall host sbuf call = some (reply, next)) :
    Automaton.total (queueCall len.toNat) (unreadBytes sbuf) call ≠ some (reply, queue) := by
  have inside := state.write
  have size := len.toNat_lt
  intro specified
  cases call with
  | write data =>
      have bytes := data.val.encode_length
      have int := data.property
      by_cases exact_fit : sbuf.writeNdx.toNat + data.val.kind.size = len.toNat
      · -- the comparison refuses the write that would fill the buffer
        have refused : sbufIsWritePossible sbuf (.ofNat data.val.kind.size) = false := by
          rw [Bool.eq_false_iff, ne_eq, write_possible_iff, exact_fit, Nat.mod_eq_of_lt size]
          exact Nat.lt_irrefl _
        have fits : (unreadBytes sbuf).written + data.val.kind.size ≤ len.toNat :=
          Nat.le_of_eq exact_fit
        rw [write_refused refused] at taken
        rw [Automaton.total, queueCall, if_pos fits] at specified
        simp only [Option.some.injEq, Prod.mk.injEq] at taken specified
        simp [← taken.1] at specified
      · -- the sum wraps around, and the loop runs out of the buffer
        have large : 2 ^ 32 ≤ sbuf.writeNdx.toNat + data.val.kind.size := by
          by_contra small
          exact hit ⟨exact_fit, Nat.lt_of_not_le small⟩
        have possible : sbufIsWritePossible sbuf (.ofNat data.val.kind.size) = true := by
          rw [write_possible_iff]
          omega
        rw [write_possible possible, storeBytes_outside inside (by omega)] at taken
        simp at taken
  | read kind =>
      have stored : kind.val.size ≤ (unreadBytes sbuf).unread.length := by
        have wanted : ¬ sbuf.writeNdx.toNat < sbuf.readNdx.toNat + kind.val.size := hit
        simp only [unreadBytes, List.length_drop, front_length _ inside]
        omega
      rw [read_fails state host kind] at taken
      rw [Automaton.total, queueCall, if_pos stored] at specified
      simp only [Option.some.injEq, Prod.mk.injEq] at taken specified
      simp [← taken.1] at specified

/-- A run of the buffer is a run of the queue exactly when its steps are all spared. -/
theorem actsAsQueue_iff (host : Endian) (buf : Vector UInt8 len.toNat) (calls : List SbufCall) :
    ActsAsQueue host (sbufInit buf) calls ↔
      Automaton.Throughout (sbufCall host) Spared (sbufInit buf) calls :=
  Automaton.agree_iff_throughout
    (fun _ _ state spared => spared_step state host spared)
    (fun _ _ _ _ _ state hit taken => unspared_step state hit taken)
    (⟨rfl, rfl, Nat.zero_le _⟩ : NothingRecorded (sbufInit buf)) calls

/-- In a buffer of four bytes, a byte is written and cannot be read. -/
theorem not_actsAsQueue : ¬ ActsAsQueue .little (@sbufInit 4 #v[0, 0, 0, 0])
    [.write ⟨.u8 1, by decide⟩, .read ⟨.u8, by decide⟩] := by
  rintro ⟨replies, last, ran, specified⟩
  have code := congrArg (Option.map Prod.fst) ran
  have queue := congrArg (Option.map Prod.fst) specified
  have refused : some replies = some [⟨true, none⟩, ⟨false, none⟩] := code.symm.trans (by decide)
  have granted : some replies = some [⟨true, none⟩, ⟨true, some (.u8 1)⟩] :=
    queue.symm.trans (by decide)
  exact absurd (refused.symm.trans granted) (by decide)

end KongjaExpress.Utils
