import KongjaExpress.Library.Memory

/-! The byte ring of `circ_buffer.c`. Sizes and indices are natural numbers here;
sums that leave the range of a C `int` are undefined there. -/

namespace KongjaExpress.Utils

open Memory

/-- `circ_buffer_t`; the size is the capacity it was initialised with. -/
structure CircBuffer (size : Nat) where
  buffer : Vector UInt8 size
  dataSize : Nat
  beginNdx : Nat
  endNdx : Nat
  deriving DecidableEq, Repr

variable {size : Nat}

/-- `circ_buffer_init`, with the memory `malloc` returned. -/
def circBufferInit (heap : Vector UInt8 size) : CircBuffer size := ⟨heap, 0, 0, 0⟩

def circBufferIsEmpty (cb : CircBuffer size) : Bool := cb.dataSize == 0

def circBufferGetDataSize (cb : CircBuffer size) : Nat := cb.dataSize

/-- Returns 0 on success and -1 when the whole of `buf` does not fit. -/
def circBufferPut (cb : CircBuffer size) (buf : List UInt8) : Int × CircBuffer size :=
  if cb.dataSize + buf.length > size then
    (-1, cb)
  else
    let buffer :=
      if cb.endNdx + buf.length > size then
        let beginLen := size - cb.endNdx
        blit (blit cb.buffer cb.endNdx (buf.take beginLen)) 0 (buf.drop beginLen)
      else
        blit cb.buffer cb.endNdx buf
    (0, { cb with
      buffer := buffer
      endNdx := (cb.endNdx + buf.length) % size
      dataSize := cb.dataSize + buf.length })

/-- The bytes `memcpy` fetches from `&buffer[start]`. -/
def fetch (buffer : Vector UInt8 size) (start count : Nat) : List UInt8 :=
  (buffer.toList.drop start).take count

/-- Returns 0 and the bytes copied out, or -1 when fewer than `count` are stored. -/
def circBufferPeek (cb : CircBuffer size) (count : Nat) : Int × List UInt8 :=
  if (cb.dataSize : Int) - count < 0 then
    (-1, [])
  else if cb.beginNdx + count ≤ size then
    (0, fetch cb.buffer cb.beginNdx count)
  else
    let beginLen := size - cb.beginNdx
    (0, fetch cb.buffer cb.beginNdx beginLen ++ fetch cb.buffer 0 (count - beginLen))

def circBufferAdvance (cb : CircBuffer size) (count : Nat) : Int × CircBuffer size :=
  if (cb.dataSize : Int) - count < 0 then
    (-1, cb)
  else
    (0, { cb with
      beginNdx := (cb.beginNdx + count) % size
      dataSize := cb.dataSize - count })

/-- `circ_buffer_get`: the bytes copied out and the ring without them. -/
def circBufferGet (cb : CircBuffer size) (count : Nat) : Int × List UInt8 × CircBuffer size :=
  if (cb.dataSize : Int) - count < 0 then
    (-1, [], cb)
  else
    let copied :=
      if cb.beginNdx + count ≤ size then
        fetch cb.buffer cb.beginNdx count
      else
        let beginLen := size - cb.beginNdx
        fetch cb.buffer cb.beginNdx beginLen ++ fetch cb.buffer 0 (count - beginLen)
    (0, copied, { cb with
      beginNdx := (cb.beginNdx + count) % size
      dataSize := cb.dataSize - count })

def circBufferReset (cb : CircBuffer size) : CircBuffer size :=
  { cb with beginNdx := 0, endNdx := 0, dataSize := 0 }

structure WellFormed (cb : CircBuffer size) : Prop where
  begin_lt : cb.beginNdx < size
  data_le : cb.dataSize ≤ size
  end_eq : cb.endNdx = (cb.beginNdx + cb.dataSize) % size

/-- The queue a ring stores: the bytes at `begin`, `begin + 1`, ... modulo the size. -/
def contents (cb : CircBuffer size) : List UInt8 :=
  (List.range cb.dataSize).map fun i => cb.buffer.toList.getD ((cb.beginNdx + i) % size) 0

@[simp] theorem contents_length (cb : CircBuffer size) :
    (contents cb).length = cb.dataSize := by
  simp [contents]

theorem isEmpty_iff (cb : CircBuffer size) : circBufferIsEmpty cb = true ↔ contents cb = [] := by
  rw [← List.length_eq_zero_iff, contents_length, circBufferIsEmpty, beq_iff_eq]

theorem contents_eq_nil {cb : CircBuffer size} (empty : circBufferIsEmpty cb = true) :
    contents cb = [] :=
  (isEmpty_iff cb).mp empty

theorem WellFormed.end_lt {cb : CircBuffer size} (sound : WellFormed cb) : cb.endNdx < size := by
  rw [sound.end_eq]
  exact Nat.mod_lt _ (Nat.zero_lt_of_lt sound.begin_lt)

theorem circBufferInit_wellFormed (positive : 0 < size) (heap : Vector UInt8 size) :
    WellFormed (circBufferInit heap) := by
  refine ⟨positive, Nat.zero_le size, ?_⟩
  simp [circBufferInit]

@[simp] theorem contents_init (heap : Vector UInt8 size) : contents (circBufferInit heap) = [] := by
  simp [contents, circBufferInit]

theorem contents_getElem (cb : CircBuffer size) (i : Nat) (h : i < (contents cb).length) :
    (contents cb)[i] = cb.buffer.toList.getD ((cb.beginNdx + i) % size) 0 := by
  simp [contents]

theorem getD_toList (buffer : Vector UInt8 size) {i : Nat} (bound : i < size) :
    buffer.toList.getD i 0 = buffer[i] := by
  simp [List.getD, bound]

/-- The index `k` places behind `start`, when at most one wrap lies between. -/
theorem wrapped_index {start k : Nat} (inside : start < size) (short : k ≤ size) :
    (start + k) % size = if start + k < size then start + k else start + k - size := by
  split
  · rename_i low
    exact Nat.mod_eq_of_lt low
  · rename_i high
    rw [Nat.mod_eq_sub_mod (by omega), Nat.mod_eq_of_lt (by omega)]

theorem put_failure {cb : CircBuffer size} {buf : List UInt8}
    (full : size < cb.dataSize + buf.length) : circBufferPut cb buf = (-1, cb) := by
  simp [circBufferPut, full]

theorem put_success {cb : CircBuffer size} {buf : List UInt8}
    (fits : cb.dataSize + buf.length ≤ size) :
    (circBufferPut cb buf).1 = 0 ∧
      (circBufferPut cb buf).2.beginNdx = cb.beginNdx ∧
      (circBufferPut cb buf).2.dataSize = cb.dataSize + buf.length ∧
      (circBufferPut cb buf).2.endNdx = (cb.endNdx + buf.length) % size := by
  have room : ¬ cb.dataSize + buf.length > size := by omega
  simp [circBufferPut, room]

theorem put_returns_zero_iff (cb : CircBuffer size) (buf : List UInt8) :
    (circBufferPut cb buf).1 = 0 ↔ cb.dataSize + buf.length ≤ size := by
  constructor
  · intro returned
    by_contra full
    rw [put_failure (by omega)] at returned
    simp at returned
  · intro fits
    exact (put_success fits).1

/-- The cell `k` places behind `end` after a put that fits. -/
theorem put_cell {cb : CircBuffer size} {buf : List UInt8} (sound : WellFormed cb)
    (fits : cb.dataSize + buf.length ≤ size) (k : Nat) (short : k < size)
    (bound : (cb.endNdx + k) % size < size) :
    (circBufferPut cb buf).2.buffer[(cb.endNdx + k) % size] =
      if h : k < buf.length then buf[k] else cb.buffer[(cb.endNdx + k) % size] := by
  have endLt := sound.end_lt
  have room : ¬ cb.dataSize + buf.length > size := by omega
  have index := wrapped_index endLt (show k ≤ size by omega)
  simp only [circBufferPut, if_neg room, index]
  by_cases wraps : cb.endNdx + buf.length > size
  · simp only [if_pos wraps]
    by_cases before : cb.endNdx + k < size
    · -- the first copy fills the end of the buffer and the second stays in front of it
      have here : k < buf.length := by omega
      simp only [before, if_true, here, dif_pos]
      rw [getElem_blit_outside _ _ _ _ _ (Or.inr (by simp only [List.length_drop]; omega)),
        getElem_blit_inside _ _ _ _ (by simp only [List.length_take]; omega),
        List.getElem_take]
    · simp only [before, if_false]
      by_cases here : k < buf.length
      · have start : cb.endNdx + k - size = 0 + (k - (size - cb.endNdx)) := by omega
        have source : size - cb.endNdx + (k - (size - cb.endNdx)) = k := by omega
        simp only [here, dif_pos, start]
        rw [getElem_blit_inside _ _ _ _ (by simp only [List.length_drop]; omega)]
        simp only [List.getElem_drop, source]
      · rw [dif_neg here,
          getElem_blit_outside _ _ _ _ _ (Or.inr (by simp only [List.length_drop]; omega)),
          getElem_blit_outside _ _ _ _ _ (Or.inl (by omega))]
  · simp only [if_neg wraps]
    by_cases here : k < buf.length
    · have before : cb.endNdx + k < size := by omega
      simp only [before, if_true, here, dif_pos]
      exact getElem_blit_inside _ _ _ _ here _
    · rw [dif_neg here, getElem_blit_outside]
      split <;> omega

theorem put_wellFormed {cb : CircBuffer size} {buf : List UInt8} (sound : WellFormed cb) :
    WellFormed (circBufferPut cb buf).2 := by
  by_cases fits : cb.dataSize + buf.length ≤ size
  · obtain ⟨-, sameBegin, newSize, newEnd⟩ := put_success fits
    refine ⟨by rw [sameBegin]; exact sound.begin_lt, by rw [newSize]; exact fits, ?_⟩
    rw [newEnd, sameBegin, newSize, sound.end_eq, Nat.mod_add_mod, Nat.add_assoc]
  · rw [put_failure (by omega)]
    exact sound

theorem put_contents {cb : CircBuffer size} {buf : List UInt8} (sound : WellFormed cb)
    (fits : cb.dataSize + buf.length ≤ size) :
    contents (circBufferPut cb buf).2 = contents cb ++ buf := by
  obtain ⟨-, sameBegin, newSize, -⟩ := put_success fits
  have positive := sound.begin_lt
  apply List.ext_getElem
  · simp [newSize]
  · intro i hi _
    rw [contents_length, newSize] at hi
    by_cases old : i < cb.dataSize
    · have place : (cb.beginNdx + i) % size = (cb.endNdx + (size - cb.dataSize + i)) % size := by
        rw [sound.end_eq, Nat.mod_add_mod,
          show cb.beginNdx + cb.dataSize + (size - cb.dataSize + i) = cb.beginNdx + i + size by omega,
          Nat.add_mod_right]
      have cellLt : (cb.endNdx + (size - cb.dataSize + i)) % size < size :=
        Nat.mod_lt _ (by omega)
      rw [List.getElem_append_left (by simpa using old), contents_getElem, contents_getElem,
        sameBegin, place, getD_toList _ cellLt, getD_toList _ cellLt,
        put_cell sound fits _ (by omega) cellLt, dif_neg (by omega)]
    · obtain ⟨j, rfl⟩ : ∃ j, i = cb.dataSize + j := ⟨i - cb.dataSize, by omega⟩
      have place : (cb.beginNdx + (cb.dataSize + j)) % size = (cb.endNdx + j) % size := by
        rw [sound.end_eq, Nat.mod_add_mod, Nat.add_assoc]
      have cellLt : (cb.endNdx + j) % size < size := Nat.mod_lt _ (by omega)
      rw [List.getElem_append_right (by simp), contents_getElem, sameBegin, place,
        getD_toList _ cellLt, put_cell sound fits _ (by omega) cellLt, dif_pos (by omega)]
      simp

theorem advance_failure {cb : CircBuffer size} {count : Nat} (short : cb.dataSize < count) :
    circBufferAdvance cb count = (-1, cb) := by
  have negative : (cb.dataSize : Int) - count < 0 := by omega
  rw [circBufferAdvance, if_pos negative]

theorem advance_success {cb : CircBuffer size} {count : Nat} (stored : count ≤ cb.dataSize) :
    circBufferAdvance cb count =
      (0, { cb with beginNdx := (cb.beginNdx + count) % size, dataSize := cb.dataSize - count }) := by
  have enough : ¬ (cb.dataSize : Int) - count < 0 := by omega
  rw [circBufferAdvance, if_neg enough]

theorem advance_wellFormed {cb : CircBuffer size} {count : Nat} (sound : WellFormed cb) :
    WellFormed (circBufferAdvance cb count).2 := by
  have positive := sound.begin_lt
  by_cases stored : count ≤ cb.dataSize
  · have small := sound.data_le
    rw [advance_success stored]
    refine ⟨Nat.mod_lt _ (by omega), by simp only; omega, ?_⟩
    simp only
    rw [sound.end_eq, Nat.mod_add_mod]
    congr 1
    omega
  · rw [advance_failure (by omega)]
    exact sound

theorem advance_contents {cb : CircBuffer size} {count : Nat} (stored : count ≤ cb.dataSize) :
    contents (circBufferAdvance cb count).2 = (contents cb).drop count := by
  rw [advance_success stored]
  apply List.ext_getElem
  · simp
  · intro i hi _
    rw [List.getElem_drop, contents_getElem, contents_getElem]
    simp only [Nat.mod_add_mod, Nat.add_assoc]

theorem fetch_length (buffer : Vector UInt8 size) {start count : Nat}
    (inside : start + count ≤ size) : (fetch buffer start count).length = count := by
  simp only [fetch, List.length_take, List.length_drop, Vector.length_toList]
  omega

theorem getElem_fetch (buffer : Vector UInt8 size) {start count i : Nat}
    (h : i < (fetch buffer start count).length) (bound : start + i < size) :
    (fetch buffer start count)[i] = buffer[start + i] := by
  simp [fetch]

theorem peek_failure {cb : CircBuffer size} {count : Nat} (short : cb.dataSize < count) :
    circBufferPeek cb count = (-1, []) := by
  have negative : (cb.dataSize : Int) - count < 0 := by omega
  rw [circBufferPeek, if_pos negative]

/-- Peeking copies out the oldest bytes, through one wrap of the buffer at most. -/
theorem peek_contents {cb : CircBuffer size} {count : Nat} (sound : WellFormed cb)
    (stored : count ≤ cb.dataSize) :
    circBufferPeek cb count = (0, (contents cb).take count) := by
  have startLt := sound.begin_lt
  have small := sound.data_le
  have enough : ¬ (cb.dataSize : Int) - count < 0 := by omega
  rw [circBufferPeek, if_neg enough]
  split
  · rename_i straight
    congr 1
    apply List.ext_getElem
    · rw [fetch_length _ straight]
      simp [stored]
    · intro i hi _
      rw [fetch_length _ straight] at hi
      have place : (cb.beginNdx + i) % size = cb.beginNdx + i := Nat.mod_eq_of_lt (by omega)
      rw [getElem_fetch _ _ (by omega), List.getElem_take, contents_getElem, place,
        getD_toList _ (by omega)]
  · rename_i wraps
    dsimp only
    congr 1
    have first : (fetch cb.buffer cb.beginNdx (size - cb.beginNdx)).length = size - cb.beginNdx :=
      fetch_length _ (by omega)
    apply List.ext_getElem
    · rw [List.length_append, first, fetch_length _ (by omega)]
      simp only [List.length_take, contents_length]
      omega
    · intro i hi _
      rw [List.length_append, first, fetch_length _ (by omega)] at hi
      have place := wrapped_index startLt (show i ≤ size by omega)
      by_cases before : cb.beginNdx + i < size
      · rw [if_pos before] at place
        rw [List.getElem_append_left (by omega), getElem_fetch _ _ (by omega),
          List.getElem_take, contents_getElem, place, getD_toList _ (by omega)]
      · rw [if_neg before] at place
        have index : 0 + (i - (size - cb.beginNdx)) = cb.beginNdx + i - size := by omega
        rw [List.getElem_append_right (by omega), List.getElem_take, contents_getElem, place,
          getD_toList _ (by omega)]
        simp only [first]
        rw [getElem_fetch _ _ (by omega)]
        simp only [index]

theorem get_eq (cb : CircBuffer size) (count : Nat) :
    circBufferGet cb count = ((circBufferPeek cb count).1, (circBufferPeek cb count).2,
      (circBufferAdvance cb count).2) := by
  rw [circBufferGet, circBufferPeek, circBufferAdvance]
  by_cases short : (cb.dataSize : Int) - count < 0
  · simp only [if_pos short]
  · by_cases straight : cb.beginNdx + count ≤ size
    · simp only [if_neg short, if_pos straight]
    · simp only [if_neg short, if_neg straight]

theorem get_failure {cb : CircBuffer size} {count : Nat} (short : cb.dataSize < count) :
    circBufferGet cb count = (-1, [], cb) := by
  rw [get_eq, peek_failure short, advance_failure short]

theorem get_success {cb : CircBuffer size} {count : Nat} (sound : WellFormed cb)
    (stored : count ≤ cb.dataSize) :
    circBufferGet cb count = (0, (contents cb).take count, (circBufferAdvance cb count).2) := by
  rw [get_eq, peek_contents sound stored]

theorem reset_wellFormed {cb : CircBuffer size} (sound : WellFormed cb) :
    WellFormed (circBufferReset cb) :=
  circBufferInit_wellFormed (Nat.zero_lt_of_lt sound.begin_lt) cb.buffer

@[simp] theorem contents_reset (cb : CircBuffer size) : contents (circBufferReset cb) = [] :=
  contents_init cb.buffer

end KongjaExpress.Utils
