import Mathlib.Tactic

/-! Memory of a fixed size: block copies, stores that are checked against the
bounds, the part behind a pointer, and agreement of two memories on a front part. -/

namespace KongjaExpress.Memory

variable {α : Type} {n : Nat}

/-- The C library's `memcpy(&memory[offset], source, length of source)`. Cells that
would fall behind the end of the memory are not written. -/
def blit (memory : Vector α n) (offset : Nat) (source : List α) : Vector α n :=
  Vector.ofFn fun i =>
    if h : offset ≤ i.val ∧ i.val - offset < source.length
    then source[i.val - offset] else memory[i]

/-- A store at a signed index; `none` is a store outside the memory. -/
def store (memory : Vector α n) (index : Int) (value : α) : Option (Vector α n) :=
  if h : 0 ≤ index ∧ index < n then
    some (memory.set index.toNat value (by omega))
  else none

/-- The C library's `memcpy`; `none` is a copy that leaves the memory. -/
def copy (memory : Vector α n) (offset : Nat) (source : List α) : Option (Vector α n) :=
  if offset + source.length ≤ n then some (blit memory offset source) else none

/-- The memory with everything from `offset` on replaced: what a function that
was handed a pointer to `&memory[offset]` leaves behind. -/
def overlay (memory : Vector α n) (offset : Nat) (tail : Vector α (n - offset)) :
    Vector α n :=
  Vector.ofFn fun i => if h : i.val < offset then memory[i] else tail[i.val - offset]

/-- The first `m` cells. -/
def front (memory : Vector α n) (m : Nat) : List α := memory.toList.take m

def AgreeBelow (m : Nat) (left right : Vector α n) : Prop :=
  ∀ i (bound : i < n), i < m → left[i] = right[i]

theorem getElem_blit (memory : Vector α n) (offset : Nat) (source : List α)
    (i : Nat) (bound : i < n) :
    (blit memory offset source)[i] =
      if h : offset ≤ i ∧ i - offset < source.length then source[i - offset] else memory[i] := by
  simp [blit]

theorem getElem_blit_inside (memory : Vector α n) (offset : Nat) (source : List α)
    (i : Nat) (inside : i < source.length) (bound : offset + i < n) :
    (blit memory offset source)[offset + i] = source[i] := by
  simp [getElem_blit, inside]

theorem getElem_blit_outside (memory : Vector α n) (offset : Nat) (source : List α)
    (i : Nat) (bound : i < n) (outside : i < offset ∨ offset + source.length ≤ i) :
    (blit memory offset source)[i] = memory[i] := by
  rw [getElem_blit, dif_neg]
  omega

@[simp] theorem blit_nil (memory : Vector α n) (offset : Nat) :
    blit memory offset [] = memory := by
  apply Vector.ext
  intro i bound
  exact getElem_blit_outside memory offset [] i bound (by simp; omega)

theorem getElem_overlay (memory : Vector α n) (offset : Nat) (tail : Vector α (n - offset))
    (i : Nat) (bound : i < n) :
    (overlay memory offset tail)[i] =
      if h : i < offset then memory[i] else tail[i - offset] := by
  simp [overlay]

theorem getElem_overlay_below (memory : Vector α n) (offset : Nat)
    (tail : Vector α (n - offset)) (i : Nat) (bound : i < n) (below : i < offset) :
    (overlay memory offset tail)[i] = memory[i] := by
  rw [getElem_overlay, dif_pos below]

theorem getElem_overlay_above (memory : Vector α n) (offset : Nat)
    (tail : Vector α (n - offset)) (i : Nat) (bound : i < n) (above : offset ≤ i) :
    (overlay memory offset tail)[i] = tail[i - offset] := by
  rw [getElem_overlay, dif_neg (by omega)]

theorem store_some {memory : Vector α n} {index : Nat} (bound : index < n) (value : α) :
    store memory (index : Int) value = some (memory.set index value) := by
  have inside : 0 ≤ (index : Int) ∧ (index : Int) < n := by omega
  rw [store, dif_pos inside]
  rfl

theorem store_isSome_iff {memory : Vector α n} {index : Int} {value : α} :
    (store memory index value).isSome ↔ 0 ≤ index ∧ index < n := by
  unfold store
  split <;> simp_all

@[simp] theorem front_zero (memory : Vector α n) : front memory 0 = [] := by
  simp [front]

theorem front_length (memory : Vector α n) {m : Nat} (bound : m ≤ n) :
    (front memory m).length = m := by
  simp [front, bound]

theorem getElem_front (memory : Vector α n) {m i : Nat} (bound : i < n)
    (h : i < (front memory m).length) : (front memory m)[i] = memory[i] := by
  simp [front]

theorem front_succ (memory : Vector α n) {m : Nat} (bound : m < n) :
    front memory (m + 1) = front memory m ++ [memory[m]] := by
  unfold front
  rw [List.take_succ_eq_append_getElem (by simpa using bound)]
  simp

theorem front_seven (memory : Vector α n) (bound : 7 ≤ n) :
    front memory 7 =
      [memory[0], memory[1], memory[2], memory[3], memory[4], memory[5], memory[6]] := by
  rw [front_succ memory (by omega), front_succ memory (by omega), front_succ memory (by omega),
    front_succ memory (by omega), front_succ memory (by omega), front_succ memory (by omega),
    front_succ memory (by omega), front_zero]
  rfl

theorem front_set_succ (memory : Vector α n) {m : Nat} (bound : m < n) (value : α) :
    front (memory.set m value) (m + 1) = front memory m ++ [value] := by
  unfold front
  rw [Vector.toList_set, List.take_succ_eq_append_getElem (by simpa using bound)]
  simp [List.take_set_of_le]

theorem front_blit (memory : Vector α n) (offset : Nat) (source : List α)
    (fits : offset + source.length ≤ n) :
    front (blit memory offset source) (offset + source.length) =
      front memory offset ++ source := by
  apply List.ext_getElem
  · rw [front_length _ fits, List.length_append, front_length _ (by omega)]
  · intro i hi hj
    rw [front_length _ fits] at hi
    rw [getElem_front _ (by omega)]
    by_cases low : i < offset
    · rw [getElem_blit_outside _ _ _ _ _ (Or.inl low),
        List.getElem_append_left (by rw [front_length _ (by omega)]; exact low),
        getElem_front _ (by omega)]
    · obtain ⟨k, rfl⟩ : ∃ k, i = offset + k := ⟨i - offset, by omega⟩
      rw [getElem_blit_inside _ _ _ _ (by omega) (by omega),
        List.getElem_append_right (by rw [front_length _ (by omega)]; omega)]
      simp [front_length memory (show offset ≤ n by omega)]

theorem blit_concat (memory : Vector α n) (source : List α) (value : α)
    (room : source.length < n) :
    (blit memory 0 source).set source.length value = blit memory 0 (source ++ [value]) := by
  apply Vector.ext
  intro i bound
  rw [Vector.getElem_set, getElem_blit, getElem_blit]
  rcases Nat.lt_trichotomy i source.length with low | same | high
  · simp [low, low.ne', Nat.lt_succ_of_lt low]
  · simp [same]
  · rw [if_neg (by omega), dif_neg (by omega), dif_neg (by simp; omega)]

theorem front_add (memory : Vector α n) (i j : Nat) :
    front memory (i + j) = front memory i ++ front (memory.drop i) j := by
  rw [front, front, front, Vector.toList_drop, List.take_add]

theorem front_split {memory : Vector α n} {left right : List α} (fits : left.length ≤ n)
    (same : front memory (left.length + right.length) = left ++ right) :
    front memory left.length = left ∧ front (memory.drop left.length) right.length = right := by
  rw [front_add] at same
  exact List.append_inj same (front_length memory fits)

/-- Behind `offset` an overlaid memory is what was laid over it. -/
theorem drop_overlay (memory : Vector α n) (offset : Nat) (tail : Vector α (n - offset)) :
    (overlay memory offset tail).drop offset = tail := by
  apply Vector.ext
  intro i bound
  rw [Vector.getElem_drop, getElem_overlay_above _ _ _ _ _ (by omega)]
  congr 1
  omega

theorem drop_set (memory : Vector α n) (index offset : Nat) (bound : index < n) (value : α)
    (below : index < offset) : (memory.set index value).drop offset = memory.drop offset := by
  apply Vector.ext
  intro i inside
  rw [Vector.getElem_drop, Vector.getElem_drop, Vector.getElem_set_ne _ _ (by omega)]

theorem front_blit_zero (memory : Vector α n) (source : List α) (fits : source.length ≤ n) :
    front (blit memory 0 source) source.length = source := by
  have whole := front_blit memory 0 source (by omega)
  rwa [Nat.zero_add, front_zero, List.nil_append] at whole

theorem AgreeBelow.front_eq {left right : Vector α n} {m : Nat}
    (agree : AgreeBelow m left right) : front left m = front right m := by
  apply List.ext_getElem
  · simp [front]
  · intro i hi _
    have bound : i < m ∧ i < n := by simpa [front] using hi
    rw [getElem_front _ bound.2, getElem_front _ bound.2]
    exact agree i bound.2 bound.1

theorem front_ext {m size : Nat} {left : Vector α n} {right : Vector α m} (inLeft : size ≤ n)
    (inRight : size ≤ m) (same : ∀ i (inside : i < size), left[i] = right[i]) :
    front left size = front right size := by
  apply List.ext_getElem
  · rw [front_length left inLeft, front_length right inRight]
  · intro i hi _
    rw [front_length left inLeft] at hi
    rw [getElem_front left (by omega), getElem_front right (by omega)]
    exact same i hi

/-- A copy made through a pointer to `&memory[offset]`. -/
theorem overlay_blit (memory : Vector α n) (offset : Nat) (source : List α) :
    overlay memory offset (blit (memory.drop offset) 0 source) = blit memory offset source := by
  apply Vector.ext
  intro i bound
  rw [getElem_overlay, getElem_blit]
  by_cases below : i < offset
  · rw [dif_pos below, dif_neg (by omega)]
  · rw [dif_neg below, getElem_blit]
    have index : offset + (i - offset) = i := by omega
    simp [Nat.le_of_not_lt below, index]

theorem front_overlay (memory : Vector α n) {offset m : Nat} (tail : Vector α (n - offset))
    (below : m ≤ offset) : front (overlay memory offset tail) m = front memory m := by
  apply AgreeBelow.front_eq
  intro i bound inside
  exact getElem_overlay_below memory offset tail i bound (by omega)

theorem agreeBelow_of_front {left right : Vector α n} {m : Nat}
    (same : front left m = front right m) : AgreeBelow m left right := by
  intro i bound inside
  have inLeft : i < (front left m).length := by simp [front]; omega
  have inRight : i < (front right m).length := by simp [front]; omega
  rw [← getElem_front left bound inLeft, ← getElem_front right bound inRight]
  simp [same]

theorem agreeBelow_zero (left right : Vector α n) : AgreeBelow 0 left right :=
  fun i _ inside => absurd inside (Nat.not_lt_zero i)

theorem AgreeBelow.mono {left right : Vector α n} {m k : Nat}
    (agree : AgreeBelow m left right) (le : k ≤ m) : AgreeBelow k left right :=
  fun i bound inside => agree i bound (by omega)

theorem AgreeBelow.set {left right : Vector α n} {m index : Nat}
    (agree : AgreeBelow m left right) (bound : index < n) (value : α) :
    AgreeBelow m (left.set index value) (right.set index value) := by
  intro i hi inside
  simp only [Vector.getElem_set]
  split
  · rfl
  · exact agree i hi inside

theorem AgreeBelow.set_succ {left right : Vector α n} {m : Nat}
    (agree : AgreeBelow m left right) (bound : m < n) (value : α) :
    AgreeBelow (m + 1) (left.set m value) (right.set m value) := by
  intro i hi inside
  simp only [Vector.getElem_set]
  split
  · rfl
  · exact agree i hi (by omega)

theorem AgreeBelow.blit {left right : Vector α n} {m offset : Nat}
    (agree : AgreeBelow m left right) (start : offset ≤ m) (source : List α) :
    AgreeBelow (max m (offset + source.length))
      (blit left offset source) (blit right offset source) := by
  intro i hi inside
  rw [getElem_blit, getElem_blit]
  split
  · rfl
  · exact agree i hi (by omega)

theorem AgreeBelow.drop {left right : Vector α n} {m : Nat}
    (agree : AgreeBelow m left right) (offset : Nat) :
    AgreeBelow (m - offset) (left.drop offset) (right.drop offset) := by
  intro i hi inside
  rw [Vector.getElem_drop, Vector.getElem_drop]
  exact agree _ _ (by omega)

/-- Memories that agree in front of `offset`, with tails that agree. -/
theorem AgreeBelow.overlay {left right : Vector α n} {m offset : Nat}
    {tail tail' : Vector α (n - offset)} (agree : AgreeBelow offset left right)
    (tails : AgreeBelow m tail tail') :
    AgreeBelow (offset + m) (overlay left offset tail) (overlay right offset tail') := by
  intro i hi inside
  rw [getElem_overlay, getElem_overlay]
  split
  · rename_i below
    exact agree i hi below
  · exact tails _ _ (by omega)

end KongjaExpress.Memory
