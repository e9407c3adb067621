import Mathlib.Tactic

/-! Editors of a line of bounded length: a key deletes the last item of the line, or is added to
it while there is room. -/

namespace KongjaExpress.LineEditor

variable {α : Type} (deletes : α → Prop) [DecidablePred deletes] (cap : Nat)

def edit (line : List α) (key : α) : List α :=
  if deletes key then line.dropLast
  else if line.length < cap then line ++ [key] else line

/-- An editor that takes no key at all once the line is full. -/
def editUntilFull (line : List α) (key : α) : List α :=
  if line.length < cap then edit deletes cap line key else line

def countUntilFull (count : Nat) (key : α) : Nat :=
  if count < cap then if deletes key then count - 1 else count + 1 else count

/-- The keys behind the one that fills the line leave it as it is. -/
def KeptWhenFull : List α → List α → Prop
  | _, [] => True
  | line, key :: keys =>
      if line.length < cap then KeptWhenFull (edit deletes cap line key) keys
      else (key :: keys).foldl (edit deletes cap) line = line

variable {deletes cap} {line : List α}

theorem editUntilFull_length (key : α) : (editUntilFull deletes cap line key).length =
    countUntilFull deletes cap line.length key := by
  unfold editUntilFull countUntilFull edit
  split_ifs <;> simp

theorem editUntilFull_full (full : ¬ line.length < cap) (keys : List α) :
    keys.foldl (editUntilFull deletes cap) line = line := by
  induction keys with
  | nil => rfl
  | cons key keys ih =>
      rw [List.foldl_cons, editUntilFull, if_neg full]
      exact ih

/-- The two editors agree if and only if nothing is changed of a line that has become full. -/
theorem editUntilFull_iff (keys : List α) :
    keys.foldl (editUntilFull deletes cap) line = keys.foldl (edit deletes cap) line ↔
      KeptWhenFull deletes cap line keys := by
  induction keys generalizing line with
  | nil => exact iff_of_true rfl trivial
  | cons key keys ih =>
      rw [KeptWhenFull]
      split_ifs with room
      · rw [List.foldl_cons, List.foldl_cons, editUntilFull, if_pos room]
        exact ih
      · rw [editUntilFull_full room]
        exact eq_comm

theorem edit_adds {keys : List α} (adds : ∀ key ∈ keys, ¬ deletes key)
    (room : line.length + keys.length ≤ cap) :
    keys.foldl (edit deletes cap) line = line ++ keys := by
  induction keys generalizing line with
  | nil => exact (List.append_nil line).symm
  | cons key keys ih =>
      rw [List.length_cons] at room
      rw [List.foldl_cons, edit, if_neg (adds key List.mem_cons_self), if_pos (by omega),
        ih (fun next member => adds next (List.mem_cons_of_mem key member))
          (by rw [List.length_append, List.length_singleton]; omega),
        List.append_assoc, List.singleton_append]

/-- Without deletions a line is kept from when it is full. -/
theorem edit_full (full : ¬ line.length < cap) {keys : List α} (adds : ∀ key ∈ keys, ¬ deletes key) :
    keys.foldl (edit deletes cap) line = line := by
  induction keys with
  | nil => rfl
  | cons key keys ih =>
      rw [List.foldl_cons, edit, if_neg (adds key List.mem_cons_self), if_neg full]
      exact ih fun next member => adds next (List.mem_cons_of_mem key member)

theorem keptWhenFull_of_adds {keys : List α} (adds : ∀ key ∈ keys, ¬ deletes key) :
    KeptWhenFull deletes cap line keys := by
  induction keys generalizing line with
  | nil => trivial
  | cons key keys ih =>
      rw [KeptWhenFull]
      split_ifs with room
      · exact ih fun next member => adds next (List.mem_cons_of_mem key member)
      · exact edit_full room adds

end KongjaExpress.LineEditor
