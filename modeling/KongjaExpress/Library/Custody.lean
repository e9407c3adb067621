import Mathlib.Tactic

/-! Ledgers of resources. What was taken is held until it is given away, and then it can
be taken again; nothing is used or given away that is not held. -/

namespace KongjaExpress.Custody

inductive Entry (κ : Type)
  | take (k : κ)
  | give (k : κ)
  | use (k : κ)
  /-- Use of something that never was a resource. -/
  | stray
  deriving DecidableEq, Repr

/-- The same entry for the resource that `f` makes of its own. -/
def Entry.map {κ κ' : Type} (f : κ → κ') : Entry κ → Entry κ'
  | .take k => .take (f k)
  | .give k => .give (f k)
  | .use k => .use (f k)
  | .stray => .stray

variable {κ : Type} [DecidableEq κ]

/-- What is held after an entry; none for an entry that must not be there. -/
def post (held : List κ) : Entry κ → Option (List κ)
  | .take k => some (k :: held)
  | .give k => if k ∈ held then some (held.erase k) else none
  | .use k => if k ∈ held then some held else none
  | .stray => none

def settle (entries : List (Entry κ)) : Option (List κ) := entries.foldlM post []

@[simp] theorem settle_nil : settle ([] : List (Entry κ)) = some [] := rfl

theorem settle_append {front : List (Entry κ)} {held : List κ} (settled : settle front = some held)
    (back : List (Entry κ)) : settle (front ++ back) = back.foldlM post held := by
  rw [settle, List.foldlM_append]
  change (settle front).bind _ = _
  rw [settled, Option.bind_some]

@[simp] theorem post_take (held : List κ) (k : κ) : post held (.take k) = some (k :: held) := rfl

@[simp] theorem post_give (held : List κ) (k : κ) : post (k :: held) (.give k) = some held := by
  rw [post, if_pos List.mem_cons_self, List.erase_cons_head]

@[simp] theorem post_use (held : List κ) (k : κ) : post (k :: held) (.use k) = some (k :: held) :=
  if_pos List.mem_cons_self

@[simp] theorem post_give_nil (k : κ) : post [] (.give k) = none := rfl

@[simp] theorem post_stray (held : List κ) : post held .stray = none := rfl

/-! Ledgers in which the order of what is held does not matter. -/

/-- With `before` held, the entries lead to `after`. -/
def Balances (entries : List (Entry κ)) (before after : List κ) : Prop :=
  ∀ held, held.Perm before → ∃ rest, entries.foldlM post held = some rest ∧ rest.Perm after

theorem Balances.nil {before after : List κ} (same : before.Perm after) :
    Balances [] before after :=
  fun held known => ⟨held, rfl, known.trans same⟩

theorem Balances.take {k : κ} {entries : List (Entry κ)} {before after : List κ}
    (later : Balances entries (k :: before) after) :
    Balances (.take k :: entries) before after := by
  intro held known
  rcases later (k :: held) (known.cons k) with ⟨rest, settled, left⟩
  exact ⟨rest, settled, left⟩

theorem Balances.use {k : κ} {entries : List (Entry κ)} {before after : List κ}
    (member : k ∈ before) (later : Balances entries before after) :
    Balances (.use k :: entries) before after := by
  intro held known
  rcases later held known with ⟨rest, settled, left⟩
  refine ⟨rest, ?_, left⟩
  rw [List.foldlM_cons, post, if_pos (known.mem_iff.mpr member)]
  exact settled

theorem Balances.give {k : κ} {entries : List (Entry κ)} {before middle after : List κ}
    (given : before.Perm (k :: middle)) (later : Balances entries middle after) :
    Balances (.give k :: entries) before after := by
  intro held known
  have all := known.trans given
  have member : k ∈ held := all.mem_iff.mpr List.mem_cons_self
  have erased : (held.erase k).Perm middle := by
    have rest := all.erase k
    rwa [List.erase_cons_head] at rest
  rcases later (held.erase k) erased with ⟨rest, settled, left⟩
  refine ⟨rest, ?_, left⟩
  rw [List.foldlM_cons, post, if_pos member]
  exact settled

theorem Balances.append {front back : List (Entry κ)} {before middle after : List κ}
    (first : Balances front before middle) (second : Balances back middle after) :
    Balances (front ++ back) before after := by
  intro held known
  rcases first held known with ⟨between, settled, left⟩
  rcases second between left with ⟨rest, settled', left'⟩
  refine ⟨rest, ?_, left'⟩
  rw [List.foldlM_append, settled]
  exact settled'

end KongjaExpress.Custody
