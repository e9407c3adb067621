import KongjaExpress.Utils.ListHead

/-! The request queue of `request_queue.c`. A callback is a stretch of the run: `schedule`
begins `request_accepted`, and what follows up to its return may call the queue again. -/

namespace KongjaExpress.Utils

open LinkedCells

inductive RequestCell (I : Type)
  | queue (priority : Fin 6)
  | le (item : I)
  deriving DecidableEq

/-- `request_queue_t`; `requestCancelled` says whether that callback is set, and
`accepting` counts the calls of `request_accepted` that have not returned. -/
structure RequestQueue (I : Type) where
  links : Links (RequestCell I)
  numReqs : Int32
  requestCancelled : Bool
  accepting : Nat

variable {I : Type} [DecidableEq I]

/-- `request_queue_init` on memory with arbitrary pointers; the callbacks are set by the owner. -/
def requestQueueInit (links : Links (RequestCell I)) (requestCancelled : Bool) : RequestQueue I where
  links := ((List.finRange 6).map .queue).foldl (fun l list => initListHead list l) links
  numReqs := 0
  requestCancelled := requestCancelled
  accepting := 0

/-- The priority is the one the item has when it is submitted. -/
def requestQueueSubmit (item : I) (priority : Fin 6) (q : RequestQueue I) : RequestQueue I :=
  { q with
    links := listAddTail (.le item) (.queue priority) q.links
    numReqs := q.numReqs + 1 }

/-- The loop over the priorities, up to the call of `request_accepted`. -/
def scheduleFrom (q : RequestQueue I) : List (Fin 6) → Option (Option I × RequestQueue I)
  | [] => some (none, q)
  | i :: priorities =>
      if listEmpty (.queue i) q.links then scheduleFrom q priorities
      else
        match q.links.next (.queue i) with
        | .le item => some (some item, { q with
            links := listDelInit (.le item) q.links
            accepting := q.accepting + 1 })
        -- no list is linked to another's head
        | .queue _ => none

def requestQueueSchedule (q : RequestQueue I) : Option (Option I × RequestQueue I) :=
  scheduleFrom q (List.finRange 6)

/-- What `request_queue_schedule` does when `request_accepted` returns. -/
def requestAccepted (q : RequestQueue I) : RequestQueue I :=
  { q with numReqs := q.numReqs - 1, accepting := q.accepting - 1 }

/-- `list_for_each_entry_safe` with the body of `reqiest_queue_reset`, and the calls of
`request_cancelled`; `none` when the loop did not end in `fuel` rounds. -/
def cancelFrom (head : RequestCell I) :
    Nat → RequestCell I → RequestCell I → RequestQueue I → Option (List I × RequestQueue I)
  | 0, _, _, _ => none
  | fuel + 1, p, n, q =>
      if p = head then some ([], q)
      else
        match p with
        | .le item => do
            let q := { q with links := listDelInit p q.links, numReqs := q.numReqs - 1 }
            let (items, q) ← cancelFrom head fuel n (q.links.next n) q
            some (if q.requestCancelled then item :: items else items, q)
        | .queue _ => none

def resetFrom (fuel : Nat) : List (Fin 6) → RequestQueue I → Option (List I × RequestQueue I)
  | [], q => some ([], q)
  | i :: priorities, q => do
      let p := q.links.next (.queue i)
      let (items, q) ← cancelFrom (.queue i) fuel p (q.links.next p) q
      let (later, q) ← resetFrom fuel priorities q
      some (items ++ later, q)

def reqiestQueueReset (fuel : Nat) (q : RequestQueue I) : Option (List I × RequestQueue I) :=
  resetFrom fuel (List.finRange 6) q

section Lists

variable {q : RequestQueue I} {items : Fin 6 → List I}

abbrev Lists (q : RequestQueue I) (items : Fin 6 → List I) : Prop :=
  Family q.links .queue fun i => (items i).map .le

theorem requestQueueInit_lists (links : Links (RequestCell I)) (requestCancelled : Bool) :
    Lists (requestQueueInit links requestCancelled) fun _ => [] := by
  constructor
  · intro i
    exact initListHeads_circular links (List.mem_map_of_mem (List.mem_finRange i))
  · intro i j different a member
    simpa [List.mem_singleton.mp member] using different

theorem submit_lists (lists : Lists q items) {item : I} (fresh : ∀ i, item ∉ items i)
    (priority : Fin 6) :
    Lists (requestQueueSubmit item priority q)
      (Function.update items priority (items priority ++ [item])) := by
  have apart (i : Fin 6) : RequestCell.le item ∉ RequestCell.queue i :: (items i).map .le := by
    simp [fresh i]
  have added := listAddTail_family lists priority apart
  rwa [← List.map_singleton, ← List.map_append, update_map] at added

theorem scheduleFrom_eq (lists : Lists q items) (priorities : List (Fin 6)) :
    scheduleFrom q priorities = some (match priorities.findSome? fun i => (items i).head? with
      | none => (none, q)
      | some item => (some item, { q with
          links := listDelInit (.le item) q.links
          accepting := q.accepting + 1 })) := by
  induction priorities with
  | nil => rfl
  | cons i priorities ih =>
      have circle := lists.circles i
      rw [scheduleFrom]
      rcases here : items i with _ | ⟨item, rest⟩
      · have empty := (listEmpty_iff circle).mpr (by simp [here])
        rw [if_pos empty, ih, List.findSome?_cons, here]
        rfl
      · simp only [here, List.map_cons] at circle
        have full : ¬ listEmpty (.queue i) q.links = true := by simp [listEmpty_iff circle]
        rw [if_neg full, circle.first, List.findSome?_cons, here]
        rfl

theorem accept_lists (lists : Lists q items) {i : Fin 6} {item : I} {rest : List I}
    (first : items i = item :: rest) :
    Family (listDelInit (.le item) q.links) .queue
      fun j => (Function.update items i rest j).map RequestCell.le := by
  have circle := lists.circles i
  simp only [first, List.map_cons] at circle
  rw [← update_map]
  have split : (items i).map RequestCell.le = [] ++ .le item :: rest.map .le := by
    rw [first, List.map_cons, List.nil_append]
  exact lists.remove split ⟨listDelInit_circular circle, listDelInit_outside circle⟩

theorem cancelFrom_end (head n : RequestCell I) (fuel : Nat) (q : RequestQueue I) :
    cancelFrom head (fuel + 1) head n q = some ([], q) := by
  cases head <;> simp [cancelFrom]

theorem cancelFrom_item {head : RequestCell I} {item : I} (other : .le item ≠ head)
    (n : RequestCell I) (fuel : Nat) {links : Links (RequestCell I)} {later : List I}
    {last : RequestQueue I} (deleted : listDelInit (.le item) q.links = links)
    (rest : cancelFrom head fuel n (links.next n)
      { q with links := links, numReqs := q.numReqs - 1 } = some (later, last)) :
    cancelFrom head (fuel + 1) (.le item) n q =
      some (if last.requestCancelled then item :: later else later, last) := by
  subst deleted
  rw [cancelFrom, if_neg other]
  simp [rest]

theorem cancelFrom_eq {list : List I} {head : RequestCell I} {fuel : Nat}
    (circle : Circular q.links head (list.map .le)) (enough : list.length < fuel) :
    ∃ links, cancelFrom head fuel (q.links.next head) (q.links.next (q.links.next head)) q =
        some (if q.requestCancelled then list else [],
          { q with links := links, numReqs := q.numReqs - Int32.ofNat list.length }) ∧
      Circular links head [] ∧ SameOutside (head :: list.map .le) q.links links := by
  induction list generalizing q fuel with
  | nil =>
      obtain ⟨fuel, rfl⟩ := Nat.exists_eq_succ_of_ne_zero (Nat.ne_of_gt enough)
      refine ⟨q.links, ?_, circle, fun _ _ => ⟨rfl, rfl⟩⟩
      rw [(circular_nil.mp circle).1, cancelFrom_end]
      simp
  | cons item list ih =>
      obtain ⟨fuel, rfl⟩ := Nat.exists_eq_succ_of_ne_zero (Nat.ne_of_gt (Nat.zero_lt_of_lt enough))
      rw [List.map_cons] at circle
      have shorter := listDelInit_circular circle
      have outside := listDelInit_outside circle
      have other : RequestCell.le item ≠ head := by
        have nodup := circle.nodup
        grind
      rcases @ih { q with
          links := listDelInit (.le item) q.links, numReqs := q.numReqs - 1 } fuel shorter
          (Nat.lt_of_succ_lt_succ enough) with ⟨links, ran, empty, same⟩
      refine ⟨links, ?_, empty, ?_⟩
      · rw [circle.first, circle.next_removed shorter, cancelFrom_item other _ _ rfl ran]
        have counted : q.numReqs - 1 - Int32.ofNat list.length =
            q.numReqs - Int32.ofNat (item :: list).length := by
          rw [List.length_cons, Int32.ofNat_add]
          grind
        simp only [counted]
        cases q.requestCancelled <;> rfl
      · intro a apart
        have first := outside a apart
        have second := same a (by grind)
        exact ⟨second.1.trans first.1, second.2.trans first.2⟩

theorem cancel_lists (lists : Lists q items) (i : Fin 6) {fuel : Nat}
    (enough : (items i).length < fuel) :
    ∃ links, cancelFrom (.queue i) fuel (q.links.next (.queue i))
          (q.links.next (q.links.next (.queue i))) q =
        some (if q.requestCancelled then items i else [],
          { q with links := links, numReqs := q.numReqs - Int32.ofNat (items i).length }) ∧
      Family links .queue fun j => (Function.update items i [] j).map RequestCell.le := by
  rcases cancelFrom_eq (lists.circles i) enough with ⟨links, ran, empty, same⟩
  refine ⟨links, ran, ?_⟩
  rw [← update_map, List.map_nil]
  apply lists.update empty same
  · intro a member j other
    exact lists.apart i j other.symm a member
  · intro a member
    simp at member

theorem resetFrom_eq {fuel : Nat} {priorities : List (Fin 6)} (lists : Lists q items)
    (enough : ∀ i, (items i).length < fuel) (nodup : priorities.Nodup) :
    ∃ links, resetFrom fuel priorities q =
        some (if q.requestCancelled then priorities.flatMap items else [],
          { q with
            links := links
            numReqs := q.numReqs - Int32.ofNat (priorities.flatMap items).length }) ∧
      Family links .queue fun i => (if i ∈ priorities then [] else items i).map RequestCell.le := by
  induction priorities generalizing q items with
  | nil =>
      refine ⟨q.links, ?_, by simpa using lists⟩
      simp [resetFrom]
  | cons i priorities ih =>
      rcases List.nodup_cons.mp nodup with ⟨fresh, nodup⟩
      rcases cancel_lists lists i (enough i) with ⟨links, cancelled, emptied⟩
      have shorter (j : Fin 6) : (Function.update items i [] j).length < fuel := by
        by_cases here : j = i
        · subst here
          rw [Function.update_self, List.length_nil]
          exact Nat.zero_lt_of_lt (enough j)
        · rw [Function.update_of_ne here]
          exact enough j
      have later : priorities.flatMap (Function.update items i []) = priorities.flatMap items := by
        apply List.flatMap_congr
        intro j member
        have other : j ≠ i := fun same => fresh (same ▸ member)
        rw [Function.update_of_ne other]
      rcases @ih { q with
        links := links, numReqs := q.numReqs - Int32.ofNat (items i).length } _ emptied shorter
        nodup with ⟨last, ran, family⟩
      rw [later] at ran
      have counted : q.numReqs - Int32.ofNat (items i).length -
          Int32.ofNat (priorities.flatMap items).length =
            q.numReqs - Int32.ofNat ((i :: priorities).flatMap items).length := by
        rw [List.flatMap_cons, List.length_append, Int32.ofNat_add]
        grind
      refine ⟨last, ?_, ?_⟩
      · rw [resetFrom, cancelled]
        simp only [Option.bind_eq_bind, Option.bind_some, ran, counted, List.flatMap_cons]
        cases q.requestCancelled <;> rfl
      · have same (j : Fin 6) : (if j ∈ i :: priorities then [] else items j) =
            if j ∈ priorities then [] else Function.update items i [] j := by
          by_cases here : j = i
          · simp [here]
          · simp [here]
        simpa only [same] using family

end Lists

end KongjaExpress.Utils
