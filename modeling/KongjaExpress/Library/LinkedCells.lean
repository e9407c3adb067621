import Mathlib.Tactic

/-! Cells that point to a next and a previous cell, and the circles they form: a head
and the cells behind it. -/

namespace KongjaExpress.LinkedCells

variable {α : Type}

structure Links (α : Type) where
  next : α → α
  prev : α → α

def Linked (l : Links α) (a b : α) : Prop := l.next a = b ∧ l.prev b = a

def Trail (l : Links α) : α → List α → α → Prop
  | a, [], b => Linked l a b
  | a, c :: cells, b => Linked l a c ∧ Trail l c cells b

/-- The cells behind a head, which the last of them is linked to. -/
structure Circular (l : Links α) (head : α) (cells : List α) : Prop where
  trail : Trail l head cells head
  nodup : (head :: cells).Nodup

def SameOutside (touched : List α) (l l' : Links α) : Prop :=
  ∀ a, a ∉ touched → l'.next a = l.next a ∧ l'.prev a = l.prev a

theorem trail_append {l : Links α} {a b c : α} {front back : List α} :
    Trail l a (front ++ c :: back) b ↔ Trail l a front c ∧ Trail l c back b := by
  induction front generalizing a with
  | nil => exact Iff.rfl
  | cons d front ih =>
      change Linked l a d ∧ Trail l d (front ++ c :: back) b ↔
        (Linked l a d ∧ Trail l d front c) ∧ Trail l c back b
      rw [ih, and_assoc]

/-- A trail goes by the next cells of all but its end, and the previous cells of all but
its beginning. -/
theorem Trail.frame {l l' : Links α} {a b : α} {cells : List α} (trail : Trail l a cells b)
    (next : ∀ c ∈ a :: cells, l'.next c = l.next c)
    (prev : ∀ c ∈ cells ++ [b], l'.prev c = l.prev c) : Trail l' a cells b := by
  induction cells generalizing a with
  | nil =>
      rcases trail with ⟨forth, back⟩
      constructor
      · rw [next a (by simp), forth]
      · rw [prev b (by simp), back]
  | cons c cells ih =>
      rcases trail with ⟨⟨forth, back⟩, rest⟩
      refine ⟨⟨?_, ?_⟩, ih rest ?_ ?_⟩
      · rw [next a (by simp), forth]
      · rw [prev c (by simp), back]
      · intro d member
        exact next d (List.mem_cons_of_mem a member)
      · intro d member
        exact prev d (List.mem_cons_of_mem c member)

theorem Trail.prev_eq {l : Links α} {a b : α} {cells : List α} (trail : Trail l a cells b) :
    l.prev b = (a :: cells).getLast (List.cons_ne_nil a cells) := by
  induction cells generalizing a with
  | nil => exact trail.2
  | cons c cells ih =>
      rw [List.getLast_cons (List.cons_ne_nil c cells)]
      exact ih trail.2

theorem Trail.retarget {l l' : Links α} {a b b' : α} {cells : List α} (trail : Trail l a cells b)
    (nodup : (a :: cells).Nodup)
    (next : ∀ c ∈ a :: cells, c ≠ l.prev b → l'.next c = l.next c)
    (prev : ∀ c ∈ cells, l'.prev c = l.prev c) (linked : Linked l' (l.prev b) b') :
    Trail l' a cells b' := by
  induction cells generalizing a with
  | nil =>
      obtain rfl : l.prev b = a := trail.2
      exact linked
  | cons c cells ih =>
      rcases trail with ⟨⟨forth, back⟩, rest⟩
      have other : a ≠ l.prev b := by
        rintro rfl
        apply (List.nodup_cons.mp nodup).1
        rw [rest.prev_eq]
        exact List.getLast_mem _
      refine ⟨⟨?_, ?_⟩, ih rest (List.nodup_cons.mp nodup).2 ?_ ?_⟩
      · rw [next a List.mem_cons_self other, forth]
      · rw [prev c List.mem_cons_self, back]
      · intro d member
        exact next d (List.mem_cons_of_mem a member)
      · intro d member
        exact prev d (List.mem_cons_of_mem c member)

section Circular

variable {l l' : Links α} {head : α} {cells : List α}

theorem Circular.frame {touched : List α} (circular : Circular l head cells)
    (same : SameOutside touched l l') (apart : ∀ a ∈ head :: cells, a ∉ touched) :
    Circular l' head cells := by
  refine ⟨circular.trail.frame ?_ ?_, circular.nodup⟩
  · intro c member
    exact (same c (apart c member)).1
  · intro c member
    refine (same c (apart c ?_)).2
    simpa [or_comm] using member

theorem circular_nil : Circular l head [] ↔ l.next head = head ∧ l.prev head = head :=
  ⟨fun circular => circular.trail, fun self => ⟨self, by simp⟩⟩

theorem Circular.first {c : α} (circular : Circular l head (c :: cells)) : l.next head = c :=
  circular.trail.1.1

theorem Circular.last {c : α} (circular : Circular l head (cells ++ [c])) : l.prev head = c := by
  rw [circular.trail.prev_eq]
  simp

theorem Circular.next_eq_head_iff (circular : Circular l head cells) :
    l.next head = head ↔ cells = [] := by
  cases cells with
  | nil => simpa using circular.trail.1
  | cons c cells =>
      have distinct : c ≠ head := by
        have := circular.nodup
        simp only [List.nodup_cons, List.mem_cons, not_or] at this
        exact Ne.symm this.1.1
      simpa [circular.first] using distinct

theorem Circular.prev_mem (circular : Circular l head cells) : l.prev head ∈ head :: cells := by
  rw [circular.trail.prev_eq]
  exact List.getLast_mem _

theorem Circular.neighbours {c : α} {front back : List α}
    (circular : Circular l head (front ++ c :: back)) :
    l.prev c ∈ head :: front ∧ l.next c ∈ back ++ [head] := by
  rcases trail_append.mp circular.trail with ⟨before, behind⟩
  constructor
  · rw [before.prev_eq]
    exact List.getLast_mem _
  · cases back with
    | nil => exact List.mem_singleton.mpr behind.1
    | cons d back => simp [behind.1.1]

theorem Circular.next_removed {c : α} (circular : Circular l head (c :: cells))
    (shorter : Circular l' head cells) : l.next c = l'.next head := by
  cases cells with
  | nil => exact circular.trail.2.1.trans (circular_nil.mp shorter).1.symm
  | cons d cells => exact circular.trail.2.1.1.trans shorter.first.symm

theorem Circular.unique {cells' : List α} (circular : Circular l head cells)
    (circular' : Circular l head cells') : cells = cells' := by
  have trails {a : α} {xs ys : List α} (trail : Trail l a xs head) (trail' : Trail l a ys head)
      (free : head ∉ xs) (free' : head ∉ ys) : xs = ys := by
    induction xs generalizing a ys with
    | nil =>
        cases ys with
        | nil => rfl
        | cons y ys =>
            have same : head = y := trail.1.symm.trans trail'.1.1
            exact absurd (same ▸ List.mem_cons_self) free'
    | cons x xs ih =>
        cases ys with
        | nil =>
            have same : head = x := trail'.1.symm.trans trail.1.1
            exact absurd (same ▸ List.mem_cons_self) free
        | cons y ys =>
            obtain rfl : x = y := trail.1.1.symm.trans trail'.1.1
            rw [ih trail.2 trail'.2 (fun member => free (List.mem_cons_of_mem x member))
              fun member => free' (List.mem_cons_of_mem x member)]
  exact trails circular.trail circular'.trail (List.nodup_cons.mp circular.nodup).1
    (List.nodup_cons.mp circular'.nodup).1

end Circular

section Family

variable {ι : Type} {l l' : Links α} {head : ι → α} {cells : ι → List α}

structure Family (l : Links α) (head : ι → α) (cells : ι → List α) : Prop where
  circles : ∀ i, Circular l (head i) (cells i)
  apart : ∀ i j, i ≠ j → ∀ a ∈ head i :: cells i, a ∉ head j :: cells j

/-- One circle of a family changes, and the cells it takes in were in none of the others. -/
theorem Family.update [DecidableEq ι] (family : Family l head cells) {i : ι} {new touched : List α}
    (circle : Circular l' (head i) new) (same : SameOutside touched l l')
    (inside : ∀ a ∈ touched, ∀ j, j ≠ i → a ∉ head j :: cells j)
    (taken : ∀ a ∈ new, ∀ j, j ≠ i → a ∉ head j :: cells j) :
    Family l' head (Function.update cells i new) := by
  have own (j : ι) (other : j ≠ i) (a : α) (member : a ∈ head i :: new) :
      a ∉ head j :: cells j := by
    rcases List.mem_cons.mp member with rfl | member
    · exact family.apart i j other.symm (head i) List.mem_cons_self
    · exact taken a member j other
  constructor
  · intro j
    by_cases here : j = i
    · subst here
      rwa [Function.update_self]
    · rw [Function.update_of_ne here]
      refine (family.circles j).frame same ?_
      intro a member present
      exact inside a present j here member
  · intro j k different a member
    by_cases here : j = i
    · subst here
      rw [Function.update_self] at member
      rw [Function.update_of_ne different.symm]
      exact own k different.symm a member
    · rw [Function.update_of_ne here] at member
      by_cases there : k = i
      · subst there
        rw [Function.update_self]
        intro member'
        exact own j here a member' member
      · rw [Function.update_of_ne there]
        exact family.apart j k different a member

theorem Family.remove [DecidableEq ι] (family : Family l head cells) {i : ι} {c : α}
    {front back : List α} (split : cells i = front ++ c :: back)
    (taken : Circular l' (head i) (front ++ back) ∧
      SameOutside (head i :: (front ++ c :: back)) l l') :
    Family l' head (Function.update cells i (front ++ back)) := by
  apply family.update taken.1 taken.2
  · intro a member j other
    rw [← split] at member
    exact family.apart i j other.symm a member
  · intro a member j other
    apply family.apart i j other.symm a
    rw [split]
    grind

theorem update_map {β : Type} [DecidableEq ι] (f : β → α) (things : ι → List β) (i : ι)
    (new : List β) :
    Function.update (fun j => (things j).map f) i (new.map f) =
      fun j => (Function.update things i new j).map f :=
  (Function.comp_update (List.map f) things i new).symm

end Family

section Writes

variable [DecidableEq α] (l : Links α) (cell target : α)

def Links.setNext : Links α := { l with next := Function.update l.next cell target }

def Links.setPrev : Links α := { l with prev := Function.update l.prev cell target }

@[simp] theorem next_setNext (a : α) :
    (l.setNext cell target).next a = if a = cell then target else l.next a :=
  Function.update_apply l.next cell target a

@[simp] theorem prev_setNext (a : α) : (l.setNext cell target).prev a = l.prev a := rfl

@[simp] theorem prev_setPrev (a : α) :
    (l.setPrev cell target).prev a = if a = cell then target else l.prev a :=
  Function.update_apply l.prev cell target a

@[simp] theorem next_setPrev (a : α) : (l.setPrev cell target).next a = l.next a := rfl

end Writes

end KongjaExpress.LinkedCells
