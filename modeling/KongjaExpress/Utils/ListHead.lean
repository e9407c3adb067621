import KongjaExpress.Library.LinkedCells

/-! The list operations of `list.h` that queues and pools are built from. -/

namespace KongjaExpress.Utils

open LinkedCells

variable {α : Type} [DecidableEq α]

def initListHead (list : α) (l : Links α) : Links α := (l.setNext list list).setPrev list list

/-- `__list_add`. -/
def listAddBetween (new prev next : α) (l : Links α) : Links α :=
  (((l.setPrev next new).setNext new next).setPrev new prev).setNext prev new

def listAddTail (new head : α) (l : Links α) : Links α :=
  listAddBetween new (l.prev head) head l

/-- `__list_del`. -/
def listDelBetween (prev next : α) (l : Links α) : Links α :=
  (l.setPrev next prev).setNext prev next

def listDelEntry (entry : α) (l : Links α) : Links α :=
  listDelBetween (l.prev entry) (l.next entry) l

/-- `list_del`, which leaves null pointers in the entry. -/
def listDel (null entry : α) (l : Links α) : Links α :=
  ((listDelEntry entry l).setNext entry null).setPrev entry null

def listDelInit (entry : α) (l : Links α) : Links α := initListHead entry (listDelEntry entry l)

def listEmpty (head : α) (l : Links α) : Bool := l.next head = head

def listIsSingular (head : α) (l : Links α) : Bool :=
  !listEmpty head l && l.next head = l.prev head

/-- `__list_cut_position`. -/
def listCut (list head entry : α) (l : Links α) : Links α :=
  let newFirst := l.next entry
  let l := l.setNext list (l.next head)
  let l := l.setPrev (l.next list) list
  let l := l.setPrev list entry
  let l := l.setNext entry list
  let l := l.setNext head newFirst
  l.setPrev newFirst head

def listCutPosition (list head entry : α) (l : Links α) : Links α :=
  if listEmpty head l then l
  else if listIsSingular head l && (l.next head ≠ entry && head ≠ entry) then l
  else if entry = head then initListHead list l
  else listCut list head entry l

theorem initListHead_circular (list : α) (l : Links α) : Circular (initListHead list l) list [] := by
  rw [circular_nil]
  simp [initListHead]

theorem initListHead_outside (list : α) (l : Links α) :
    SameOutside [list] l (initListHead list l) := by
  intro a outside
  rw [List.mem_singleton] at outside
  simp [initListHead, outside]

section Circular

variable {l : Links α} {head : α} {cells : List α}

theorem listEmpty_iff (circular : Circular l head cells) :
    listEmpty head l = true ↔ cells = [] := by
  rw [listEmpty, decide_eq_true_eq]
  exact circular.next_eq_head_iff

theorem listAddTail_circular (circular : Circular l head cells) {new : α}
    (fresh : new ∉ head :: cells) :
    Circular (listAddTail new head l) head (cells ++ [new]) := by
  have nodup : (head :: (cells ++ [new])).Nodup := by
    rw [← List.cons_append, List.nodup_append]
    refine ⟨circular.nodup, by simp, ?_⟩
    intro a member b last
    rw [List.mem_singleton.mp last]
    exact fun same => fresh (same ▸ member)
  refine ⟨?_, nodup⟩
  rcases List.eq_nil_or_concat cells with rfl | ⟨front, c, rfl⟩
  · have self := circular_nil.mp circular
    have apart : new ≠ head := by simpa using fresh
    rw [List.nil_append]
    simp [Trail, Linked, listAddTail, listAddBetween, self.2, apart, apart.symm]
  · rw [List.concat_eq_append] at *
    have trail := trail_append.mp circular.trail
    have last : l.prev head = c := Circular.last circular
    rw [List.append_assoc, List.singleton_append, trail_append]
    simp only [List.nodup_cons, List.nodup_append, List.mem_append, List.mem_cons] at nodup
    refine ⟨trail.1.frame ?_ ?_, ?_⟩
    · intro d member
      have other : d ≠ c ∧ d ≠ new := by grind
      simp [listAddTail, listAddBetween, last, other]
    · intro d member
      have other : d ≠ head ∧ d ≠ new := by grind
      simp [listAddTail, listAddBetween, last, other]
    · have other : head ≠ new ∧ new ≠ c := by grind
      simp [Trail, Linked, listAddTail, listAddBetween, last, other]

theorem listAddTail_outside (circular : Circular l head cells) (new : α) :
    SameOutside (new :: head :: cells) l (listAddTail new head l) := by
  intro a outside
  have last := circular.prev_mem
  have other : a ≠ new ∧ a ≠ head ∧ a ≠ l.prev head := by grind
  simp [listAddTail, listAddBetween, other]

/-- The neighbours of an entry, wherever it stands, are linked to each other. -/
theorem listDelEntry_circular {c : α} {front back : List α}
    (circular : Circular l head (front ++ c :: back)) :
    Circular (listDelEntry c l) head (front ++ back) := by
  have nodup := circular.nodup
  rcases trail_append.mp circular.trail with ⟨before, behind⟩
  rcases circular.neighbours with ⟨last, first⟩
  have retargeted : Trail (listDelEntry c l) head front (l.next c) := by
    refine before.retarget (by grind) ?_ ?_ ?_
    · intro d _ other
      simp [listDelEntry, listDelBetween, other]
    · intro d member
      have other : d ≠ l.next c := by grind
      simp [listDelEntry, listDelBetween, other]
    · simp [Linked, listDelEntry, listDelBetween]
  refine ⟨?_, by grind⟩
  cases back with
  | nil =>
      have next : l.next c = head := behind.1
      rw [next] at retargeted
      rwa [List.append_nil]
  | cons d back =>
      have next : l.next c = d := behind.1.1
      rw [next] at retargeted
      refine trail_append.mpr ⟨retargeted, behind.2.frame ?_ ?_⟩
      · intro e member
        have other : e ≠ l.prev c := by grind
        simp [listDelEntry, listDelBetween, other]
      · intro e member
        have other : e ≠ d := by grind
        simp [listDelEntry, listDelBetween, next, other]

theorem listDelEntry_outside {c : α} {front back : List α}
    (circular : Circular l head (front ++ c :: back)) :
    SameOutside (head :: (front ++ back)) l (listDelEntry c l) := by
  rcases circular.neighbours with ⟨last, first⟩
  intro a outside
  have other : a ≠ l.prev c ∧ a ≠ l.next c := by grind
  simp [listDelEntry, listDelBetween, other]

/-- An entry that is taken out may be written as its owner likes. -/
theorem taken_out {c : α} {front back : List α} {l' : Links α}
    (circular : Circular l head (front ++ c :: back))
    (written : SameOutside [c] (listDelEntry c l) l') :
    Circular l' head (front ++ back) ∧ SameOutside (head :: (front ++ c :: back)) l l' := by
  have nodup := circular.nodup
  constructor
  · refine (listDelEntry_circular circular).frame written ?_
    intro a member
    grind
  · intro a outside
    have same := listDelEntry_outside circular a (by grind)
    have same' := written a (by grind)
    exact ⟨same'.1.trans same.1, same'.2.trans same.2⟩

theorem listDel_taken_out {c : α} {front back : List α} (null : α)
    (circular : Circular l head (front ++ c :: back)) :
    Circular (listDel null c l) head (front ++ back) ∧
      SameOutside (head :: (front ++ c :: back)) l (listDel null c l) := by
  apply taken_out circular
  intro a outside
  rw [List.mem_singleton] at outside
  simp [listDel, outside]

theorem listDelInit_circular {c : α} (circular : Circular l head (c :: cells)) :
    Circular (listDelInit c l) head cells :=
  (@taken_out _ _ _ _ _ [] _ _ circular (initListHead_outside c _)).1

theorem listDelInit_outside {c : α} (circular : Circular l head (c :: cells)) :
    SameOutside (head :: c :: cells) l (listDelInit c l) :=
  (@taken_out _ _ _ _ _ [] _ _ circular (initListHead_outside c _)).2

end Circular

section Family

variable {ι : Type} [DecidableEq ι] {l : Links α} {head : ι → α} {cells : ι → List α}

theorem initListHeads_circular {heads : List α} {a : α} (l : Links α) (member : a ∈ heads) :
    Circular (heads.foldl (fun l list => initListHead list l) l) a [] := by
  induction heads using List.reverseRecOn with
  | nil => simp at member
  | append_singleton heads last ih =>
      rw [List.foldl_append, List.foldl_cons, List.foldl_nil]
      by_cases here : a = last
      · subst here
        exact initListHead_circular _ _
      · have earlier : a ∈ heads := by simpa [here] using member
        apply (ih earlier).frame (initListHead_outside _ _)
        simp [here]

theorem listAddTail_family (family : Family l head cells) {new : α} (i : ι)
    (fresh : ∀ j, new ∉ head j :: cells j) :
    Family (listAddTail new (head i) l) head (Function.update cells i (cells i ++ [new])) := by
  have circle := family.circles i
  have within (a : α) (member : a ∈ new :: head i :: cells i) (j : ι) (other : j ≠ i) :
      a ∉ head j :: cells j := by
    rcases List.mem_cons.mp member with rfl | member
    · exact fresh j
    · exact family.apart i j other.symm a member
  apply family.update (listAddTail_circular circle (fresh i)) (listAddTail_outside circle new) within
  intro a member
  apply within a
  simp only [List.mem_append, List.mem_singleton] at member
  rcases member with member | rfl
  · exact List.mem_cons_of_mem _ (List.mem_cons_of_mem _ member)
  · exact List.mem_cons_self

end Family

section Circular

variable {l : Links α} {head : α} {cells : List α}

theorem listCutPosition_last {list c : α} {front : List α}
    (circular : Circular l head (front ++ [c])) :
    listCutPosition list head (l.prev head) l = listCut list head c l := by
  have last : l.prev head = c := circular.last
  have full : ¬ listEmpty head l = true := by simp [listEmpty_iff circular]
  have other : c ≠ head := by
    have := circular.nodup
    grind
  have whole : ¬ (listIsSingular head l && (l.next head ≠ c && head ≠ c)) = true := by
    simp only [listIsSingular, last]
    grind
  rw [listCutPosition, if_neg full, last, if_neg whole, if_neg other]

theorem listCut_trail {list c : α} {front : List α} (circular : Circular l head (front ++ [c]))
    (apart : list ∉ head :: (front ++ [c])) :
    Trail (listCut list head c l) list (front ++ [c]) list := by
  have nodup := circular.nodup
  have split := trail_append.mp circular.trail
  have next : l.next c = head := split.2.1
  rw [trail_append]
  cases front with
  | nil =>
      have first : l.next head = c := circular.first
      have other : c ≠ head ∧ c ≠ list ∧ list ≠ head := by grind
      simp [Trail, Linked, listCut, first, next, other, other.2.1.symm]
  | cons d front =>
      have first : l.next head = d := circular.first
      have other : d ≠ head ∧ d ≠ list ∧ d ≠ c ∧ c ≠ head ∧ c ≠ list ∧ list ≠ head := by grind
      refine ⟨⟨?_, split.1.2.frame ?_ ?_⟩, ?_⟩
      · simp [Linked, listCut, first, next, other, other.2.2.2.2.1.symm]
      · intro e member
        have outside : e ≠ head ∧ e ≠ list ∧ e ≠ c := by grind
        simp [listCut, first, next, outside]
      · intro e member
        have outside : e ≠ head ∧ e ≠ list ∧ e ≠ d := by grind
        simp [listCut, first, next, outside]
      · simp [Trail, Linked, listCut, first, next, other]

theorem listCutPosition_circular {list : α} (circular : Circular l head cells)
    (empty : Circular l list []) (apart : list ∉ head :: cells) :
    Circular (listCutPosition list head (l.prev head) l) head [] ∧
      Circular (listCutPosition list head (l.prev head) l) list cells := by
  rcases List.eq_nil_or_concat cells with rfl | ⟨front, c, rfl⟩
  · have none := (listEmpty_iff circular).mpr rfl
    rw [listCutPosition, if_pos none]
    exact ⟨circular, empty⟩
  · rw [List.concat_eq_append] at *
    rw [listCutPosition_last circular]
    have nodup := circular.nodup
    have next : l.next c = head := (trail_append.mp circular.trail).2.1
    constructor
    · rw [circular_nil]
      simp [listCut, next]
    · exact ⟨listCut_trail circular apart, by grind⟩

end Circular

end KongjaExpress.Utils
