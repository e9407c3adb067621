import KongjaExpress.Library.Automaton
import KongjaExpress.Utils.RequestQueue

/-! The request queue beside a book of what was submitted, and where every
submission went. -/

namespace KongjaExpress.Utils

open LinkedCells

/-- A call, or the return of a call of `request_accepted`. -/
inductive RequestCall (I : Type)
  | submit (item : I) (priority : Fin 6)
  | schedule
  | acceptedReturns
  | reset
  deriving DecidableEq

inductive RequestReply (I : Type)
  | submitted
  | accepted (item : Option I)
  | returned
  | cancelled (items : List I)
  deriving DecidableEq, Repr

/-- One submission of an item; its serial is the number of submissions before it. -/
structure Request (I : Type) where
  item : I
  priority : Fin 6
  serial : Nat
  deriving DecidableEq, Repr

/-- The submissions in their order, and those that are queued, in that order too. -/
structure RequestBook (I : Type) where
  submitted : List (Request I)
  pending : List (Request I)
  accepted : List (Request I)
  cancelled : List (Request I)
  accepting : Nat
  deriving DecidableEq, Repr

def RequestBook.empty (I : Type) : RequestBook I := ⟨[], [], [], [], 0⟩

variable {I : Type}

def RequestBook.ofPriority (book : RequestBook I) (i : Fin 6) : List (Request I) :=
  book.pending.filter fun request => request.priority = i

def RequestBook.items (book : RequestBook I) (i : Fin 6) : List I :=
  (book.ofPriority i).map Request.item

def RequestBook.inOrder (book : RequestBook I) : List (Request I) :=
  (List.finRange 6).flatMap book.ofPriority

def RequestBook.nextUp (book : RequestBook I) : Option (Request I) :=
  (List.finRange 6).findSome? fun i => (book.ofPriority i).head?

theorem flatMap_filter_perm {α ι : Type} [DecidableEq ι] (f : α → ι) {list : List α}
    {values : List ι} (nodup : values.Nodup) (all : ∀ a ∈ list, f a ∈ values) :
    (values.flatMap fun i => list.filter fun a => f a = i).Perm list := by
  induction values generalizing list with
  | nil =>
      cases list with
      | nil => exact List.Perm.refl _
      | cons a list => exact absurd (all a List.mem_cons_self) List.not_mem_nil
  | cons i values ih =>
      rcases List.nodup_cons.mp nodup with ⟨fresh, nodup⟩
      have others : values.flatMap (fun j => list.filter fun a => f a = j) =
          values.flatMap fun j => (list.filter fun a => !decide (f a = i)).filter fun a => f a = j := by
        apply List.flatMap_congr
        intro j member
        rw [List.filter_filter]
        apply List.filter_congr
        intro a _
        have other : j ≠ i := fun same => fresh (same ▸ member)
        by_cases here : f a = j
        · simp [here, other]
        · simp [here]
      have rest := @ih (list.filter fun a => !decide (f a = i)) nodup (by
        intro a member
        have := all a (List.mem_of_mem_filter member)
        grind)
      rw [List.flatMap_cons, others]
      exact (rest.append_left _).trans (List.filter_append_perm _ list)

theorem inOrder_perm (book : RequestBook I) : book.inOrder.Perm book.pending :=
  flatMap_filter_perm Request.priority (List.nodup_finRange 6) fun _ _ => List.mem_finRange _

theorem items_length (book : RequestBook I) :
    ((List.finRange 6).flatMap book.items).length = book.pending.length := by
  have mapped : (List.finRange 6).flatMap book.items = book.inOrder.map Request.item := by
    rw [RequestBook.inOrder, List.map_flatMap]
    rfl
  rw [mapped, List.length_map, (inOrder_perm book).length_eq]

theorem nextUp_some {book : RequestBook I} {request : Request I}
    (next : book.nextUp = some request) :
    (∃ rest, book.ofPriority request.priority = request :: rest) ∧
      ∀ other ∈ book.pending, request.priority ≤ other.priority := by
  rcases List.findSome?_eq_some_iff.mp next with ⟨front, i, back, split, head, before⟩
  rcases List.head?_eq_some_iff.mp head with ⟨rest, first⟩
  have here : request.priority = i := by
    have member : request ∈ book.ofPriority i := by simp [first]
    simpa using (List.mem_filter.mp member).2
  refine ⟨⟨rest, by rw [here, first]⟩, ?_⟩
  intro other member
  rw [here]
  by_contra below
  have earlier : other.priority ∈ front := by
    have listed : other.priority ∈ front ++ i :: back := split ▸ List.mem_finRange other.priority
    have ordered : (front ++ i :: back).Pairwise (· < ·) := split ▸ List.pairwise_lt_finRange 6
    rcases List.mem_append.mp listed with early | late
    · exact early
    · have above := (List.pairwise_cons.mp (List.pairwise_append.mp ordered).2.1).1
      rcases List.mem_cons.mp late with same | late
      · exact absurd (le_of_eq same.symm) below
      · exact absurd (le_of_lt (above _ late)) below
  have none := before _ earlier
  rw [List.head?_eq_none_iff] at none
  have present : other ∈ book.ofPriority other.priority := by
    simp [RequestBook.ofPriority, member]
  simp [none] at present

theorem nextUp_mem {book : RequestBook I} {request : Request I}
    (next : book.nextUp = some request) : request ∈ book.pending := by
  rcases nextUp_some next with ⟨⟨rest, first⟩, -⟩
  have inside : request ∈ book.ofPriority request.priority := by simp [first]
  exact List.mem_of_mem_filter inside

theorem nextUp_none {book : RequestBook I} (none : book.nextUp = none) : book.pending = [] := by
  apply List.eq_nil_iff_forall_not_mem.mpr
  intro request member
  have empty := List.findSome?_eq_none_iff.mp none request.priority (List.mem_finRange _)
  rw [List.head?_eq_none_iff] at empty
  have present : request ∈ book.ofPriority request.priority := by
    simp [RequestBook.ofPriority, member]
  simp [empty] at present

variable [DecidableEq I]

def requestCall (fuel : Nat) (q : RequestQueue I) :
    RequestCall I → Option (RequestReply I × RequestQueue I)
  | .submit item priority => some (.submitted, requestQueueSubmit item priority q)
  | .schedule => (requestQueueSchedule q).map fun (item, q) => (.accepted item, q)
  | .acceptedReturns => if q.accepting = 0 then none else some (.returned, requestAccepted q)
  | .reset => (reqiestQueueReset fuel q).map fun (items, q) => (.cancelled items, q)

/-- The calls on the book. Only an item that is not queued may be submitted, and a
cancelled item is reported where there is a callback for it. -/
def bookCall (reports : Bool) (book : RequestBook I) :
    RequestCall I → Option (RequestReply I × RequestBook I)
  | .submit item priority =>
      if ∃ request ∈ book.pending, request.item = item then none
      else
        let request : Request I := ⟨item, priority, book.submitted.length⟩
        some (.submitted, { book with
          submitted := book.submitted ++ [request]
          pending := book.pending ++ [request] })
  | .schedule =>
      match book.nextUp with
      | none => some (.accepted none, book)
      | some request => some (.accepted (some request.item), { book with
          pending := book.pending.erase request
          accepted := book.accepted ++ [request]
          accepting := book.accepting + 1 })
  | .acceptedReturns =>
      if book.accepting = 0 then none
      else some (.returned, { book with accepting := book.accepting - 1 })
  | .reset => some (.cancelled (if reports then (List.finRange 6).flatMap book.items else []), { book with
      pending := []
      cancelled := book.cancelled ++ book.inOrder })

/-- The lists are the queued requests of each priority, and the counter has those and
the ones that are being accepted. -/
structure KeepsBook (reports : Bool) (q : RequestQueue I) (book : RequestBook I) : Prop where
  lists : Lists q book.items
  numReqs : q.numReqs = Int32.ofNat (book.pending.length + book.accepting)
  accepting : q.accepting = book.accepting
  reports : q.requestCancelled = reports

section KeepsBook

variable {reports : Bool} {q : RequestQueue I} {book : RequestBook I}

theorem keeps_submit (keeps : KeepsBook reports q book) {request : Request I}
    (fresh : ¬ ∃ other ∈ book.pending, other.item = request.item) :
    KeepsBook reports (requestQueueSubmit request.item request.priority q) { book with
      submitted := book.submitted ++ [request]
      pending := book.pending ++ [request] } := by
  have absent (i : Fin 6) : request.item ∉ book.items i := by
    intro member
    rcases List.mem_map.mp member with ⟨other, inside, same⟩
    exact fresh ⟨other, List.mem_of_mem_filter inside, same⟩
  refine ⟨?_, ?_, keeps.accepting, keeps.reports⟩
  · have added := submit_lists keeps.lists absent request.priority
    have same : Function.update book.items request.priority
        (book.items request.priority ++ [request.item]) =
          RequestBook.items { book with
            submitted := book.submitted ++ [request]
            pending := book.pending ++ [request] } := by
      funext i
      by_cases here : i = request.priority
      · subst here
        simp [RequestBook.items, RequestBook.ofPriority]
      · simp [RequestBook.items, RequestBook.ofPriority, here, Ne.symm here]
    rwa [same] at added
  · simp only [requestQueueSubmit, keeps.numReqs, List.length_append, List.length_singleton,
      Int32.ofNat_add]
    grind

theorem keeps_schedule (keeps : KeepsBook reports q book) {request : Request I}
    (next : book.nextUp = some request) :
    KeepsBook reports { q with
        links := listDelInit (.le request.item) q.links
        accepting := q.accepting + 1 } { book with
      pending := book.pending.erase request
      accepted := book.accepted ++ [request]
      accepting := book.accepting + 1 } := by
  rcases nextUp_some next with ⟨⟨rest, first⟩, -⟩
  have member := nextUp_mem next
  refine ⟨?_, ?_, by simp only [keeps.accepting], keeps.reports⟩
  · have front : book.items request.priority = request.item :: rest.map Request.item := by
      rw [RequestBook.items, first, List.map_cons]
    have removed := accept_lists keeps.lists front
    have same : Function.update book.items request.priority (rest.map Request.item) =
        RequestBook.items { book with
          pending := book.pending.erase request
          accepted := book.accepted ++ [request]
          accepting := book.accepting + 1 } := by
      funext i
      by_cases here : i = request.priority
      · subst here
        have erased : (book.ofPriority request.priority).erase request = rest := by
          rw [first, List.erase_cons_head]
        rw [Function.update_self, ← erased, RequestBook.items, RequestBook.ofPriority,
          RequestBook.ofPriority, List.erase_filter]
      · have absent : request ∉ book.ofPriority i := by
          intro inside
          have same : request.priority = i := by simpa using (List.mem_filter.mp inside).2
          exact here same.symm
        rw [Function.update_of_ne here, RequestBook.items, RequestBook.items,
          ← List.erase_of_not_mem absent, RequestBook.ofPriority, RequestBook.ofPriority,
          List.erase_filter]
    rwa [same] at removed
  · simp only [keeps.numReqs, List.length_erase_of_mem member]
    have positive := List.length_pos_of_mem member
    congr 1
    omega

theorem keeps_reset (keeps : KeepsBook reports q book) {fuel : Nat}
    (enough : book.pending.length < fuel) :
    ∃ next, reqiestQueueReset fuel q =
        some (if reports then (List.finRange 6).flatMap book.items else [], next) ∧
      KeepsBook reports next { book with
        pending := []
        cancelled := book.cancelled ++ book.inOrder } := by
  have short (i : Fin 6) : (book.items i).length < fuel := by
    have := List.length_filter_le (fun request => request.priority = i) book.pending
    rw [RequestBook.items, List.length_map, RequestBook.ofPriority]
    omega
  rcases resetFrom_eq keeps.lists short (List.nodup_finRange 6) with ⟨links, ran, emptied⟩
  refine ⟨{ q with
    links := links
    numReqs := q.numReqs - Int32.ofNat ((List.finRange 6).flatMap book.items).length },
    ?_, ?_, ?_, keeps.accepting, keeps.reports⟩
  · rw [reqiestQueueReset, ran, keeps.reports]
  · simp only [List.mem_finRange, if_true, List.map_nil] at emptied
    exact emptied
  · simp only [keeps.numReqs, items_length, List.length_nil, Nat.zero_add, Int32.ofNat_add]
    grind

end KeepsBook

theorem request_follows (reports : Bool) (fuel : Nat) :
    Automaton.Follows (@requestCall I _ fuel) (bookCall reports)
      fun left q book => KeepsBook reports q book ∧ book.pending.length + left < fuel := by
  rintro left q book call reply book' ⟨keeps, room⟩ specified
  cases call with
  | submit item priority =>
      rw [bookCall] at specified
      split at specified
      · contradiction
      · rename_i fresh
        obtain ⟨rfl, rfl⟩ := Prod.mk.inj (Option.some.inj specified)
        refine ⟨_, rfl, @keeps_submit _ _ _ _ _ keeps ⟨item, priority, _⟩ fresh, ?_⟩
        simp only [List.length_append, List.length_singleton]
        omega
  | schedule =>
      have scheduled := scheduleFrom_eq keeps.lists (List.finRange 6)
      have head : ((List.finRange 6).findSome? fun i => (book.items i).head?) =
          book.nextUp.map Request.item := by
        rw [RequestBook.nextUp, List.map_findSome?]
        congr 1
        funext i
        exact List.head?_map
      rw [head] at scheduled
      rw [bookCall] at specified
      rcases next : book.nextUp with _ | request
      · simp only [next, Option.map_none] at scheduled specified
        obtain ⟨rfl, rfl⟩ := Prod.mk.inj (Option.some.inj specified)
        refine ⟨q, ?_, keeps, by omega⟩
        rw [requestCall, requestQueueSchedule, scheduled, Option.map_some]
      · simp only [next, Option.map_some] at scheduled specified
        obtain ⟨rfl, rfl⟩ := Prod.mk.inj (Option.some.inj specified)
        refine ⟨_, ?_, keeps_schedule keeps next, ?_⟩
        · rw [requestCall, requestQueueSchedule, scheduled, Option.map_some]
        · have shorter : (book.pending.erase request).length ≤ book.pending.length :=
            List.length_erase_le
          simp only
          omega
  | acceptedReturns =>
      rw [bookCall] at specified
      split at specified
      · contradiction
      · rename_i running
        obtain ⟨rfl, rfl⟩ := Prod.mk.inj (Option.some.inj specified)
        refine ⟨requestAccepted q, ?_, ⟨keeps.lists, ?_, ?_, keeps.reports⟩, by simp only; omega⟩
        · rw [requestCall, if_neg (by rw [keeps.accepting]; exact running)]
        · obtain ⟨depth, deeper⟩ := Nat.exists_eq_succ_of_ne_zero running
          simp only [requestAccepted, keeps.numReqs, deeper, Nat.succ_eq_add_one,
            Nat.add_sub_cancel, Int32.ofNat_add]
          grind
        · simp only [requestAccepted, keeps.accepting]
  | reset =>
      obtain ⟨rfl, rfl⟩ := Prod.mk.inj (Option.some.inj specified)
      rcases keeps_reset keeps (show book.pending.length < fuel by omega) with ⟨next, ran, kept⟩
      refine ⟨next, ?_, kept, ?_⟩
      · rw [requestCall, ran, Option.map_some]
      · simp only [List.length_nil]
        omega

structure Kept (book : RequestBook I) : Prop where
  once : (book.accepted ++ book.cancelled ++ book.pending).Perm book.submitted
  serials : book.submitted.map Request.serial = List.range book.submitted.length
  ordered : book.pending.Sublist book.submitted

theorem bookCall_kept {reports : Bool} {book book' : RequestBook I} {call : RequestCall I}
    {reply : RequestReply I} (kept : Kept book)
    (called : bookCall reports book call = some (reply, book')) : Kept book' := by
  rcases kept with ⟨once, serials, ordered⟩
  cases call with
  | submit item priority =>
      rw [bookCall] at called
      split at called
      · contradiction
      · obtain ⟨rfl, rfl⟩ := Prod.mk.inj (Option.some.inj called)
        refine ⟨?_, ?_, ordered.append (List.Sublist.refl _)⟩
        · simp only [← List.append_assoc]
          exact once.append_right _
        · simp [serials, List.range_succ]
  | schedule =>
      rw [bookCall] at called
      rcases next : book.nextUp with _ | request
      · simp only [next] at called
        obtain ⟨rfl, rfl⟩ := Prod.mk.inj (Option.some.inj called)
        exact ⟨once, serials, ordered⟩
      · simp only [next] at called
        obtain ⟨rfl, rfl⟩ := Prod.mk.inj (Option.some.inj called)
        refine ⟨?_, serials, List.erase_sublist.trans ordered⟩
        have taken := List.perm_cons_erase (nextUp_mem next)
        rw [List.perm_iff_count] at once taken ⊢
        intro other
        have total := once other
        have split := taken other
        simp only [List.count_append, List.count_cons, List.count_nil] at *
        omega
  | acceptedReturns =>
      rw [bookCall] at called
      split at called
      · contradiction
      · obtain ⟨rfl, rfl⟩ := Prod.mk.inj (Option.some.inj called)
        exact ⟨once, serials, ordered⟩
  | reset =>
      obtain ⟨rfl, rfl⟩ := Prod.mk.inj (Option.some.inj called)
      refine ⟨?_, serials, List.nil_sublist _⟩
      have all := inOrder_perm book
      rw [List.perm_iff_count] at once all ⊢
      intro other
      have total := once other
      have moved := all other
      simp only [List.count_append, List.count_nil] at *
      omega

omit [DecidableEq I] in
/-- Of the requests with the smallest priority the earliest is up next. -/
theorem nextUp_earliest {book : RequestBook I} (kept : Kept book) {request : Request I}
    (next : book.nextUp = some request) {other : Request I} (member : other ∈ book.pending) :
    request.priority < other.priority ∨
      request.priority = other.priority ∧ request.serial ≤ other.serial := by
  rcases nextUp_some next with ⟨⟨rest, first⟩, smallest⟩
  by_cases same : request.priority = other.priority
  · refine Or.inr ⟨same, ?_⟩
    have increasing : (book.ofPriority request.priority).Pairwise
        fun early late => early.serial < late.serial := by
      have all : book.submitted.Pairwise fun early late => early.serial < late.serial := by
        rw [← List.pairwise_map, kept.serials]
        exact List.pairwise_lt_range
      exact (all.sublist kept.ordered).filter _
    have inside : other ∈ book.ofPriority request.priority := by
      simp [RequestBook.ofPriority, member, same]
    rw [first] at increasing inside
    rcases List.mem_cons.mp inside with rfl | later
    · exact Nat.le_refl _
    · exact Nat.le_of_lt ((List.pairwise_cons.mp increasing).1 other later)
  · exact Or.inl (lt_of_le_of_ne (smallest other member) same)

structure Served (q : RequestQueue I) (book : RequestBook I) : Prop where
  lists : Lists q book.items
  once : (book.accepted ++ book.cancelled ++ book.pending).Perm book.submitted
  serials : book.submitted.map Request.serial = List.range book.submitted.length
  earliest : ∀ request, book.nextUp = some request → request ∈ book.pending ∧
    ∀ other ∈ book.pending, request.priority < other.priority ∨
      request.priority = other.priority ∧ request.serial ≤ other.serial
  idle : book.nextUp = none → book.pending = []
  numReqs : book.accepting = 0 → q.numReqs = Int32.ofNat book.pending.length
  counted : book.accepting = 0 → book.pending.length < 2 ^ 31 →
    q.numReqs.toInt = book.pending.length

omit [DecidableEq I] in
theorem served {reports : Bool} {q : RequestQueue I} {book : RequestBook I}
    (keeps : KeepsBook reports q book) (kept : Kept book) : Served q book where
  lists := keeps.lists
  once := kept.once
  serials := kept.serials
  earliest request next := ⟨nextUp_mem next, fun _ member => nextUp_earliest kept next member⟩
  idle := nextUp_none
  numReqs returned := by rw [keeps.numReqs, returned, Nat.add_zero]
  counted returned small := by
    rw [keeps.numReqs, returned, Nat.add_zero, Int32.toInt_ofNat_of_lt small]

/-- Every run that submits only items that are not queued does what the book says. -/
theorem requests_served (links : Links (RequestCell I)) (reports : Bool)
    (calls : List (RequestCall I))
    (legal : (Automaton.run (bookCall reports) (RequestBook.empty I) calls).isSome)
    {fuel : Nat} (enough : calls.length < fuel) :
    ∃ replies book q,
      Automaton.run (bookCall reports) (RequestBook.empty I) calls = some (replies, book) ∧
        Automaton.run (requestCall fuel) (requestQueueInit links reports) calls =
          some (replies, q) ∧ Served q book := by
  obtain ⟨⟨replies, book⟩, specified⟩ := Option.isSome_iff_exists.mp legal
  have start : KeepsBook reports (requestQueueInit links reports) (RequestBook.empty I) :=
    ⟨requestQueueInit_lists links reports, rfl, rfl, rfl⟩
  have room : (RequestBook.empty I).pending.length + calls.length < fuel := by
    simpa [RequestBook.empty] using enough
  have empty : Kept (RequestBook.empty I) := ⟨List.Perm.refl _, rfl, List.Sublist.refl _⟩
  rcases (request_follows reports fuel).run ⟨start, room⟩ specified with ⟨q, ran, keeps, -⟩
  have kept : Kept book :=
    Automaton.run_invariant (fun _ _ _ _ kept called => bookCall_kept kept called) empty specified
  exact ⟨replies, book, q, specified, ran, served keeps kept⟩

/-- An item of the second priority waits while the callback of another submits one of
the first, schedules it and submits itself again; the last one is cancelled. -/
theorem requests_served_nested :
    ∃ replies book q,
      Automaton.run (bookCall true) (RequestBook.empty Nat) [.submit 7 1, .submit 8 1, .schedule,
          .submit 9 0, .schedule, .submit 7 2, .acceptedReturns, .acceptedReturns, .schedule,
          .acceptedReturns, .reset] = some (replies, book) ∧
        Automaton.run (requestCall 12) (requestQueueInit ⟨id, id⟩ true) [.submit 7 1, .submit 8 1,
          .schedule, .submit 9 0, .schedule, .submit 7 2, .acceptedReturns, .acceptedReturns,
          .schedule, .acceptedReturns, .reset] = some (replies, q) ∧ Served q book :=
  requests_served ⟨id, id⟩ true [.submit 7 1, .submit 8 1, .schedule, .submit 9 0, .schedule,
    .submit 7 2, .acceptedReturns, .acceptedReturns, .schedule, .acceptedReturns, .reset]
    (by decide) (by decide)

def backlog (n : Nat) : List (RequestCall Nat) := (List.range n).map fun item => .submit item 0

theorem backlog_run (n : Nat) :
    ∃ replies book,
      Automaton.run (bookCall true) (RequestBook.empty Nat) (backlog n) = some (replies, book) ∧
        book.pending.map Request.item = List.range n ∧ book.accepting = 0 := by
  induction n with
  | zero => exact ⟨[], _, rfl, rfl, rfl⟩
  | succ n ih =>
      rcases ih with ⟨replies, book, ran, items, rest⟩
      have fresh : ¬ ∃ request ∈ book.pending, request.item = n := by
        rintro ⟨request, member, same⟩
        have listed := List.mem_map_of_mem (f := Request.item) member
        rw [items, same] at listed
        simp at listed
      refine ⟨replies ++ [.submitted], { book with
        submitted := book.submitted ++ [⟨n, 0, book.submitted.length⟩]
        pending := book.pending ++ [⟨n, 0, book.submitted.length⟩] }, ?_, ?_, rest⟩
      · rw [backlog, List.range_succ, List.map_append]
        apply Automaton.run_append ran
        apply Automaton.run_cons_eq_some.mpr
        exact ⟨.submitted, _, [], if_neg fresh, rfl, rfl⟩
      · simp [items, List.range_succ]

theorem backlog_counted (n : Nat) :
    ∃ replies book q,
      Automaton.run (bookCall true) (RequestBook.empty Nat) (backlog n) = some (replies, book) ∧
        Automaton.run (requestCall (n + 1)) (requestQueueInit ⟨id, id⟩ true) (backlog n) =
          some (replies, q) ∧
        book.accepting = 0 ∧ book.pending.length = n ∧ q.numReqs = Int32.ofNat n := by
  rcases backlog_run n with ⟨replies, book, specified, items, rest⟩
  have size : book.pending.length = n := by
    rw [← List.length_map Request.item, items, List.length_range]
  have start : KeepsBook true (requestQueueInit ⟨id, id⟩ true) (RequestBook.empty Nat) :=
    ⟨requestQueueInit_lists _ true, rfl, rfl, rfl⟩
  have room : (RequestBook.empty Nat).pending.length + (backlog n).length < n + 1 := by
    simp [RequestBook.empty, backlog]
  rcases (request_follows true (n + 1)).run ⟨start, room⟩ specified with ⟨q, ran, keeps, -⟩
  refine ⟨replies, book, q, specified, ran, rest, size, ?_⟩
  rw [keeps.numReqs, rest, size, Nat.add_zero]

/-- The counter of the requests overflows where the lists do not. -/
theorem numReqs_overflows :
    ¬ ∀ (calls : List (RequestCall Nat)) (fuel : Nat) replies book q, calls.length < fuel →
      Automaton.run (bookCall true) (RequestBook.empty Nat) calls = some (replies, book) →
        Automaton.run (requestCall fuel) (requestQueueInit ⟨id, id⟩ true) calls =
          some (replies, q) →
        book.accepting = 0 → q.numReqs.toInt = book.pending.length := by
  intro always
  obtain ⟨n, large⟩ : ∃ n, n = 2 ^ 31 := ⟨_, rfl⟩
  rcases backlog_counted n with ⟨replies, book, q, specified, ran, rest, size, numReqs⟩
  have short : (backlog n).length < n + 1 := by simp [backlog]
  have counted := always (backlog n) (n + 1) replies book q short specified ran rest
  rw [numReqs, size, large, Int32.toInt_ofNat'] at counted
  simp [Int32.size, Int.bmod] at counted

end KongjaExpress.Utils
