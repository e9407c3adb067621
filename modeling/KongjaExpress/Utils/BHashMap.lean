import KongjaExpress.Library.Automaton
import KongjaExpress.Utils.BHash

/-! The bucket hash as a finite map from keys to client elements. -/

namespace KongjaExpress.Utils

open LinkedCells

inductive BHashCall (keySize : Nat) (E : Type)
  | add (e : E)
  | lookup (key : Key keySize)
  | del (key : Key keySize)
  | setKey (e : E) (key : Key keySize)
  deriving DecidableEq

inductive BHashReply (E : Type)
  | result (value : Int)
  | pointer (e : Option E)
  | written
  deriving DecidableEq, Repr

variable {ctx : BHashContext} {E : Type}

/-- Which element is stored under a key, and the key bytes of all elements. -/
structure KeyMap (keySize : Nat) (E : Type) where
  stored : Key keySize → Option E
  keys : E → Key keySize

/-- The buckets are circles of the stored elements, each in the bucket of its key's hash. -/
structure Represents (hash : BHash ctx E) (m : KeyMap ctx.keySize E)
    (cells : Fin ctx.numBuckets → List E) : Prop where
  family : Family hash.links .bucket fun ndx => (cells ndx).map .element
  placed : ∀ ndx, ∀ e ∈ cells ndx, bucketNdx ctx (hash.keys e) = ndx
  stored : ∀ key e, m.stored key = some e ↔ e ∈ cells (bucketNdx ctx key) ∧ hash.keys e = key
  keys : hash.keys = m.keys

section Represents

variable {hash : BHash ctx E} {m : KeyMap ctx.keySize E} {cells : Fin ctx.numBuckets → List E}

theorem Represents.distinct (rep : Represents hash m cells) {e e' : E}
    {ndx ndx' : Fin ctx.numBuckets} (inside : e ∈ cells ndx) (inside' : e' ∈ cells ndx')
    (same : hash.keys e = hash.keys e') : e = e' := by
  have place := rep.placed ndx e inside
  have place' := rep.placed ndx' e' inside'
  have first := (rep.stored (hash.keys e) e).mpr ⟨place ▸ inside, rfl⟩
  have second := (rep.stored (hash.keys e) e').mpr ⟨by rw [same]; exact place' ▸ inside', same.symm⟩
  exact Option.some.inj (first.symm.trans second)

theorem Represents.find (rep : Represents hash m cells) (key : Key ctx.keySize) :
    (cells (bucketNdx ctx key)).find? (fun e => key = hash.keys e) = m.stored key := by
  rcases found : (cells (bucketNdx ctx key)).find? (fun e => key = hash.keys e) with _ | e
  · rcases kept : m.stored key with _ | e
    · rfl
    · rcases (rep.stored key e).mp kept with ⟨inside, same⟩
      exact absurd same.symm (by simpa using List.find?_eq_none.mp found e inside)
  · have same : key = hash.keys e := by simpa using List.find?_some found
    exact ((rep.stored key e).mpr ⟨List.mem_of_find?_eq_some found, same.symm⟩).symm

end Represents

variable [DecidableEq E]

def bhashCall (fuel : Nat) (hash : BHash ctx E) :
    BHashCall ctx.keySize E → Option (BHashReply E × BHash ctx E)
  | .add e => (bhashAdd fuel hash e).map fun (value, hash) => (.result value, hash)
  | .lookup key => (bhashLookup fuel hash key).map fun e => (.pointer e, hash)
  | .del key => (bhashDel fuel hash key).map fun (value, hash) => (.result value, hash)
  | .setKey e key => some (.written, { hash with keys := Function.update hash.keys e key })

/-- The calls on the map. The key bytes of a stored element must not be written. -/
def mapCall {keySize : Nat} (m : KeyMap keySize E) :
    BHashCall keySize E → Option (BHashReply E × KeyMap keySize E)
  | .add e =>
      if m.stored (m.keys e) = none then
        some (.result 1, { m with stored := Function.update m.stored (m.keys e) (some e) })
      else some (.result 0, m)
  | .lookup key => some (.pointer (m.stored key), m)
  | .del key =>
      if m.stored key = none then some (.result 0, m)
      else some (.result 1, { m with stored := Function.update m.stored key none })
  | .setKey e key =>
      if m.stored (m.keys e) = some e then none
      else some (.written, { m with keys := Function.update m.keys e key })

section Represents

variable {hash : BHash ctx E} {m : KeyMap ctx.keySize E} {cells : Fin ctx.numBuckets → List E}

theorem Represents.findEntry (rep : Represents hash m cells) {fuel : Nat}
    (enough : ∀ ndx, (cells ndx).length < fuel) (key : Key ctx.keySize) :
    findEntry hash (.bucket (bucketNdx ctx key)) key fuel
      (hash.links.next (.bucket (bucketNdx ctx key))) = some (m.stored key) := by
  rw [findEntry_trail (rep.family.circles _).trail (enough _), rep.find]

theorem Represents.lookup (rep : Represents hash m cells) {fuel : Nat}
    (enough : ∀ ndx, (cells ndx).length < fuel) (key : Key ctx.keySize) :
    bhashLookup fuel hash key = some (m.stored key) := by
  rw [bhashLookup_eq, rep.findEntry enough]

theorem Represents.add (rep : Represents hash m cells) {e : E}
    (free : m.stored (hash.keys e) = none) :
    Represents
      { hash with links := listAddTail (.element e) (.bucket (bucketNdx ctx (hash.keys e))) hash.links }
      { m with stored := Function.update m.stored (hash.keys e) (some e) }
      (Function.update cells (bucketNdx ctx (hash.keys e))
        (cells (bucketNdx ctx (hash.keys e)) ++ [e])) := by
  have fresh (ndx : Fin ctx.numBuckets) : e ∉ cells ndx := by
    intro inside
    have place := rep.placed ndx e inside
    have present := (rep.stored (hash.keys e) e).mpr ⟨place ▸ inside, rfl⟩
    simp [free] at present
  refine ⟨?_, ?_, ?_, rep.keys⟩
  · rw [← update_map, List.map_append, List.map_singleton]
    apply listAddTail_family rep.family
    intro ndx
    simp [fresh]
  · intro ndx e' inside
    by_cases here : ndx = bucketNdx ctx (hash.keys e)
    · subst here
      simp only [Function.update_self, List.mem_append, List.mem_singleton] at inside
      rcases inside with inside | rfl
      · exact rep.placed _ e' inside
      · rfl
    · simp only [Function.update_of_ne here] at inside
      exact rep.placed ndx e' inside
  · intro key e'
    by_cases here : key = hash.keys e
    · subst here
      simp only [Function.update_self, List.mem_append, List.mem_singleton, Option.some.injEq]
      constructor
      · rintro rfl
        exact ⟨Or.inr rfl, rfl⟩
      · rintro ⟨inside | rfl, same⟩
        · have present := (rep.stored (hash.keys e) e').mpr ⟨inside, same⟩
          simp [free] at present
        · rfl
    · simp only [Function.update_of_ne here]
      rw [rep.stored]
      by_cases bucket : bucketNdx ctx key = bucketNdx ctx (hash.keys e)
      · rw [bucket, Function.update_self, List.mem_append, List.mem_singleton]
        constructor
        · rintro ⟨inside, same⟩
          exact ⟨Or.inl inside, same⟩
        · rintro ⟨inside | rfl, same⟩
          · exact ⟨inside, same⟩
          · exact absurd same.symm here
      · rw [Function.update_of_ne bucket]

theorem Represents.del (rep : Represents hash m cells) {key : Key ctx.keySize} {e : E}
    (present : m.stored key = some e) :
    Represents { hash with links := listDel .null (.element e) hash.links }
      { m with stored := Function.update m.stored key none }
      (Function.update cells (bucketNdx ctx key) ((cells (bucketNdx ctx key)).filter (· ≠ e))) := by
  rcases (rep.stored key e).mp present with ⟨inside, rfl⟩
  have circle := rep.family.circles (bucketNdx ctx (hash.keys e))
  rcases List.append_of_mem inside with ⟨front, back, split⟩
  rw [split, List.map_append, List.map_cons] at circle
  have rest : (cells (bucketNdx ctx (hash.keys e))).filter (· ≠ e) = front ++ back := by
    have nodup : (front ++ e :: back).Nodup := by
      have mapped := (List.nodup_cons.mp circle.nodup).2
      rw [← List.map_cons, ← List.map_append] at mapped
      exact mapped.of_map _
    rw [split, List.filter_append, List.filter_cons_of_neg (by simp), List.filter_eq_self.mpr,
      List.filter_eq_self.mpr]
    · grind
    · grind
  refine ⟨?_, ?_, ?_, rep.keys⟩
  · rw [← update_map, rest, List.map_append]
    apply rep.family.remove _ (listDel_taken_out .null circle)
    rw [split, List.map_append, List.map_cons]
  · intro ndx e' kept
    by_cases here : ndx = bucketNdx ctx (hash.keys e)
    · subst here
      simp only [Function.update_self] at kept
      exact rep.placed _ e' (List.mem_of_mem_filter kept)
    · simp only [Function.update_of_ne here] at kept
      exact rep.placed ndx e' kept
  · intro key' e'
    by_cases here : key' = hash.keys e
    · subst here
      simp only [Function.update_self, List.mem_filter]
      constructor
      · intro impossible
        simp at impossible
      · rintro ⟨⟨member, other⟩, same⟩
        have equal := rep.distinct member inside same
        simp [equal] at other
    · simp only [Function.update_of_ne here]
      rw [rep.stored]
      have other : hash.keys e' = key' → e' ≠ e := by
        rintro same rfl
        exact here same.symm
      by_cases bucket : bucketNdx ctx key' = bucketNdx ctx (hash.keys e)
      · rw [bucket, Function.update_self, List.mem_filter]
        constructor
        · rintro ⟨member, same⟩
          exact ⟨⟨member, by simpa using other same⟩, same⟩
        · rintro ⟨⟨member, -⟩, same⟩
          exact ⟨member, same⟩
      · rw [Function.update_of_ne bucket]

theorem Represents.setKey (rep : Represents hash m cells) {e : E}
    (free : m.stored (hash.keys e) ≠ some e) (key : Key ctx.keySize) :
    Represents { hash with keys := Function.update hash.keys e key }
      { m with keys := Function.update m.keys e key } cells := by
  have other (ndx : Fin ctx.numBuckets) (e' : E) (inside : e' ∈ cells ndx) : e' ≠ e := by
    rintro rfl
    have place := rep.placed ndx e' inside
    exact free ((rep.stored (hash.keys e') e').mpr ⟨place ▸ inside, rfl⟩)
  refine ⟨rep.family, ?_, ?_, by rw [rep.keys]⟩
  · intro ndx e' inside
    simp only [Function.update_of_ne (other ndx e' inside)]
    exact rep.placed ndx e' inside
  · intro key' e'
    rw [rep.stored]
    apply and_congr_right
    intro inside
    simp only [Function.update_of_ne (other _ e' inside)]

end Represents

theorem init_represents (memory : BHash ctx E) :
    Represents (bhashInit memory) ⟨fun _ => none, memory.keys⟩ fun _ => [] where
  family :=
    ⟨fun ndx => initListHeads_circular memory.links (List.mem_map_of_mem (List.mem_finRange ndx)),
      fun i j different a member => by simpa [List.mem_singleton.mp member] using different⟩
  placed ndx e inside := absurd inside (List.not_mem_nil)
  stored key e := by simp
  keys := rfl

/-- The table stands for the map, and its walks have rounds enough for `left` more calls. -/
def StandsFor (fuel left : Nat) (hash : BHash ctx E) (m : KeyMap ctx.keySize E) : Prop :=
  ∃ cells, Represents hash m cells ∧ ∀ ndx, (cells ndx).length + left < fuel

theorem bhash_follows (ctx : BHashContext) (E : Type) [DecidableEq E] (fuel : Nat) :
    Automaton.Follows (@bhashCall ctx E _ fuel) mapCall (StandsFor fuel) := by
  rintro left hash m call reply m' ⟨cells, rep, room⟩ specified
  have enough (ndx : Fin ctx.numBuckets) : (cells ndx).length < fuel := by
    have := room ndx
    omega
  have unchanged : StandsFor fuel left hash m := ⟨cells, rep, fun ndx => by
    have := room ndx
    omega⟩
  cases call with
  | lookup key =>
      obtain ⟨rfl, rfl⟩ := Prod.mk.inj (Option.some.inj specified)
      refine ⟨hash, ?_, unchanged⟩
      simp [bhashCall, rep.lookup enough]
  | add e =>
      have looked := rep.lookup enough (hash.keys e)
      have same : m.keys e = hash.keys e := by rw [rep.keys]
      rw [mapCall, same] at specified
      by_cases free : m.stored (hash.keys e) = none
      · rw [if_pos free] at specified
        obtain ⟨rfl, rfl⟩ := Prod.mk.inj (Option.some.inj specified)
        refine ⟨_, ?_, _, rep.add free, ?_⟩
        · simp [bhashCall, bhashAdd, looked, free]
        · intro ndx
          have := room ndx
          by_cases here : ndx = bucketNdx ctx (hash.keys e)
          · subst here
            simp only [Function.update_self, List.length_append, List.length_singleton]
            omega
          · simp only [Function.update_of_ne here]
            omega
      · rw [if_neg free] at specified
        obtain ⟨rfl, rfl⟩ := Prod.mk.inj (Option.some.inj specified)
        obtain ⟨e', present⟩ := Option.ne_none_iff_exists'.mp free
        refine ⟨hash, ?_, unchanged⟩
        simp [bhashCall, bhashAdd, looked, present]
  | del key =>
      have looked := rep.lookup enough key
      have walked := rep.findEntry enough key
      rw [mapCall] at specified
      rcases present : m.stored key with _ | e
      · rw [if_pos present] at specified
        obtain ⟨rfl, rfl⟩ := Prod.mk.inj (Option.some.inj specified)
        refine ⟨hash, ?_, unchanged⟩
        simp [bhashCall, bhashDel, looked, present]
      · rw [if_neg (by simp [present])] at specified
        obtain ⟨rfl, rfl⟩ := Prod.mk.inj (Option.some.inj specified)
        refine ⟨_, ?_, _, rep.del present, ?_⟩
        · simp [bhashCall, bhashDel, looked, walked, present]
        · intro ndx
          have := room ndx
          by_cases here : ndx = bucketNdx ctx key
          · subst here
            have shorter := List.length_filter_le (· ≠ e) (cells (bucketNdx ctx key))
            simp only [Function.update_self]
            omega
          · simp only [Function.update_of_ne here]
            omega
  | setKey e key =>
      have same : m.keys e = hash.keys e := by rw [rep.keys]
      rw [mapCall, same] at specified
      by_cases free : m.stored (hash.keys e) = some e
      · simp [free] at specified
      · rw [if_neg free] at specified
        obtain ⟨rfl, rfl⟩ := Prod.mk.inj (Option.some.inj specified)
        refine ⟨_, rfl, cells, rep.setKey free key, ?_⟩
        intro ndx
        have := room ndx
        omega

/-- While no stored element's key is written, the table answers every run of calls
like the map, and stores what the map stores. -/
theorem bhash_refines_map (memory : BHash ctx E) (calls : List (BHashCall ctx.keySize E))
    (legal : (Automaton.run mapCall ⟨fun _ => none, memory.keys⟩ calls).isSome)
    {fuel : Nat} (enough : calls.length < fuel) :
    ∃ replies m hash cells,
      Automaton.run mapCall ⟨fun _ => none, memory.keys⟩ calls = some (replies, m) ∧
        Automaton.run (bhashCall fuel) (bhashInit memory) calls = some (replies, hash) ∧
        Represents hash m cells ∧
        ∀ ndx ndx' e e', e ∈ cells ndx → e' ∈ cells ndx' → hash.keys e = hash.keys e' → e = e' := by
  obtain ⟨⟨replies, m⟩, specified⟩ := Option.isSome_iff_exists.mp legal
  have start : StandsFor fuel calls.length (bhashInit memory) ⟨fun _ => none, memory.keys⟩ :=
    ⟨fun _ => [], init_represents memory, fun ndx => by simpa using enough⟩
  rcases (bhash_follows ctx E fuel).run start specified with ⟨hash, ran, cells, rep, -⟩
  refine ⟨replies, m, hash, cells, specified, ran, rep, ?_⟩
  intro ndx ndx' e e' inside inside' same
  exact rep.distinct inside inside' same

def threeElements : BHash (bhashContext 1 1 (by decide) none) (Fin 3) :=
  ⟨⟨fun _ => .null, fun _ => .null⟩, fun e => #v[if e = 1 then 7 else 9]⟩

/-- Three elements in one bucket with the default hash function; the first is added
twice, and the last has its key. -/
theorem bhash_refines_map_colliding :
    ∃ replies m hash cells,
      Automaton.run mapCall ⟨fun _ => none, threeElements.keys⟩ [.add 0, .add 1, .add 0, .add 2,
          .lookup #v[9], .del #v[9], .setKey 0 #v[7], .add 0, .lookup #v[7]] = some (replies, m) ∧
        Automaton.run (bhashCall 10) (bhashInit threeElements) [.add 0, .add 1, .add 0, .add 2,
          .lookup #v[9], .del #v[9], .setKey 0 #v[7], .add 0, .lookup #v[7]] =
            some (replies, hash) ∧
        Represents hash m cells ∧
        ∀ ndx ndx' e e', e ∈ cells ndx → e' ∈ cells ndx' → hash.keys e = hash.keys e' → e = e' :=
  bhash_refines_map threeElements [.add 0, .add 1, .add 0, .add 2, .lookup #v[9], .del #v[9],
    .setKey 0 #v[7], .add 0, .lookup #v[7]] (by decide) (by decide)

end KongjaExpress.Utils
