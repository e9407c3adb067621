import KongjaExpress.Utils.ListHead

/-! The bucket hash of `bhash.c`. Its client elements are named by their addresses. -/

namespace KongjaExpress.Utils

open LinkedCells

/-- Where list pointers lead: nowhere, to the head of a bucket or into a client element. -/
inductive BHashCell (numBuckets : Nat) (E : Type)
  | null
  | bucket (ndx : Fin numBuckets)
  | element (e : E)
  deriving DecidableEq

abbrev Key (keySize : Nat) := Vector UInt8 keySize

/-- What `bhash_init` records of a hash context. -/
structure BHashContext where
  numBuckets : Nat
  keySize : Nat
  calcHash : List UInt8 → UInt32
  positive : 0 < numBuckets

/-- The memory of a table: the list pointers of the buckets and of the client
elements, and the key bytes of the elements. -/
structure BHash (ctx : BHashContext) (E : Type) where
  links : Links (BHashCell ctx.numBuckets E)
  keys : E → Key ctx.keySize

def djbHash (key : List UInt8) : UInt32 :=
  key.foldl (fun h byte => 33 * h ^^^ byte.toUInt32) 0

/-- The default is used where no function is given. -/
def bhashContext (numBuckets keySize : Nat) (positive : 0 < numBuckets)
    (func : Option (List UInt8 → UInt32)) : BHashContext :=
  ⟨numBuckets, keySize, func.getD djbHash, positive⟩

variable {ctx : BHashContext} {E : Type} [DecidableEq E]

/-- The loop of `bhash_init` over the buckets. -/
def bhashInit (memory : BHash ctx E) : BHash ctx E :=
  { memory with
    links := ((List.finRange ctx.numBuckets).map .bucket).foldl
      (fun l list => initListHead list l) memory.links }

def bucketNdx (ctx : BHashContext) (key : Key ctx.keySize) : Fin ctx.numBuckets :=
  ⟨(ctx.calcHash key.toList).toNat % ctx.numBuckets, Nat.mod_lt _ ctx.positive⟩

/-- The loop over a bucket from `pos` on, for an element with this key; `none` when
it did not come back to the head in `fuel` rounds, or left the elements. -/
def findEntry (hash : BHash ctx E) (head : BHashCell ctx.numBuckets E) (key : Key ctx.keySize) :
    Nat → BHashCell ctx.numBuckets E → Option (Option E)
  | 0, _ => none
  | fuel + 1, pos =>
      if pos = head then some none
      else
        match pos with
        | .element e =>
            if key = hash.keys e then some (some e)
            else findEntry hash head key fuel (hash.links.next pos)
        | _ => none

def bhashLookup (fuel : Nat) (hash : BHash ctx E) (key : Key ctx.keySize) : Option (Option E) :=
  let ndx := (ctx.calcHash key.toList).toNat % ctx.numBuckets % ctx.numBuckets
  let head := .bucket ⟨ndx, Nat.mod_lt _ ctx.positive⟩
  findEntry hash head key fuel (hash.links.next head)

def bhashAdd (fuel : Nat) (hash : BHash ctx E) (e : E) : Option (Int × BHash ctx E) := do
  match ← bhashLookup fuel hash (hash.keys e) with
  | some _ => some (0, hash)
  | none =>
      let head := .bucket (bucketNdx ctx (hash.keys e))
      some (1, { hash with links := listAddTail (.element e) head hash.links })

def bhashDel (fuel : Nat) (hash : BHash ctx E) (key : Key ctx.keySize) :
    Option (Int × BHash ctx E) := do
  match ← bhashLookup fuel hash key with
  | none => some (0, hash)
  | some _ =>
      let head := .bucket (bucketNdx ctx key)
      match ← findEntry hash head key fuel (hash.links.next head) with
      | none => some (0, hash)
      | some e => some (1, { hash with links := listDel .null (.element e) hash.links })

theorem bhashLookup_eq (fuel : Nat) (hash : BHash ctx E) (key : Key ctx.keySize) :
    bhashLookup fuel hash key = findEntry hash (.bucket (bucketNdx ctx key)) key fuel
      (hash.links.next (.bucket (bucketNdx ctx key))) := by
  simp only [bhashLookup, bucketNdx, Nat.mod_mod]

theorem findEntry_trail {hash : BHash ctx E} {ndx : Fin ctx.numBuckets} {key : Key ctx.keySize}
    {a : BHashCell ctx.numBuckets E} {cells : List E} {fuel : Nat}
    (trail : Trail hash.links a (cells.map .element) (.bucket ndx)) (enough : cells.length < fuel) :
    findEntry hash (.bucket ndx) key fuel (hash.links.next a) =
      some (cells.find? fun e => key = hash.keys e) := by
  induction cells generalizing a fuel with
  | nil =>
      obtain ⟨fuel, rfl⟩ := Nat.exists_eq_succ_of_ne_zero (Nat.ne_of_gt enough)
      have back : hash.links.next a = .bucket ndx := trail.1
      simp [findEntry, back]
  | cons e cells ih =>
      obtain ⟨fuel, rfl⟩ := Nat.exists_eq_succ_of_ne_zero (Nat.ne_of_gt (Nat.zero_lt_of_lt enough))
      rcases trail with ⟨⟨forth, -⟩, rest⟩
      have walked := ih rest (Nat.lt_of_succ_lt_succ enough)
      rw [forth, findEntry, if_neg (by simp)]
      by_cases found : key = hash.keys e
      · simp [found]
      · simp [found, walked]

end KongjaExpress.Utils
