import KongjaExpress.Utils.CJson

/-! The path lookup of `config_reader.c`. -/

namespace KongjaExpress.Utils

def dot : UInt8 := 0x2e

/-- `strdup` or `strndup`: a copy, unless the allocation fails. -/
def duplicate (fails : Bool) (string : List UInt8) : Option (List UInt8) :=
  if fails then none else some string

/-- The buffer and the cursor afterwards; a null cursor is the end of the path. -/
def extractSubpathAndAdvance (fails : Bool) (current : Option (List UInt8)) :
    Option (List UInt8) × Option (List UInt8) :=
  match current with
  | none => (none, none)
  | some current =>
      match current.dropWhile (· ≠ dot) with
      | [] => (duplicate fails current, none)
      | _ :: behind => (duplicate fails (current.takeWhile (· ≠ dot)), some behind)

def cursorSize : Option (List UInt8) → Nat
  | none => 0
  | some current => current.length + 1

theorem extractSubpathAndAdvance_size {fails : Bool} {current next : Option (List UInt8)}
    {subpath : List UInt8} (took : extractSubpathAndAdvance fails current = (some subpath, next)) :
    cursorSize next < cursorSize current := by
  cases current with
  | none => cases took
  | some current =>
      have split := congrArg List.length
        (List.takeWhile_append_dropWhile (p := (· ≠ dot)) (l := current))
      rw [List.length_append] at split
      rw [extractSubpathAndAdvance] at took
      cases behind : current.dropWhile (· ≠ dot) with
      | nil =>
          simp only [behind] at took
          obtain rfl := (Prod.mk.inj took).2
          exact Nat.succ_pos _
      | cons first rest =>
          simp only [behind] at took
          obtain rfl := (Prod.mk.inj took).2
          rw [behind, List.length_cons] at split
          simp only [cursorSize]
          omega

/-- The loop of `get_json_obj_from_path`; `fails n` is the failure of its `n`-th allocation. -/
def pathLoop (fails : Nat → Bool) (call : Nat) (current : Option (List UInt8)) (node : CJsonNode) :
    Option CJsonNode :=
  match _took : extractSubpathAndAdvance (fails call) current with
  | (none, _) => some node
  | (some subpath, current) =>
      match cJSONGetObjectItem node subpath with
      | none => none
      | some node => pathLoop fails (call + 1) current node
termination_by cursorSize current
decreasing_by exact extractSubpathAndAdvance_size _took

def getJsonObjFromPath (fails : Nat → Bool) (root : CJson) (path : List UInt8) :
    Option CJsonNode :=
  match pathLoop fails 0 (some path) root.node with
  | none => none
  | some node => if node.address = root.node.address then none else some node

/-- The components of a path: what stands between its dots. -/
def components (path : List UInt8) : List (List UInt8) := path.splitOn dot

def nodeAt (root : CJson) (path : List UInt8) : Option CJsonNode :=
  lookupAll root.node (components path)

structure Resolves (fails : Nat → Bool) (root : CJson) (path : List UInt8)
    (result : Option CJsonNode) : Prop where
  reached : ∀ node, result = some node → nodeAt root path = some node
  missing : nodeAt root path = none → result = none
  complete : (∀ n < (components path).length, fails n = false) → result = none →
    nodeAt root path = none
  proper : ∀ front, front <+: components path → front ≠ components path →
    ∀ node, lookupAll root.node front = some node → result ≠ some node

/-- The first allocation that fails is that of a later component, and all before it have a
match. -/
def Interrupted (fails : Nat → Bool) (root : CJson) (path : List UInt8) : Prop :=
  ∃ n, 0 < n ∧ n < (components path).length ∧ fails n = true ∧ (∀ m < n, fails m = false) ∧
    (lookupAll root.node ((components path).take n)).isSome

/-- The components that are copied, from the call on: those before the first failure. -/
def copied (fails : Nat → Bool) : Nat → List (List UInt8) → List (List UInt8)
  | _, [] => []
  | call, component :: rest =>
      if fails call then [] else component :: copied fails (call + 1) rest

theorem extract_components (fails : Bool) (path : List UInt8) :
    ∃ first rest next, components path = first :: rest ∧
      extractSubpathAndAdvance fails (some path) = (duplicate fails first, next) ∧
      ((rest = [] ∧ next = none) ∨ ∃ behind, rest = components behind ∧ next = some behind) := by
  have split := List.takeWhile_append_dropWhile (p := (· ≠ dot)) (l := path)
  have plain := List.all_eq_true.mp
    (List.all_takeWhile : (path.takeWhile (· ≠ dot)).all (· ≠ dot))
  have stop := List.head?_dropWhile_not (· ≠ dot) path
  rw [components, extractSubpathAndAdvance]
  have absent : dot ∉ path.takeWhile (· ≠ dot) := fun member => by simpa using plain dot member
  cases behind : path.dropWhile (· ≠ dot) with
  | nil =>
      rw [behind, List.append_nil] at split
      rw [split] at absent
      exact ⟨path, [], none, List.splitOn_eq_singleton absent, rfl, Or.inl ⟨rfl, rfl⟩⟩
  | cons first rest =>
      rw [behind] at split stop
      obtain rfl : first = dot := by simpa using stop
      refine ⟨path.takeWhile (· ≠ dot), components rest, some rest, ?_, rfl,
        Or.inr ⟨rest, rfl, rfl⟩⟩
      conv_lhs => rw [← split]
      exact List.splitOn_append_cons_self_of_not_mem absent rest

theorem pathLoop_stops {fails : Nat → Bool} {call : Nat} {current next : Option (List UInt8)}
    (node : CJsonNode) (took : extractSubpathAndAdvance (fails call) current = (none, next)) :
    pathLoop fails call current node = some node := by
  unfold pathLoop
  split
  · rfl
  · simp_all

theorem pathLoop_takes {fails : Nat → Bool} {call : Nat} {current next : Option (List UInt8)}
    {subpath : List UInt8} (node : CJsonNode)
    (took : extractSubpathAndAdvance (fails call) current = (some subpath, next)) :
    pathLoop fails call current node =
      (cJSONGetObjectItem node subpath).bind (pathLoop fails (call + 1) next) := by
  conv_lhs => unfold pathLoop
  split
  · simp_all
  · rename_i taken
    obtain ⟨rfl, rfl⟩ : _ ∧ _ := by simpa using took.symm.trans taken
    cases cJSONGetObjectItem node subpath <;> rfl

/-- The loop looks up the components that are copied: the end of the path and a failed allocation
both end it with the node it has got to. -/
theorem pathLoop_eq (fails : Nat → Bool) (call : Nat) (path : List UInt8) (node : CJsonNode) :
    pathLoop fails call (some path) node =
      lookupAll node (copied fails call (components path)) := by
  induction size : path.length using Nat.strong_induction_on generalizing call path node with
  | _ size ih =>
      rcases extract_components (fails call) path with ⟨first, rest, next, split, took, behind⟩
      rw [split, copied]
      cases failed : fails call with
      | true =>
          have refused : extractSubpathAndAdvance (fails call) (some path) = (none, next) := by
            rw [took, failed]
            rfl
          exact pathLoop_stops node refused
      | false =>
          rw [if_neg Bool.false_ne_true, lookupAll_cons]
          have taken : extractSubpathAndAdvance (fails call) (some path) = (some first, next) := by
            rw [took, failed]
            rfl
          rw [pathLoop_takes node taken]
          congr 1
          funext child
          rcases behind with ⟨rfl, rfl⟩ | ⟨behind, rfl, rfl⟩
          · exact pathLoop_stops child rfl
          · have shorter := extractSubpathAndAdvance_size taken
            exact ih behind.length (by simp only [cursorSize] at shorter; omega) _ behind child rfl

theorem copied_cases (fails : Nat → Bool) (call : Nat) (names : List (List UInt8)) :
    (copied fails call names = names ∧ ∀ n < names.length, fails (call + n) = false) ∨
      ∃ n < names.length, copied fails call names = names.take n ∧ fails (call + n) = true ∧
        ∀ m < n, fails (call + m) = false := by
  induction names generalizing call with
  | nil => exact Or.inl ⟨rfl, nofun⟩
  | cons name names ih =>
      rw [copied]
      cases failed : fails call with
      | true => exact Or.inr ⟨0, by simp, by simp, failed, nofun⟩
      | false =>
          have first : ∀ {bound : Nat}, (∀ m < bound, fails (call + 1 + m) = false) →
              ∀ m < bound + 1, fails (call + m) = false := by
            intro bound later m inside
            cases m with
            | zero => exact failed
            | succ m =>
                have after := later m (by omega)
                rwa [Nat.add_assoc, Nat.add_comm 1] at after
          rw [if_neg Bool.false_ne_true]
          rcases ih (call + 1) with ⟨all, none⟩ | ⟨n, inside, cut, fails', before⟩
          · exact Or.inl ⟨by rw [all], first none⟩
          · refine Or.inr ⟨n + 1, by simpa using inside, by rw [cut, List.take_succ_cons], ?_,
              first before⟩
            rwa [Nat.add_assoc, Nat.add_comm 1] at fails'

/-- What the code returns: the node the copied components lead to, unless none is copied. -/
theorem getJsonObjFromPath_eq (fails : Nat → Bool) (root : CJson) (path : List UInt8) :
    getJsonObjFromPath fails root path =
      if copied fails 0 (components path) = [] then none
      else lookupAll root.node (copied fails 0 (components path)) := by
  rw [getJsonObjFromPath, pathLoop_eq]
  generalize copied fails 0 (components path) = names
  split_ifs with empty
  · subst empty
    exact if_pos rfl
  · cases found : lookupAll root.node names with
    | none => rfl
    | some node =>
        have depth := lookupAll_depth found
        have below : node.address ≠ root.node.address := by
          intro same
          rw [same] at depth
          exact empty (List.length_eq_zero_iff.mp (by omega))
        exact if_neg below

theorem components_ne_nil (path : List UInt8) : components path ≠ [] := List.splitOn_ne_nil dot path

/-- A node has one depth, so the nodes of two paths one of which leads on are different. -/
theorem proper_prefix_differs {root : CJson} {front names : List (List UInt8)}
    (before : front <+: names) (proper : front ≠ names) {node last : CJsonNode}
    (stopped : lookupAll root.node front = some node)
    (found : lookupAll root.node names = some last) : last ≠ node := by
  rintro rfl
  have short := lookupAll_depth stopped
  have long := lookupAll_depth found
  exact proper (before.eq_of_length (by omega))

theorem copied_take {fails : Nat → Bool} {names : List (List UInt8)} {n : Nat}
    (inside : n < names.length) (failed : fails n = true) (before : ∀ m < n, fails m = false) :
    copied fails 0 names = names.take n := by
  rcases copied_cases fails 0 names with ⟨-, none⟩ | ⟨first, -, cut, fails', earlier⟩
  · have allocated := none n inside
    rw [Nat.zero_add, failed] at allocated
    contradiction
  · rw [Nat.zero_add] at fails'
    rcases Nat.lt_trichotomy first n with below | rfl | above
    · rw [before first below] at fails'
      contradiction
    · exact cut
    · have allocated := earlier n above
      rw [Nat.zero_add, failed] at allocated
      contradiction

theorem resolves_none {fails : Nat → Bool} {root : CJson} {path : List UInt8} {n : Nat}
    (inside : n < (components path).length) (failed : fails n = true) :
    Resolves fails root path none := by
  refine ⟨nofun, fun _ => rfl, ?_, nofun⟩
  intro allocated _
  rw [allocated n inside] at failed
  contradiction

theorem resolves_nodeAt (fails : Nat → Bool) (root : CJson) (path : List UInt8) :
    Resolves fails root path (nodeAt root path) := by
  refine ⟨fun node found => found, id, fun _ missing => missing, ?_⟩
  intro front before proper node stopped found
  exact proper_prefix_differs before proper stopped found rfl

theorem resolves_of_not_interrupted {fails : Nat → Bool} {root : CJson} {path : List UInt8}
    (through : ¬ Interrupted fails root path) :
    Resolves fails root path (getJsonObjFromPath fails root path) := by
  rw [getJsonObjFromPath_eq]
  rcases copied_cases fails 0 (components path) with ⟨all, -⟩ | ⟨n, inside, cut, failed, before⟩
  · rw [all, if_neg (components_ne_nil path)]
    exact resolves_nodeAt fails root path
  · rw [Nat.zero_add] at failed
    simp only [Nat.zero_add] at before
    rw [cut]
    split_ifs with empty
    · exact resolves_none inside failed
    · have positive : 0 < n := by
        apply Nat.pos_of_ne_zero
        rintro rfl
        exact empty rfl
      have missing : lookupAll root.node ((components path).take n) = none := by
        by_contra found
        exact through ⟨n, positive, inside, failed, before, Option.isSome_iff_ne_none.mpr found⟩
      rw [missing]
      exact resolves_none inside failed

/-- An interrupted lookup returns the node of a proper prefix. -/
theorem not_resolves_of_interrupted {fails : Nat → Bool} {root : CJson} {path : List UInt8}
    (stopped : Interrupted fails root path) :
    ¬ Resolves fails root path (getJsonObjFromPath fails root path) := by
  intro resolves
  rcases stopped with ⟨n, positive, inside, failed, before, matched⟩
  rcases Option.isSome_iff_exists.mp matched with ⟨node, found⟩
  have size : ((components path).take n).length = n := by
    rw [List.length_take]
    omega
  have some' : (components path).take n ≠ [] := by
    intro empty
    rw [empty, List.length_nil] at size
    omega
  have proper : (components path).take n ≠ components path := by
    intro whole
    rw [whole] at size
    omega
  apply resolves.proper _ (List.take_prefix n _) proper node found
  rw [getJsonObjFromPath_eq, copied_take inside failed before, if_neg some', found]

theorem getJsonObjFromPath_resolves_iff (fails : Nat → Bool) (root : CJson) (path : List UInt8) :
    Resolves fails root path (getJsonObjFromPath fails root path) ↔
      ¬ Interrupted fails root path :=
  ⟨fun resolves stopped => not_resolves_of_interrupted stopped resolves,
    resolves_of_not_interrupted⟩

/-- The tree `{"a": {"b": 1}}`. -/
def nestedRoot : CJson :=
  .object none [.object (some [0x61]) [.number (some [0x62]) 1 0x3ff0000000000000]]

/-- With the second allocation failing, `a.b` gives the object `a`. -/
theorem getJsonObjFromPath_resolves_fails :
    ¬ ∀ (fails : Nat → Bool) (root : CJson) (path : List UInt8),
      Resolves fails root path (getJsonObjFromPath fails root path) := by
  intro always
  apply not_resolves_of_interrupted _ (always (· == 1) nestedRoot [0x61, dot, 0x62])
  refine ⟨1, by decide, by decide, rfl, ?_, by decide⟩
  intro m first
  obtain rfl : m = 0 := by omega
  rfl

end KongjaExpress.Utils
