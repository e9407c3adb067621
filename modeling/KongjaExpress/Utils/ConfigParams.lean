import KongjaExpress.Library.ByteMemory
import KongjaExpress.Utils.ConfigReader

/-! The parameters that `config_load_params` fills a structure with. -/

namespace KongjaExpress.Utils

open ByteMemory

/-- The union `ConfigParamValue`: its eight bytes as one word, low byte first. -/
structure ConfigParamValue where
  bits : BitVec 64
  deriving DecidableEq, Repr

namespace ConfigParamValue

def s (v : ConfigParamValue) : BitVec 64 := v.bits

def i (v : ConfigParamValue) : BitVec 32 := v.bits.extractLsb' 0 32

def d (v : ConfigParamValue) : BitVec 64 := v.bits

def setS (_v : ConfigParamValue) (value : BitVec 64) : ConfigParamValue := ⟨value⟩

/-- A store to `i` leaves the upper half alone. -/
def setI (v : ConfigParamValue) (value : BitVec 32) : ConfigParamValue :=
  ⟨v.bits.extractLsb' 32 32 ++ value⟩

def setD (_v : ConfigParamValue) (value : BitVec 64) : ConfigParamValue := ⟨value⟩

@[simp] theorem setI_i (v : ConfigParamValue) (value : BitVec 32) : (v.setI value).i = value :=
  BitVec.extractLsb'_append_eq_right

/-- The whole union survives a store to `i` that its lower half agrees with. -/
theorem setI_bits_iff (v : ConfigParamValue) (value : BitVec 32) :
    (v.setI value).bits = v.bits ↔ v.i = value := by
  constructor
  · intro same
    rw [← setI_i v value, i, i, same]
  · rintro rfl
    exact @BitVec.extractLsb'_append_extractLsb' 32 32 v.bits

end ConfigParamValue

inductive ConfigParamType
  | integer | double | string
  deriving DecidableEq, Repr

structure ConfigParamDef where
  path : List UInt8
  type : ConfigParamType
  offset : Int
  deriving DecidableEq, Repr

/-- Returns 0 or -1 and the value; `none` is the null store of `BUG()`. -/
def configGetParam (fails : Nat → Bool) (root : CJson) (path : List UInt8) (v : ConfigParamValue) :
    Option (Int × ConfigParamValue) :=
  match getJsonObjFromPath fails root path with
  | none => some (-1, v)
  | some node =>
      match node.item with
      | .number _ valueint valuedouble => some (0, (v.setD valuedouble).setI valueint)
      | .text _ valuestring => some (0, v.setS valuestring)
      | _ => none

def storeParam (param : ConfigParamDef) (v : ConfigParamValue) (memory : Int → UInt8) :
    Int → UInt8 :=
  match param.type with
  | .integer => writeAt memory param.offset (toBytes 4 v.i)
  | .double => writeAt memory param.offset (toBytes 8 v.d)
  | .string => writeAt memory param.offset (toBytes 8 v.s)

/-- The loop of `config_load_params`; `fails n m` is the failure of the `m`-th allocation made for
the `n`-th parameter. -/
def loadParams (fails : Nat → Nat → Bool) (root : CJson) :
    List (ConfigParamDef × Nat) → ConfigParamValue → (Int → UInt8) → Option (Int × (Int → UInt8))
  | [], _, memory => some (0, memory)
  | (param, n) :: params, v, memory =>
      match configGetParam (fails n) root param.path v with
      | none => none
      | some (returned, v) =>
          if returned ≠ 0 then some (-1, memory)
          else loadParams fails root params v (storeParam param v memory)

/-- The return value and the memory behind `base`. -/
def configLoadParams (fails : Nat → Nat → Bool) (root : CJson) (defs : List ConfigParamDef)
    (v : ConfigParamValue) (memory : Int → UInt8) : Option (Int × (Int → UInt8)) :=
  loadParams fails root defs.zipIdx v memory

def ConfigParamType.size : ConfigParamType → Nat
  | integer => 4
  | double => 8
  | string => 8

def Apart (param other : ConfigParamDef) : Prop :=
  Disjoint param.offset param.type.size other.offset other.type.size

/-- The node at the path of the parameter has the declared type, and the field its value. -/
def Holds (root : CJson) (memory : Int → UInt8) (param : ConfigParamDef) : Prop :=
  match param.type, (nodeAt root param.path).map CJsonNode.item with
  | .integer, some (.number _ valueint _) => readAt memory param.offset 4 = toBytes 4 valueint
  | .double, some (.number _ _ valuedouble) =>
      readAt memory param.offset 8 = toBytes 8 valuedouble
  | .string, some (.text _ valuestring) => readAt memory param.offset 8 = toBytes 8 valuestring
  | _, _ => False

/-- If the parameters are loaded, every field holds what the configuration says. -/
def LoadsConfiguration (fails : Nat → Nat → Bool) (root : CJson) (defs : List ConfigParamDef)
    (v : ConfigParamValue) (memory : Int → UInt8) : Prop :=
  ∀ after, configLoadParams fails root defs v memory = some (0, after) →
    ∀ param ∈ defs, Holds root after param

/-- The items `config_get_param` takes a value from. -/
def CJson.scalar : CJson → Bool
  | number _ _ _ => true
  | text _ _ => true
  | _ => false

/-- The components that are copied lead to no number and no string, or none is copied. -/
def Refused (fails : Nat → Bool) (root : CJson) (path : List UInt8) : Prop :=
  copied fails 0 (components path) = [] ∨
    ∀ node, lookupAll root.node (copied fails 0 (components path)) = some node →
      node.item.scalar = false

/-- An item of the declared type. The integer of a number that is declared a double is to be the
lower half of its pattern. -/
def Suits : ConfigParamType → Option CJson → Prop
  | .integer, some (.number _ _ _) => True
  | .double, some (.number _ valueint valuedouble) => valuedouble.extractLsb' 0 32 = valueint
  | .string, some (.text _ _) => True
  | _, _ => False

def Faithful (fails : Nat → Bool) (root : CJson) (param : ConfigParamDef) : Prop :=
  (∀ n < (components param.path).length, fails n = false) ∧
    Suits param.type ((nodeAt root param.path).map CJsonNode.item)

/-- What the union holds after `config_get_param` has read the item. -/
def valueOf : CJson → Option ConfigParamValue
  | .number _ valueint valuedouble => some ((ConfigParamValue.mk valuedouble).setI valueint)
  | .text _ valuestring => some ⟨valuestring⟩
  | _ => none

def fieldBytes (type : ConfigParamType) (v : ConfigParamValue) : List UInt8 :=
  match type with
  | .integer => toBytes 4 v.i
  | .double => toBytes 8 v.d
  | .string => toBytes 8 v.s

theorem fieldBytes_length (type : ConfigParamType) (v : ConfigParamValue) :
    (fieldBytes type v).length = type.size := by
  cases type <;> exact toBytes_length _ _

theorem storeParam_eq (param : ConfigParamDef) (v : ConfigParamValue) (memory : Int → UInt8) :
    storeParam param v memory = writeAt memory param.offset (fieldBytes param.type v) := by
  rw [storeParam]
  cases param.type <;> rfl

theorem configGetParam_eq (fails : Nat → Bool) (root : CJson) (path : List UInt8)
    (v : ConfigParamValue) :
    configGetParam fails root path v =
      match getJsonObjFromPath fails root path with
      | none => some (-1, v)
      | some node => (valueOf node.item).map fun value => (0, value) := by
  rw [configGetParam]
  cases getJsonObjFromPath fails root path with
  | none => rfl
  | some node =>
      rcases node with ⟨address, item⟩
      cases item <;> rfl

theorem scalar_cases (item : CJson) :
    (item.scalar = true ∧ item.child = [] ∧ ∃ value, valueOf item = some value) ∨
      (item.scalar = false ∧ valueOf item = none) := by
  cases item with
  | number _ _ _ => exact Or.inl ⟨rfl, rfl, _, rfl⟩
  | text _ _ => exact Or.inl ⟨rfl, rfl, _, rfl⟩
  | literal _ _ => exact Or.inr ⟨rfl, rfl⟩
  | array _ _ => exact Or.inr ⟨rfl, rfl⟩
  | object _ _ => exact Or.inr ⟨rfl, rfl⟩

theorem configGetParam_read {fails : Nat → Bool} {root : CJson} {path : List UInt8}
    (read : ¬ Refused fails root path) :
    ∃ node value, lookupAll root.node (copied fails 0 (components path)) = some node ∧
      node.item.child = [] ∧ valueOf node.item = some value ∧
      ∀ v, configGetParam fails root path v = some (0, value) := by
  rw [Refused] at read
  push Not at read
  rcases read with ⟨some', node, found, scalar⟩
  rcases scalar_cases node.item with ⟨-, leaf, value, same⟩ | ⟨plain, -⟩
  · refine ⟨node, value, found, leaf, same, fun v => ?_⟩
    rw [configGetParam_eq, getJsonObjFromPath_eq, if_neg some', found]
    simp only [same, Option.map_some]
  · exact absurd plain scalar

theorem configGetParam_refused {fails : Nat → Bool} {root : CJson} {path : List UInt8}
    (refused : Refused fails root path) (v after : ConfigParamValue) :
    configGetParam fails root path v ≠ some (0, after) := by
  have missed : (none : Option CJsonNode) = getJsonObjFromPath fails root path →
      configGetParam fails root path v ≠ some (0, after) := by
    intro missing
    rw [configGetParam_eq, ← missing]
    simp
  rw [getJsonObjFromPath_eq] at missed
  by_cases none : copied fails 0 (components path) = []
  · exact missed (if_pos none).symm
  · rw [if_neg none] at missed
    have missing := refused.resolve_left none
    cases found : lookupAll root.node (copied fails 0 (components path)) with
    | none => exact missed found.symm
    | some node =>
        rcases scalar_cases node.item with ⟨scalar, -⟩ | ⟨-, plain⟩
        · rw [missing node found] at scalar
          contradiction
        · rw [configGetParam_eq, getJsonObjFromPath_eq, if_neg none, found]
          simp [plain]

theorem number_integer {memory : Int → UInt8} {offset : Int} {valueint : BitVec 32}
    {valuedouble : BitVec 64}
    (stored : readAt memory offset 4 =
      toBytes 4 ((ConfigParamValue.mk valuedouble).setI valueint).i) :
    readAt memory offset 4 = toBytes 4 valueint := by
  rw [stored, ConfigParamValue.setI_i]

/-- A number that was read into a double's field: the store to `i` came after that to `d`. -/
theorem number_double {memory : Int → UInt8} {offset : Int} {valueint : BitVec 32}
    {valuedouble : BitVec 64}
    (stored : readAt memory offset 8 =
      toBytes 8 ((ConfigParamValue.mk valuedouble).setI valueint).d) :
    readAt memory offset 8 = toBytes 8 valuedouble ↔
      valuedouble.extractLsb' 0 32 = valueint := by
  rw [stored]
  exact (@toBytes_inj 8 _ _).trans
    (ConfigParamValue.setI_bits_iff (ConfigParamValue.mk valuedouble) valueint)

/-- Once a parameter is read, its field is right exactly if the parameter is faithful. -/
theorem holds_iff_faithful {fails : Nat → Bool} {root : CJson} {param : ConfigParamDef}
    {node : CJsonNode} {value : ConfigParamValue} {memory : Int → UInt8}
    (found : lookupAll root.node (copied fails 0 (components param.path)) = some node)
    (leaf : node.item.child = []) (same : valueOf node.item = some value)
    (stored : readAt memory param.offset param.type.size = fieldBytes param.type value) :
    Holds root memory param ↔ Faithful fails root param := by
  rw [Holds, Faithful]
  rcases copied_cases fails 0 (components param.path) with
    ⟨all, allocated⟩ | ⟨n, inside, cut, failed, -⟩
  · simp only [Nat.zero_add] at allocated
    rw [all] at found
    rw [nodeAt, found, Option.map_some, and_iff_right allocated]
    rcases node with ⟨address, item⟩
    rcases param with ⟨path, type, offset⟩
    cases item with
    | number _ valueint valuedouble =>
        obtain rfl := Option.some.inj same
        cases type with
        | integer => exact iff_of_true (number_integer stored) trivial
        | double => exact number_double stored
        | string => exact Iff.rfl
    | text _ valuestring =>
        obtain rfl := Option.some.inj same
        cases type with
        | integer => exact Iff.rfl
        | double => exact Iff.rfl
        | string => exact iff_of_true stored trivial
    | literal _ _ => cases same
    | array _ _ => cases same
    | object _ _ => cases same
  · -- the item the lookup stopped at has no children
    have more : (components param.path).drop n ≠ [] := by
      simpa using inside
    have nowhere : nodeAt root param.path = none := by
      rw [nodeAt, ← List.take_append_drop n (components param.path), lookupAll_append, ← cut, found]
      exact lookupAll_leaf leaf more
    rw [Nat.zero_add] at failed
    rw [nowhere]
    refine iff_of_false ?_ fun both => ?_
    · cases param.type <;> exact id
    · rw [both.1 n inside] at failed
      contradiction

theorem loadParams_cons {fails : Nat → Nat → Bool} {root : CJson} {param : ConfigParamDef} {n : Nat}
    {params : List (ConfigParamDef × Nat)} {v : ConfigParamValue} {memory after : Int → UInt8}
    (loaded : loadParams fails root ((param, n) :: params) v memory = some (0, after)) :
    ∃ value, configGetParam (fails n) root param.path v = some (0, value) ∧
      loadParams fails root params value (storeParam param value memory) = some (0, after) := by
  rw [loadParams] at loaded
  cases got : configGetParam (fails n) root param.path v with
  | none =>
      rw [got] at loaded
      contradiction
  | some result =>
      rcases result with ⟨returned, value⟩
      simp only [got] at loaded
      split_ifs at loaded with failed
      · have wrong := (Prod.mk.inj (Option.some.inj loaded)).1
        omega
      · obtain rfl : returned = 0 := not_not.mp failed
        exact ⟨value, rfl, loaded⟩

theorem loadParams_frame {fails : Nat → Nat → Bool} {root : CJson}
    {params : List (ConfigParamDef × Nat)} {v : ConfigParamValue} {memory after : Int → UInt8}
    (loaded : loadParams fails root params v memory = some (0, after)) {address : Int} {size : Nat}
    (outside : ∀ p ∈ params, Disjoint p.1.offset p.1.type.size address size) :
    readAt after address size = readAt memory address size := by
  induction params generalizing v memory with
  | nil =>
      obtain ⟨-, rfl⟩ := Prod.mk.inj (Option.some.inj loaded)
      rfl
  | cons p params ih =>
      rcases loadParams_cons loaded with ⟨value, -, rest⟩
      have here := outside p List.mem_cons_self
      rw [← fieldBytes_length p.1.type value] at here
      calc
        _ = readAt (storeParam p.1 value memory) address size :=
          ih rest fun q member => outside q (List.mem_cons_of_mem p member)
        _ = readAt memory address size := by
          rw [storeParam_eq]
          exact readAt_writeAt_disjoint memory here

/-- Every field holds the bytes of the value that was read for it: no later store reaches it. -/
theorem loadParams_fields {fails : Nat → Nat → Bool} {root : CJson}
    {params : List (ConfigParamDef × Nat)} (apart : params.Pairwise fun p q => Apart p.1 q.1)
    {v : ConfigParamValue} {memory after : Int → UInt8}
    (loaded : loadParams fails root params v memory = some (0, after)) :
    ∀ p ∈ params, ∃ before value,
      configGetParam (fails p.2) root p.1.path before = some (0, value) ∧
      readAt after p.1.offset p.1.type.size = fieldBytes p.1.type value := by
  induction params generalizing v memory with
  | nil => nofun
  | cons p params ih =>
      rcases List.pairwise_cons.mp apart with ⟨here, later⟩
      rcases loadParams_cons loaded with ⟨value, got, rest⟩
      rw [List.forall_mem_cons]
      refine ⟨⟨v, value, got, ?_⟩, ih later rest⟩
      have written := readAt_writeAt memory p.1.offset (fieldBytes p.1.type value)
      rw [fieldBytes_length] at written
      calc
        _ = readAt (storeParam p.1 value memory) p.1.offset p.1.type.size :=
          loadParams_frame rest fun q member => (here q member).symm
        _ = fieldBytes p.1.type value := by
          rw [storeParam_eq]
          exact written

theorem loadParams_returns {fails : Nat → Nat → Bool} {root : CJson}
    {params : List (ConfigParamDef × Nat)}
    (read : ∀ p ∈ params, ¬ Refused (fails p.2) root p.1.path) (v : ConfigParamValue)
    (memory : Int → UInt8) : ∃ after, loadParams fails root params v memory = some (0, after) := by
  induction params generalizing v memory with
  | nil => exact ⟨memory, rfl⟩
  | cons p params ih =>
      rcases List.forall_mem_cons.mp read with ⟨here, later⟩
      rcases configGetParam_read here with ⟨-, value, -, -, -, got⟩
      rcases ih later value (storeParam p.1 value memory) with ⟨after, rest⟩
      refine ⟨after, ?_⟩
      rw [loadParams, got v]
      exact rest

theorem loadParams_holds {fails : Nat → Nat → Bool} {root : CJson}
    {params : List (ConfigParamDef × Nat)} (apart : params.Pairwise fun p q => Apart p.1 q.1)
    {v : ConfigParamValue} {memory after : Int → UInt8}
    (loaded : loadParams fails root params v memory = some (0, after)) :
    ∀ p ∈ params, ¬ Refused (fails p.2) root p.1.path ∧
      (Holds root after p.1 ↔ Faithful (fails p.2) root p.1) := by
  intro p member
  rcases loadParams_fields apart loaded p member with ⟨before, value, got, stored⟩
  have read : ¬ Refused (fails p.2) root p.1.path :=
    fun refused => configGetParam_refused refused before value got
  rcases configGetParam_read read with ⟨node, same, found, leaf, served, always⟩
  obtain rfl : same = value :=
    (Prod.mk.inj (Option.some.inj ((always before).symm.trans got))).2
  exact ⟨read, holds_iff_faithful found leaf served stored⟩

theorem apart_zipIdx {defs : List ConfigParamDef} (apart : defs.Pairwise Apart) :
    defs.zipIdx.Pairwise fun p q => Apart p.1 q.1 := by
  apply List.pairwise_map.mp
  rw [List.zipIdx_map_fst]
  exact apart

/-- Where every parameter is read and one is not faithful, its field is wrong although 0 is
returned. -/
theorem faithful_of_loads {fails : Nat → Nat → Bool} {root : CJson} {defs : List ConfigParamDef}
    (apart : defs.Pairwise Apart) {v : ConfigParamValue} {memory : Int → UInt8}
    (read : ∀ p ∈ defs.zipIdx, ¬ Refused (fails p.2) root p.1.path)
    (loads : LoadsConfiguration fails root defs v memory) :
    ∀ p ∈ defs.zipIdx, Faithful (fails p.2) root p.1 := by
  intro p member
  rcases loadParams_returns read v memory with ⟨after, loaded⟩
  have right := loads after loaded p.1 (List.fst_mem_of_mem_zipIdx member)
  exact (loadParams_holds (apart_zipIdx apart) loaded p member).2.mp right

/-- The fields are right whenever 0 is returned exactly if some parameter is refused or all are
faithful. -/
theorem loadsConfiguration_iff (fails : Nat → Nat → Bool) (root : CJson)
    {defs : List ConfigParamDef} (apart : defs.Pairwise Apart) (v : ConfigParamValue)
    (memory : Int → UInt8) :
    LoadsConfiguration fails root defs v memory ↔
      (∃ p ∈ defs.zipIdx, Refused (fails p.2) root p.1.path) ∨
        ∀ p ∈ defs.zipIdx, Faithful (fails p.2) root p.1 := by
  constructor
  · intro loads
    by_cases refused : ∃ p ∈ defs.zipIdx, Refused (fails p.2) root p.1.path
    · exact Or.inl refused
    · push Not at refused
      exact Or.inr (faithful_of_loads apart refused loads)
  · intro condition after loaded param member
    have fields := loadParams_holds (apart_zipIdx apart) loaded
    rcases condition with ⟨p, listed, refused⟩ | faithful
    · exact absurd refused (fields p listed).1
    · rw [← List.zipIdx_map_fst 0 defs] at member
      rcases List.mem_map.mp member with ⟨p, listed, rfl⟩
      exact (fields p listed).2.mpr (faithful p listed)

/-- An object that holds one number, `r`. -/
def numberRoot (valueint : BitVec 32) (valuedouble : BitVec 64) : CJson :=
  .object none [.number (some [0x72]) valueint valuedouble]

def doubleParam : ConfigParamDef := ⟨[0x72], .double, 0⟩

/-- A half is loaded as it is. -/
theorem loadsConfiguration_half :
    LoadsConfiguration (fun _ _ => false) (numberRoot 0 0x3fe0000000000000) [doubleParam] ⟨0⟩
      fun _ => 0 :=
  (loadsConfiguration_iff (fun _ _ => false) (numberRoot 0 0x3fe0000000000000)
    (List.pairwise_singleton Apart doubleParam) ⟨0⟩ fun _ => 0).mpr <| Or.inr <| by
      intro p member
      obtain rfl := List.mem_singleton.mp member
      refine ⟨fun _ _ => rfl, ?_⟩
      change (0x3fe0000000000000 : BitVec 64).extractLsb' 0 32 = 0
      decide

/-- A one is loaded with its integer in the lower half of the double. -/
theorem loadsConfiguration_fails :
    ¬ ∀ (fails : Nat → Nat → Bool) (root : CJson) (defs : List ConfigParamDef)
      (v : ConfigParamValue) (memory : Int → UInt8), defs.Pairwise Apart →
      LoadsConfiguration fails root defs v memory := by
  intro always
  have loads := always (fun _ _ => false) (numberRoot 1 0x3ff0000000000000) [doubleParam] ⟨0⟩
    (fun _ => 0) (List.pairwise_singleton Apart doubleParam)
  have faithful := faithful_of_loads (List.pairwise_singleton Apart doubleParam) ?_ loads
    (doubleParam, 0) (List.mem_singleton.mpr rfl)
  · have lower : (0x3ff0000000000000 : BitVec 64).extractLsb' 0 32 = 1 := faithful.2
    exact absurd lower (by decide)
  · intro p member refused
    obtain rfl := List.mem_singleton.mp member
    rcases refused with none | missing
    · exact absurd none (by decide)
    · exact absurd (missing _ rfl) (by decide)

end KongjaExpress.Utils
