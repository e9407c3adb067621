import KongjaExpress.Utils.ConfigParams
import KongjaExpress.Utils.JsonRoundTrip

/-! A configuration from the text of its file to the fields of a structure. -/

namespace KongjaExpress.Json

open Utils ByteMemory

variable {D : Type}

/-- The pattern of a `double`, and where the parser has put the string of an item. -/
structure Layout (D : Type) where
  bits : D → BitVec 64
  place : List Nat → BitVec 64

mutual

def built (layout : Layout D) : Option (List UInt8) → List Nat → Item D → CJson
  | name, _, .literal type => .literal name type
  | name, _, .number valueint valuedouble => .number name valueint (layout.bits valuedouble)
  | name, address, .text _ => .text name (layout.place address)
  | name, address, .array child => .array name (builtEntries layout address 0 child)
  | name, address, .object child => .object name (builtMembers layout address 0 child)

def builtEntries (layout : Layout D) (address : List Nat) : Nat → List (Item D) → List CJson
  | _, [] => []
  | index, item :: items =>
      built layout none (address ++ [index]) item :: builtEntries layout address (index + 1) items

def builtMembers (layout : Layout D) (address : List Nat) :
    Nat → List (CString × Item D) → List CJson
  | _, [] => []
  | index, (string, item) :: items =>
      built layout (some string.bytes) (address ++ [index]) item ::
        builtMembers layout address (index + 1) items

end

/-- What `open`, `fstat`, `malloc` and `read` return for a file. -/
structure FileCalls where
  fd : Int
  fstat : Int
  malloc : Bool
  read : BitVec 64

/-- `load_file_to_buffer`, whose `ret` is an `int`. -/
def loadFileToBuffer (calls : FileCalls) (file : List UInt8) : Option (List UInt8) :=
  if calls.fd < 0 then none
  else if calls.fstat = -1 then none
  else if !calls.malloc then none
  else if (calls.read.setWidth 32).toInt ≠ file.length then none
  else some (file ++ [0])

/-- `init_config_reader` on the bytes of its file: the root that it keeps; `none` is a file that is
not loaded. -/
def initConfigReader (f : Doubles D) (layout : Layout D) (calls : FileCalls) (file : List UInt8) :
    Option (Except Failure CJson) :=
  (loadFileToBuffer calls file).map fun buffer => built layout none [] <$> cJSONParse f buffer

/-- No call fails, and the whole file is read at once. -/
structure FileCalls.Succeed (calls : FileCalls) (file : List UInt8) : Prop where
  fd : 0 ≤ calls.fd
  fstat : calls.fstat = 0
  malloc : calls.malloc = true
  read : calls.read = BitVec.ofNat 64 file.length

/-- A file is loaded exactly if no call fails and `read` returns its size, which then is an
`int`. -/
theorem loadFileToBuffer_iff (calls : FileCalls) (file : List UInt8) :
    loadFileToBuffer calls file = some (file ++ [0]) ↔
      0 ≤ calls.fd ∧ calls.fstat ≠ -1 ∧ calls.malloc = true ∧
        (calls.read.setWidth 32).toInt = file.length := by
  rw [loadFileToBuffer]
  split_ifs with fd fstat malloc read <;> grind

theorem FileCalls.Succeed.loads {calls : FileCalls} {file : List UInt8}
    (succeed : calls.Succeed file) (small : file.length < 2 ^ 31) :
    loadFileToBuffer calls file = some (file ++ [0]) := by
  apply (loadFileToBuffer_iff calls file).mpr
  refine ⟨succeed.fd, ?_, succeed.malloc, ?_⟩
  · rw [succeed.fstat]
    decide
  · rw [succeed.read, BitVec.setWidth_ofNat_of_le (by decide), BitVec.toInt_ofNat']
    exact Int.bmod_eq_of_le (by omega) (by omega)

def Item.members : Item D → List (CString × Item D)
  | .object child => child
  | _ => []

/-- The first member of a name, in either case of its letters. -/
def Item.member (item : Item D) (name : List UInt8) : Option ((CString × Item D) × Nat) :=
  item.members.zipIdx.find? fun entry => cJSONStrcasecmp (some entry.1.1.bytes) (some name) = 0

def Item.lookup : Item D → List (List UInt8) → Option (List Nat × Item D)
  | item, [] => some ([], item)
  | item, name :: names => do
      let entry ← item.member name
      let (route, found) ← entry.1.2.lookup names
      return (entry.2 :: route, found)

variable {layout : Layout D}

@[simp] theorem built_string (name : Option (List UInt8)) (address : List Nat) (item : Item D) :
    (built layout name address item).string = name := by
  cases item <;> rw [built] <;> rfl

theorem builtMembers_find (name : List UInt8) (address : List Nat)
    (child : List (CString × Item D)) (index : Nat) :
    ((builtMembers layout address index child).zipIdx index).find? (fun entry =>
      cJSONStrcasecmp entry.1.string (some name) = 0) =
    ((child.zipIdx index).find? fun entry =>
      cJSONStrcasecmp (some entry.1.1.bytes) (some name) = 0).map fun entry =>
        (built layout (some entry.1.1.bytes) (address ++ [entry.2]) entry.1.2, entry.2) := by
  induction child generalizing index with
  | nil => rfl
  | cons first rest ih =>
      rcases first with ⟨string, item⟩
      rw [builtMembers, List.zipIdx_cons, List.zipIdx_cons]
      by_cases same : cJSONStrcasecmp (some string.bytes) (some name) = 0
      · rw [List.find?_cons_of_pos (by simpa using same),
          List.find?_cons_of_pos (by simpa using same)]
        rfl
      · rw [List.find?_cons_of_neg (by simpa using same),
          List.find?_cons_of_neg (by simpa using same)]
        exact ih (index + 1)

theorem builtEntries_find (name : List UInt8) (address : List Nat) (child : List (Item D))
    (index : Nat) :
    ((builtEntries layout address index child).zipIdx index).find? (fun entry =>
      cJSONStrcasecmp entry.1.string (some name) = 0) = none := by
  induction child generalizing index with
  | nil => rfl
  | cons first rest ih =>
      have unnamed : cJSONStrcasecmp none (some name) ≠ 0 := by
        rw [cJSONStrcasecmp]
        decide
      rw [builtEntries, List.zipIdx_cons, List.find?_cons_of_neg (by simpa using unnamed)]
      exact ih (index + 1)

theorem cJSONGetObjectItem_built (title : Option (List UInt8)) (address : List Nat) (item : Item D)
    (name : List UInt8) :
    cJSONGetObjectItem ⟨address, built layout title address item⟩ name =
      (item.member name).map fun entry =>
        ⟨address ++ [entry.2],
          built layout (some entry.1.1.bytes) (address ++ [entry.2]) entry.1.2⟩ := by
  rw [cJSONGetObjectItem]
  cases item with
  | literal type => rfl
  | number valueint valuedouble => rfl
  | text valuestring => rfl
  | array child =>
      have missed := @builtEntries_find D layout name address child 0
      exact congrArg (Option.map _) missed
  | object child =>
      have found := @builtMembers_find D layout name address child 0
      exact (congrArg (Option.map _) found).trans (Option.map_map ..)

theorem lookupAll_built {item found : Item D} {names : List (List UInt8)} {route : List Nat}
    (leads : item.lookup names = some (route, found)) (title : Option (List UInt8))
    (address : List Nat) :
    ∃ last, lookupAll ⟨address, built layout title address item⟩ names =
      some ⟨address ++ route, built layout last (address ++ route) found⟩ := by
  induction names generalizing item title address route with
  | nil =>
      obtain ⟨rfl, rfl⟩ := Prod.mk.inj (Option.some.inj leads)
      exact ⟨title, by rw [List.append_nil]; rfl⟩
  | cons name names ih =>
      rw [Item.lookup] at leads
      rcases Option.bind_eq_some_iff.mp leads with ⟨entry, here, leads⟩
      rcases Option.bind_eq_some_iff.mp leads with ⟨⟨rest, last⟩, later, same⟩
      obtain ⟨rfl, rfl⟩ := Prod.mk.inj (Option.some.inj same)
      rcases ih later (some entry.1.1.bytes) (address ++ [entry.2]) with ⟨end', reached⟩
      refine ⟨end', ?_⟩
      rw [lookupAll_cons, cJSONGetObjectItem_built, here, Option.map_some, Option.bind_some,
        reached, List.append_assoc]
      rfl

/-- A parameter whose path leads to an item of its type; a number declared a double is none. -/
def Declares (item : Item D) (param : ConfigParamDef) : Prop :=
  match param.type, item.lookup (components param.path) with
  | .integer, some (_, .number _ _) => True
  | .string, some (_, .text _) => True
  | _, _ => False

/-- The field of the parameter holds the integer, or points to where the string was put. -/
def FieldHolds (layout : Layout D) (item : Item D) (memory : Int → UInt8)
    (param : ConfigParamDef) : Prop :=
  match param.type, item.lookup (components param.path) with
  | .integer, some (_, .number valueint _) => readAt memory param.offset 4 = toBytes 4 valueint
  | .string, some (route, .text _) =>
      readAt memory param.offset 8 = toBytes 8 (layout.place route)
  | _, _ => False

theorem nodeAt_built {item found : Item D} {path : List UInt8} {route : List Nat}
    (leads : item.lookup (components path) = some (route, found)) :
    ∃ title, (nodeAt (built layout none [] item) path).map CJsonNode.item =
      some (built layout title route found) := by
  rcases @lookupAll_built D layout item found _ route leads none [] with ⟨title, reached⟩
  exact ⟨title, congrArg (Option.map CJsonNode.item) reached⟩

theorem declares_cases {item : Item D} {param : ConfigParamDef} (declares : Declares item param) :
    (param.type = .integer ∧ ∃ route valueint valuedouble,
      item.lookup (components param.path) = some (route, .number valueint valuedouble)) ∨
    (param.type = .string ∧ ∃ route valuestring,
      item.lookup (components param.path) = some (route, .text valuestring)) := by
  rw [Declares] at declares
  split at declares
  · rename_i type leads
    exact .inl ⟨type, _, _, _, leads⟩
  · rename_i type leads
    exact .inr ⟨type, _, _, leads⟩
  · contradiction

theorem declares_leads {item : Item D} {param : ConfigParamDef} (layout : Layout D)
    (declares : Declares item param) :
    ∃ route found, item.lookup (components param.path) = some (route, found) ∧
      ∀ title, Suits param.type (some (built layout title route found)) ∧
        (built layout title route found).scalar = true := by
  rcases declares_cases declares with ⟨type, route, valueint, valuedouble, leads⟩ |
    ⟨type, route, valuestring, leads⟩
  · refine ⟨route, _, leads, fun title => ?_⟩
    rw [type, built]
    exact ⟨trivial, rfl⟩
  · refine ⟨route, _, leads, fun title => ?_⟩
    rw [type, built]
    exact ⟨trivial, rfl⟩

theorem faithful_built {item : Item D} {param : ConfigParamDef} (declares : Declares item param) :
    Faithful (fun _ => false) (built layout none [] item) param := by
  rcases declares_leads layout declares with ⟨route, found, leads, suits⟩
  rcases @nodeAt_built D layout _ _ _ _ leads with ⟨title, reached⟩
  constructor
  · exact fun _ _ => rfl
  · rw [reached]
    exact (suits title).1

theorem fieldHolds_built {item : Item D} {memory : Int → UInt8} {param : ConfigParamDef}
    (declares : Declares item param) (holds : Holds (built layout none [] item) memory param) :
    FieldHolds layout item memory param := by
  rcases declares_cases declares with ⟨type, route, valueint, valuedouble, leads⟩ |
    ⟨type, route, valuestring, leads⟩
  · rcases @nodeAt_built D layout _ _ _ _ leads with ⟨title, reached⟩
    rw [Holds, reached, type, built] at holds
    rw [FieldHolds, leads, type]
    exact holds
  · rcases @nodeAt_built D layout _ _ _ _ leads with ⟨title, reached⟩
    rw [Holds, reached, type, built] at holds
    rw [FieldHolds, leads, type]
    exact holds

theorem not_refused_built {item : Item D} {param : ConfigParamDef}
    (declares : Declares item param) :
    ¬ Refused (fun _ => false) (built layout none [] item) param.path := by
  have whole : copied (fun _ => false) 0 (components param.path) = components param.path := by
    rcases copied_cases (fun _ => false) 0 (components param.path) with
      ⟨all, -⟩ | ⟨n, -, -, failed, -⟩
    · exact all
    · contradiction
  intro refused
  rw [Refused, whole] at refused
  rcases refused with empty | missing
  · rcases extract_components false param.path with ⟨first, rest, next, split, -⟩
    rw [split] at empty
    contradiction
  · rcases declares_leads layout declares with ⟨route, found, leads, suits⟩
    rcases @lookupAll_built D layout item found _ route leads none [] with ⟨title, reached⟩
    have plain := missing _ reached
    rw [List.nil_append, (suits title).2] at plain
    contradiction

theorem initConfigReader_print {f : Doubles D} (exact' : Exact f) (numbers : ShortNumbers f)
    {item : Item D} (integral : Integral f item) (short : Short f item) (layout : Layout D) :
    ∃ formatted plain, cJSONPrint f item = some formatted ∧
      cJSONPrintUnformatted f item = some plain ∧ ∀ calls file, file = formatted ∨ file = plain →
        calls.Succeed file → initConfigReader f layout calls file =
          some (.ok (built layout none [] item)) := by
  rcases cJSONParse_cJSONPrint exact' numbers integral short [] false with
    ⟨formatted, plain, printed, printed', parsed, parsed'⟩
  refine ⟨formatted, plain, printed, printed', fun calls file written succeed => ?_⟩
  have text : ∃ fmt, file = render f fmt 0 item := by
    rcases written with rfl | rfl
    · exact ⟨true, Option.some.inj (printed.symm.trans (printText_eq numbers short true))⟩
    · exact ⟨false, Option.some.inj (printed'.symm.trans (printText_eq numbers short false))⟩
  have small : file.length < 2 ^ 31 := by
    rcases text with ⟨fmt, rfl⟩
    have bound := short fmt
    omega
  have read : cJSONParseWithOpts f (file ++ [0]) false = .ok (item, [0]) := by
    rcases written with rfl | rfl
    · exact parsed
    · exact parsed'
  rw [initConfigReader, succeed.loads small, Option.map_some, cJSONParse, read]
  rfl

structure Loaded (layout : Layout D) (item : Item D) (defs : List ConfigParamDef)
    (memory after : Int → UInt8) : Prop where
  fields : ∀ param ∈ defs, FieldHolds layout item after param
  elsewhere : ∀ address size,
    (∀ param ∈ defs, Disjoint param.offset param.type.size address size) →
      readAt after address size = readAt memory address size

theorem configLoadParams_built {item : Item D} {defs : List ConfigParamDef}
    (apart : defs.Pairwise Apart) (declares : ∀ param ∈ defs, Declares item param)
    (v : ConfigParamValue) (memory : Int → UInt8) :
    ∃ after, configLoadParams (fun _ _ => false) (built layout none [] item) defs v memory =
      some (0, after) ∧ Loaded layout item defs memory after := by
  have faithful : ∀ p ∈ defs.zipIdx,
      Faithful (fun _ => false) (built layout none [] item) p.1 := by
    intro p member
    exact faithful_built (declares p.1 (List.fst_mem_of_mem_zipIdx member))
  have read : ∀ p ∈ defs.zipIdx,
      ¬ Refused (fun _ => false) (built layout none [] item) p.1.path := by
    intro p member
    exact not_refused_built (declares p.1 (List.fst_mem_of_mem_zipIdx member))
  rcases @loadParams_returns (fun _ _ => false) _ _ read v memory with ⟨after, loaded⟩
  have loads := (loadsConfiguration_iff (fun _ _ => false) (built layout none [] item) apart v
    memory).mpr (.inr faithful)
  refine ⟨after, loaded, ?_, ?_⟩
  · intro param member
    exact fieldHolds_built (declares param member) (loads after loaded param member)
  · intro address size outside
    apply loadParams_frame loaded
    intro p member
    exact outside p.1 (List.fst_mem_of_mem_zipIdx member)

/-- A configuration is written to a file, plain or formatted, and read from there into the fields
of a structure. -/
theorem config_file {f : Doubles D} (exact' : Exact f) (numbers : ShortNumbers f) {item : Item D}
    (integral : Integral f item) (short : Short f item) (layout : Layout D)
    {defs : List ConfigParamDef} (apart : defs.Pairwise Apart)
    (declares : ∀ param ∈ defs, Declares item param) (v : ConfigParamValue)
    (memory : Int → UInt8) :
    ∃ formatted plain root after, cJSONPrint f item = some formatted ∧
      cJSONPrintUnformatted f item = some plain ∧
      (∀ calls file, file = formatted ∨ file = plain → calls.Succeed file →
        initConfigReader f layout calls file = some (.ok root)) ∧
      configLoadParams (fun _ _ => false) root defs v memory = some (0, after) ∧
      Loaded layout item defs memory after := by
  rcases initConfigReader_print exact' numbers integral short layout with
    ⟨formatted, plain, printed, printed', read⟩
  rcases @configLoadParams_built D layout item defs apart declares v memory with
    ⟨after, loaded, right⟩
  exact ⟨formatted, plain, _, after, printed, printed', read, loaded, right⟩

/-- `{"net": {"Port": 9090}, "name": "kj"}` -/
def sampleConfig : Item Int :=
  .object [(⟨[0x6e, 0x65, 0x74], by decide⟩,
      .object [(⟨[0x50, 0x6f, 0x72, 0x74], by decide⟩, .int wholeDoubles 9090)]),
    (⟨[0x6e, 0x61, 0x6d, 0x65], by decide⟩, .text ⟨[0x6b, 0x6a], by decide⟩)]

/-- The paths `net.port` and `name`. -/
def sampleParams : List ConfigParamDef :=
  [⟨[0x6e, 0x65, 0x74, 0x2e, 0x70, 0x6f, 0x72, 0x74], .integer, 0⟩,
    ⟨[0x6e, 0x61, 0x6d, 0x65], .string, 8⟩]

def sampleLayout : Layout Int where
  bits n := BitVec.ofInt 64 n
  place route := 0x1000 + BitVec.ofNat 64 (16 * route.sum)

theorem sampleConfig_integral : Integral wholeDoubles sampleConfig := by
  apply Integral.object
  intro member listed
  simp only [List.mem_cons, List.not_mem_nil, or_false] at listed
  rcases listed with rfl | rfl
  · apply Integral.object
    intro member listed
    obtain rfl := List.mem_singleton.mp listed
    exact .int 9090
  · exact .text _

theorem sampleConfig_short : Short wholeDoubles sampleConfig := by
  intro fmt
  cases fmt <;> decide

theorem sampleConfig_loaded : ∃ formatted plain root after,
    cJSONPrint wholeDoubles sampleConfig = some formatted ∧
      cJSONPrintUnformatted wholeDoubles sampleConfig = some plain ∧
      (∀ calls file, file = formatted ∨ file = plain → FileCalls.Succeed calls file →
        initConfigReader wholeDoubles sampleLayout calls file = some (.ok root)) ∧
      configLoadParams (fun _ _ => false) root sampleParams ⟨0⟩ (fun _ => 0) = some (0, after) ∧
      Loaded sampleLayout sampleConfig sampleParams (fun _ => 0) after := by
  apply config_file wholeDoubles_exact wholeDoubles_short sampleConfig_integral
    sampleConfig_short
  · apply List.pairwise_cons.mpr
    constructor
    · intro other listed
      obtain rfl := List.mem_singleton.mp listed
      exact .inl (by decide)
    · exact List.pairwise_singleton Apart _
  · simp only [sampleParams, List.forall_mem_cons]
    exact ⟨trivial, trivial, fun _ => List.not_mem_nil.elim⟩

end KongjaExpress.Json
