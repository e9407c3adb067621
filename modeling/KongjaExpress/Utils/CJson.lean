import Mathlib.Tactic

/-! The trees that `cJSON.c` builds, and the lookup of a child by its name. -/

namespace KongjaExpress.Utils

inductive CJsonLiteral
  | cJSONFalse | cJSONTrue | cJSONNull
  deriving DecidableEq, Repr

/-- `cJSON`, with `string` the name the item has in an object. The `child` chain of an array or an
object is a list; no other item has one. -/
inductive CJson where
  | literal (string : Option (List UInt8)) (type : CJsonLiteral)
  | number (string : Option (List UInt8)) (valueint : BitVec 32) (valuedouble : BitVec 64)
  | text (string : Option (List UInt8)) (valuestring : BitVec 64)
  | array (string : Option (List UInt8)) (child : List CJson)
  | object (string : Option (List UInt8)) (child : List CJson)

namespace CJson

def string : CJson → Option (List UInt8)
  | literal string _ => string
  | number string _ _ => string
  | text string _ => string
  | array string _ => string
  | object string _ => string

def child : CJson → List CJson
  | array _ child => child
  | object _ child => child
  | _ => []

end CJson

/-- `tolower` in the C locale. -/
def tolower (c : UInt8) : UInt8 := if 0x41 ≤ c ∧ c ≤ 0x5a then c + 0x20 else c

/-- The loop of `cJSON_strcasecmp`; a string ends with a zero. -/
def strcasecmpLoop : List UInt8 → List UInt8 → Int
  | [], [] => 0
  | a :: s, b :: t => if tolower a = tolower b then strcasecmpLoop s t
      else (tolower a).toNat - (tolower b).toNat
  | a :: _, [] => (tolower a).toNat
  | [], b :: _ => - ((tolower b).toNat : Int)

/-- `cJSON_strcasecmp`; `none` is a null pointer. -/
def cJSONStrcasecmp : Option (List UInt8) → Option (List UInt8) → Int
  | none, none => 0
  | none, some _ => 1
  | some _, none => 1
  | some s, some t => strcasecmpLoop s t

/-- A pointer to an item: the way to it from the root, and the item. -/
structure CJsonNode where
  address : List Nat
  item : CJson

def CJson.node (root : CJson) : CJsonNode := ⟨[], root⟩

/-- `cJSON_GetObjectItem`: the first child of that name. -/
def cJSONGetObjectItem (object : CJsonNode) (string : List UInt8) : Option CJsonNode :=
  (object.item.child.zipIdx.find? fun (item, _) =>
    cJSONStrcasecmp item.string (some string) = 0).map fun (item, index) =>
      ⟨object.address ++ [index], item⟩

def lookupAll (node : CJsonNode) (names : List (List UInt8)) : Option CJsonNode :=
  names.foldlM cJSONGetObjectItem node

theorem cJSONGetObjectItem_address {object node : CJsonNode} {string : List UInt8}
    (found : cJSONGetObjectItem object string = some node) :
    ∃ index, node.address = object.address ++ [index] := by
  rcases Option.map_eq_some_iff.mp found with ⟨⟨item, index⟩, -, rfl⟩
  exact ⟨index, rfl⟩

theorem lookupAll_cons {node : CJsonNode} (name : List UInt8) (names : List (List UInt8)) :
    lookupAll node (name :: names) =
      (cJSONGetObjectItem node name).bind fun node => lookupAll node names :=
  rfl

theorem lookupAll_append (node : CJsonNode) (front back : List (List UInt8)) :
    lookupAll node (front ++ back) =
      (lookupAll node front).bind fun node => lookupAll node back :=
  List.foldlM_append

theorem lookupAll_depth {node last : CJsonNode} {names : List (List UInt8)}
    (found : lookupAll node names = some last) :
    last.address.length = node.address.length + names.length := by
  induction names generalizing node with
  | nil =>
      obtain rfl := Option.some.inj found
      rfl
  | cons name names ih =>
      rw [lookupAll_cons] at found
      rcases Option.bind_eq_some_iff.mp found with ⟨child, first, rest⟩
      rcases cJSONGetObjectItem_address first with ⟨index, below⟩
      rw [ih rest, below, List.length_append, List.length_cons, List.length_cons, List.length_nil]
      omega

theorem lookupAll_leaf {node : CJsonNode} (leaf : node.item.child = []) {names : List (List UInt8)}
    (more : names ≠ []) : lookupAll node names = none := by
  rcases List.exists_cons_of_ne_nil more with ⟨name, rest, rfl⟩
  rw [lookupAll_cons, cJSONGetObjectItem, leaf]
  rfl

end KongjaExpress.Utils
