import Mathlib.Data.List.TakeWhile
import KongjaExpress.Utils.CJson

/-! The items of `cJSON.c` with the values they hold, and the arithmetic on `double` that
its parser and its printer call. -/

namespace KongjaExpress.Json

open Utils

/-- A string of C: its bytes up to the zero that ends it. -/
structure CString where
  bytes : List UInt8
  nonzero : 0 ∉ bytes

theorem CString.ext {s t : CString} (same : s.bytes = t.bytes) : s = t := by
  cases s
  cases t
  congr

def CString.ofMemory (memory : List UInt8) : CString where
  bytes := memory.takeWhile (· ≠ 0)
  nonzero := by
    intro member
    have plain := List.all_eq_true.mp
      (List.all_takeWhile : (memory.takeWhile (· ≠ 0)).all (· ≠ 0)) 0 member
    simp at plain

theorem CString.ofMemory_nonzero {memory : List UInt8} (nonzero : 0 ∉ memory) :
    (CString.ofMemory memory).bytes = memory := by
  apply List.takeWhile_eq_self_iff.mpr
  intro b member
  apply decide_eq_true
  intro zero
  exact nonzero (zero ▸ member)

theorem CString.ofMemory_bytes (s : CString) (behind : List UInt8) :
    CString.ofMemory (s.bytes ++ 0 :: behind) = s := by
  apply CString.ext
  have whole : ∀ b ∈ s.bytes, decide (b ≠ 0) = true := by
    intro b member
    apply decide_eq_true
    intro zero
    rw [zero] at member
    exact s.nonzero member
  change (s.bytes ++ 0 :: behind).takeWhile (· ≠ 0) = s.bytes
  rw [List.takeWhile_append_of_pos whole, List.takeWhile_cons_of_neg (by simp), List.append_nil]

/-- The conversions of `sprintf` that the printer uses on a `double`. -/
inductive DoubleFormat
  /-- `%.0f` -/
  | whole
  /-- `%e` -/
  | exponent
  /-- `%f` -/
  | fixed

/-- `double` and what the library computes on it. -/
structure Doubles (D : Type) where
  ofInt : Int → D
  /-- The cast to `int`. -/
  toInt : D → BitVec 32
  add : D → D → D
  sub : D → D → D
  mul : D → D → D
  pow : D → D → D
  fabs : D → D
  floor : D → D
  eq : D → D → Bool
  le : D → D → Bool
  lt : D → D → Bool
  dblEpsilon : D
  /-- The literals `1.0e60`, `1.0e9` and `1.0e-6`. -/
  tenTo : Int → D
  sprintf : DoubleFormat → D → CString

/-- An item without its links. The name of an item stands with it in its object's chain. -/
inductive Item (D : Type) where
  | literal (type : CJsonLiteral)
  | number (valueint : BitVec 32) (valuedouble : D)
  | text (valuestring : CString)
  | array (child : List (Item D))
  | object (child : List (CString × Item D))

variable {D : Type}

/-- Induction over a tree: an array and an object hold what their chains hold. -/
@[elab_as_elim, induction_eliminator]
theorem Item.induct {P : Item D → Prop} (literal : ∀ type, P (.literal type))
    (number : ∀ valueint valuedouble, P (.number valueint valuedouble))
    (text : ∀ valuestring, P (.text valuestring))
    (array : ∀ child, (∀ item ∈ child, P item) → P (.array child))
    (object : ∀ child, (∀ item ∈ child, P item.2) → P (.object child)) : ∀ item, P item
  | .literal type => literal type
  | .number valueint valuedouble => number valueint valuedouble
  | .text valuestring => text valuestring
  | .array child => array child fun item _ => Item.induct literal number text array object item
  | .object child =>
      object child fun item _ => Item.induct literal number text array object item.2
termination_by item => item
decreasing_by
  all_goals simp_wf
  · have := List.sizeOf_lt_of_mem ‹_ ∈ child›
    omega
  · have := List.sizeOf_lt_of_mem ‹_ ∈ child›
    have : sizeOf item = 1 + sizeOf item.1 + sizeOf item.2 := rfl
    omega

/-- A number that is an integer, as `cJSON_CreateNumber` makes it of one. -/
def Item.int (f : Doubles D) (n : BitVec 32) : Item D := .number n (f.ofInt n.toInt)

inductive Integral (f : Doubles D) : Item D → Prop
  | literal (type : CJsonLiteral) : Integral f (.literal type)
  | int (n : BitVec 32) : Integral f (.int f n)
  | text (valuestring : CString) : Integral f (.text valuestring)
  | array {child : List (Item D)} (all : ∀ item ∈ child, Integral f item) :
      Integral f (.array child)
  | object {child : List (CString × Item D)} (all : ∀ item ∈ child, Integral f item.2) :
      Integral f (.object child)

/-- The arithmetic of a `double` on integers it has bits enough for; a product that is a negative
zero is not among them. -/
structure Exact (f : Doubles D) : Prop where
  add : ∀ a b : Int, |a| ≤ 2 ^ 53 → |b| ≤ 2 ^ 53 → |a + b| ≤ 2 ^ 53 →
    f.add (f.ofInt a) (f.ofInt b) = f.ofInt (a + b)
  sub : ∀ a b : Int, |a| ≤ 2 ^ 53 → |b| ≤ 2 ^ 53 → |a - b| ≤ 2 ^ 53 →
    f.sub (f.ofInt a) (f.ofInt b) = f.ofInt (a - b)
  mul : ∀ a b : Int, |a| ≤ 2 ^ 53 → |b| ≤ 2 ^ 53 → |a * b| ≤ 2 ^ 53 →
    (a * b ≠ 0 ∨ (0 ≤ a ∧ 0 ≤ b)) → f.mul (f.ofInt a) (f.ofInt b) = f.ofInt (a * b)
  pow : f.pow (f.ofInt 10) (f.ofInt 0) = f.ofInt 1
  fabs : ∀ a : Int, |a| ≤ 2 ^ 53 → f.fabs (f.ofInt a) = f.ofInt |a|
  eq : ∀ a b : Int, |a| ≤ 2 ^ 53 → |b| ≤ 2 ^ 53 → f.eq (f.ofInt a) (f.ofInt b) = decide (a = b)
  le : ∀ a b : Int, |a| ≤ 2 ^ 53 → |b| ≤ 2 ^ 53 → f.le (f.ofInt a) (f.ofInt b) = decide (a ≤ b)
  epsilon : f.le (f.ofInt 0) f.dblEpsilon = true
  toInt : ∀ n : BitVec 32, f.toInt (f.ofInt n.toInt) = n

end KongjaExpress.Json
