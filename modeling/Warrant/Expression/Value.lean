import Warrant.Json.Basic
import Warrant.Number.Extended

/-!
# Values of expressions

What an expression evaluates to.  Integers are signed or unsigned, which matters for arithmetic
but not for comparison: numbers of all sorts compare by value.  A map has keys of its own kind.  A
function that is taken as an attribute is a value too, but nothing can be done with it.
-/

namespace Warrant
namespace Expression

/-- A key of a map. -/
inductive Key where
  | int (n : Int)
  | uint (n : Nat)
  | bool (b : Bool)
  | text (s : String)
deriving DecidableEq

/-- A value. -/
inductive Value where
  | null
  | bool (b : Bool)
  | int (n : Int)
  | uint (n : Nat)
  | float (x : Extended)
  | text (s : String)
  | list (items : List Value)
  | map (entries : List (Key × Value))
  | function (name : String) (target : Value)
deriving Inhabited

/-- A key as a value. -/
def Key.toValue : Key → Value
  | .int n => .int n
  | .uint n => .uint n
  | .bool b => .bool b
  | .text s => .text s

namespace Value

/-- The value as a key; not every value is one. -/
def toKey? : Value → Option Key
  | .int n => some (.int n)
  | .uint n => some (.uint n)
  | .bool b => some (.bool b)
  | .text s => some (.text s)
  | _ => none

/-- A number of data: an integer that is not negative is unsigned. -/
def ofNumber : Number → Value
  | .integer n => if 0 ≤ n.val then .uint n.val.toNat else .int n.val
  | .float x => .float (.finite x)

mutual

/-- A data value as a value. -/
def ofJson : Json → Value
  | .null => .null
  | .bool b => .bool b
  | .number n => ofNumber n
  | .string s => .text s
  | .array items => .list (ofItems items)
  | .object entries => .map (ofEntries entries)

/-- The items of a list of data. -/
def ofItems : List Json → List Value
  | [] => []
  | v :: rest => ofJson v :: ofItems rest

/-- The entries of an object. -/
def ofEntries : List (String × Json) → List (Key × Value)
  | [] => []
  | (k, v) :: rest => (.text k, ofJson v) :: ofEntries rest

end

/-- Whether a value counts as true in a choice or behind a logical operator. -/
def isTruthy : Value → Bool
  | .null => false
  | .bool b => b
  | .int n => n != 0
  | .uint n => n != 0
  | .float x => !x.isZero
  | .text s => s != ""
  | .list items => !items.isEmpty
  | .map entries => !entries.isEmpty
  | .function _ _ => false

/-- A number of any sort as a binary64 number. -/
def toFloat? : Value → Option Extended
  | .int n => some (.ofInt n)
  | .uint n => some (.ofInt n)
  | .float x => some x
  | _ => none

/-- The integer that a value of either sort of integers holds. -/
def toInt? : Value → Option Int
  | .int n => some n
  | .uint n => some n
  | _ => none

/-- The order of two numbers: integers by value, others as binary64 numbers. -/
def numberOrder? (v w : Value) : Option Ordering :=
  match v.toInt?, w.toInt? with
  | some m, some n => some (compare m n)
  | _, _ =>
      match v.toFloat?, w.toFloat? with
      | some x, some y => x.compare? y
      | _, _ => none

/-- The order of two values, if they have one. -/
def order? (v w : Value) : Option Ordering :=
  match v, w with
  | .null, .null => some .eq
  | .bool a, .bool b => some (compare a b)
  | .text s, .text t => some (compare s t)
  | v, w => numberOrder? v w

/-- The value under a key. -/
def find? (entries : List (Key × Value)) (k : Key) : Option Value :=
  entries.lookup k

/-- Puts a value under a key: in place of the old value, or at the end. -/
def insert : List (Key × Value) → Key → Value → List (Key × Value)
  | [], k, v => [(k, v)]
  | (k', v') :: rest, k, v => if k' = k then (k, v) :: rest else (k', v') :: insert rest k v

mutual

/-- Whether two values are equal. -/
def equal : Value → Value → Bool
  | .null, .null => true
  | .bool a, .bool b => a == b
  | .text s, .text t => s == t
  | .list xs, .list ys => equalItems xs ys
  | .map xs, .map ys => xs.length == ys.length && within xs ys
  | .function f x, .function g y => f == g && equal x y
  | v, w => numberOrder? v w == some .eq

/-- Whether two lists are equal, item by item. -/
def equalItems : List Value → List Value → Bool
  | [], [] => true
  | x :: xs, y :: ys => equal x y && equalItems xs ys
  | _, _ => false

/-- Whether every entry of the first map has an equal value in the second one. -/
def within : List (Key × Value) → List (Key × Value) → Bool
  | [], _ => true
  | (k, v) :: rest, other =>
      (match find? other k with
        | some w => equal v w
        | none => false) && within rest other

end

end Value
end Expression
end Warrant
