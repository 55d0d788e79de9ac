import Warrant.Json.Basic

/-!
# Exact equality of data values

Two values are the same if they differ at most in the order of the entries of their objects and
in the sign of a zero.  The integer one and the number `1.0` are different: this is the equality
of grouping keys, not the one of conditions.

**Results.**
* `same_array_cons`, `same_object_iff`: equality of lists and objects from that of their parts.
-/

namespace Warrant

/-- Exact equality of numbers: of one sort, and equal in value. -/
def Number.same : Number → Number → Bool
  | .integer m, .integer n => m == n
  | .float x, .float y => x.units == y.units
  | _, _ => false

namespace Json

mutual

/-- Exact equality of values. -/
def same : Json → Json → Bool
  | .null, .null => true
  | .bool a, .bool b => a == b
  | .number m, .number n => m.same n
  | .string s, .string t => s == t
  | .array xs, .array ys => sameItems xs ys
  | .object xs, .object ys => xs.length == ys.length && sameEntries xs ys
  | _, _ => false

/-- Exact equality of lists, item by item. -/
def sameItems : List Json → List Json → Bool
  | [], [] => true
  | x :: xs, y :: ys => same x y && sameItems xs ys
  | _, _ => false

/-- Whether every entry of the first object is in the second one. -/
def sameEntries : List (String × Json) → Object → Bool
  | [], _ => true
  | (k, v) :: rest, other =>
      (match other.find? k with
        | some w => same v w
        | none => false) && sameEntries rest other

end

theorem same_array_cons (x y : Json) (xs ys : List Json) :
    same (.array (x :: xs)) (.array (y :: ys)) = (same x y && same (.array xs) (.array ys)) := by
  simp [same, sameItems]

theorem sameEntries_iff (xs : List (String × Json)) (other : Object) :
    sameEntries xs other = true ↔ ∀ e ∈ xs, ∃ w, other.find? e.1 = some w ∧ same e.2 w = true := by
  induction xs with
  | nil => simp [sameEntries]
  | cons e xs ih =>
      obtain ⟨k, v⟩ := e
      simp only [sameEntries, Bool.and_eq_true, ih, List.forall_mem_cons]
      cases other.find? k <;> simp

theorem same_object_iff (xs ys : Object) :
    same (.object xs) (.object ys) = true ↔
      xs.length = ys.length ∧ ∀ e ∈ xs, ∃ w, ys.find? e.1 = some w ∧ same e.2 w = true := by
  simp [same, sameEntries_iff]

end Json

/-- Exact equality of objects. -/
def Object.same (a b : Object) : Bool :=
  Json.same (.object a) (.object b)

end Warrant
