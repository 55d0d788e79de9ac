import Warrant.Json.Basic

/-!
# Equality of condition values

Conditions compare numbers by value: an integer counts as the nearest binary64 number, so `1` and
`1.0` are equal.  Lists are equal item by item; objects are equal if they have as many entries and
every entry of the one is in the other.

**Results.**
* `subset_iff`: one object is within another if the other has an equal value under each key.
-/

namespace Warrant

/-- The value of a number as binary64 holds it, in units of `2 ^ -1074`. -/
def Number.value : Number → Int
  | .integer n => Binary64.nearestUnits n.val
  | .float x => x.units

namespace Condition

mutual

/-- Equality of values as conditions compare them. -/
def equal : Json → Json → Bool
  | .null, .null => true
  | .bool a, .bool b => a == b
  | .number m, .number n => m.value == n.value
  | .string s, .string t => s == t
  | .array xs, .array ys => equalItems xs ys
  | .object xs, .object ys => xs.length == ys.length && subset xs ys
  | _, _ => false

/-- Equality of lists, item by item. -/
def equalItems : List Json → List Json → Bool
  | [], [] => true
  | x :: xs, y :: ys => equal x y && equalItems xs ys
  | _, _ => false

/-- Whether every entry of the first object has an equal value in the second one. -/
def subset : List (String × Json) → Object → Bool
  | [], _ => true
  | (k, v) :: rest, other =>
      (match other.find? k with
        | some w => equal v w
        | none => false) && subset rest other

end

theorem subset_iff (xs : List (String × Json)) (other : Object) :
    subset xs other = true ↔ ∀ e ∈ xs, ∃ w, other.find? e.1 = some w ∧ equal e.2 w = true := by
  induction xs with
  | nil => simp [subset]
  | cons e xs ih =>
      obtain ⟨k, v⟩ := e
      simp only [subset, Bool.and_eq_true, ih, List.forall_mem_cons]
      cases other.find? k <;> simp

end Condition
end Warrant
