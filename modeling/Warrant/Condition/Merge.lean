import Warrant.Json.Basic

/-!
# Merging of condition queries

The entries of the second query are put over those of the first one.  Two objects under one key
are merged in turn; otherwise the second value replaces the first one in its place, and a new key
is put at the end.

**Results.**
* `merge_nil`: an empty query changes nothing.
* `merge_cons`: the entries are put over one after the other.
-/

namespace Warrant
namespace Condition

mutual

/-- The value that stands under a key once `new` was put over `old`. -/
def overlay (old : Option Json) : Json → Json
  | .object entries =>
      match old with
      | some (.object base) => .object (mergeEntries base entries)
      | _ => .object entries
  | v => v

/-- The object with the entries put over it. -/
def mergeEntries (base : Object) : List (String × Json) → Object
  | [] => base
  | (k, v) :: rest => mergeEntries (base.insert k (overlay (base.find? k) v)) rest

end

/-- The second query put over the first one. -/
def merge (base layer : Object) : Object :=
  mergeEntries base layer

@[simp] theorem merge_nil (base : Object) : merge base [] = base := by
  simp [merge, mergeEntries]

theorem merge_cons (base : Object) (k : String) (v : Json) (rest : Object) :
    merge base ((k, v) :: rest) = merge (base.insert k (overlay (base.find? k) v)) rest := by
  simp [merge, mergeEntries]

end Condition
end Warrant
