import Warrant.Scope.Basic

/-!
# Coverage of scopes and lookup of ids

A scope covers another one if it is no longer and matches it subject by subject: a wildcard type
matches every type, and a wildcard id or no id matches every id.  Ids are looked up by type, and
the first subject of the type decides.

**Results.**
* `covers_global`: the global scope covers every scope.
-/

namespace Warrant

/-- Whether a subject matches the one at the same place of a covered scope. -/
def Subject.matchesChild (parent child : Subject) : Bool :=
  (parent.kind == wildcard || parent.kind == child.kind) &&
    (match parent.id with
      | none => true
      | some id => id == wildcard || child.id == some id)

namespace Scope

/-- Whether the subjects of a path match the beginning of another one. -/
def coversSubjects : List Subject → List Subject → Bool
  | [], _ => true
  | _ :: _, [] => false
  | p :: ps, c :: cs => p.matchesChild c && coversSubjects ps cs

/-- Whether the scope covers another one. -/
def covers (s t : Scope) : Bool :=
  coversSubjects s.subjects t.subjects

/-- The id of the first subject with the given type, if it has one. -/
def idOf? (s : Scope) (kind : String) : Option String :=
  (s.subjects.find? (·.kind == normalizeSegment kind)).bind Subject.id

/-- The ids of several types, each of which must be there. -/
def idsOf (s : Scope) (keys : List String) : Except ScopeError (List (String × String)) :=
  keys.mapM fun key =>
    match s.idOf? key with
    | some id => .ok (key, id)
    | none => .error (.missingKey key s.text)

@[simp] theorem covers_global (s : Scope) : global.covers s = true := rfl

end Scope
end Warrant
