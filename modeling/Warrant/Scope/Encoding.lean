import Warrant.Scope.Basic

/-!
# Encodings of scopes

Every form in which a scope may be given: a text, a flat list of segments, a list of subjects, a
loosely typed data value, or an optional text.  All of them normalise to a `Scope`; those that
are texts also remember how they were written.
-/

namespace Warrant

namespace Subject

/-- The fields of a subject that were found so far. -/
structure Fields where
  kind : Option String := none
  id : Option (Option String) := none

/-- Takes one more entry of a subject's object.  Unknown entries are passed over. -/
def Fields.add (f : Fields) (name : String) (v : Json) : Except DecodeError Fields :=
  if name = "type" then return { f with kind := ← fillField name f.kind v.decodeString }
  else if name = "id" then
    return { f with id := ← fillField name f.id (v.decodeOptional Json.decodeString) }
  else return f

/-- The subject that an object describes. -/
def ofObject (o : Object) : Except DecodeError Subject := do
  let fields ← o.foldlM (fun f e => f.add e.1 e.2) ({} : Fields)
  return ⟨← requireField "type" fields.kind, fields.id.getD none⟩

end Subject

namespace Scope

/-- The subjects of a list of objects. -/
def decodeSubjects (objects : List Object) : Except ScopeError (List Subject) :=
  objects.mapM fun o => (Subject.ofObject o).mapError .badSubject

/-- The scope of a loosely typed value: null and the empty list are global, a string is a text, a
list of strings is a list of segments, and a list of objects is a list of subjects. -/
def ofJson (v : Json) : Except ScopeError Scope :=
  match v with
  | .null => .ok global
  | .string s => ofText s
  | .array items =>
      if items.isEmpty then .ok global
      else if items.all Json.isString then ofSegments (items.filterMap Json.asString?)
      else if items.all Json.isObject then do
        ofSubjects (← decodeSubjects (items.filterMap Json.asObject?))
      else .error (.unsupported v)
  | _ => .error (.unsupported v)

/-- A scope as a field of a record. -/
def decode (v : Json) : Except DecodeError Scope :=
  (ofJson v).mapError fun e => .refused e.message

end Scope

/-- A form in which a scope is given. -/
inductive ScopeSource where
  | text (s : String)
  | segments (parts : List String)
  | subjects (parts : List Subject)
  | value (v : Json)
  | optional (s : Option String)
  | scope (s : Scope)

namespace ScopeSource

/-- The scope that is given. -/
def toScope : ScopeSource → Except ScopeError Scope
  | .text s => Scope.ofText s
  | .segments parts => Scope.ofSegments parts
  | .subjects parts => Scope.ofSubjects parts
  | .value v => Scope.ofJson v
  | .optional (some s) => Scope.ofText s
  | .optional none => .ok Scope.global
  | .scope s => .ok s

/-- The scope as it was written, if it is given as a text. -/
def rawText? : ScopeSource → Option String
  | .text s => some s
  | .value v => v.asString?
  | .optional s => s
  | _ => none

end ScopeSource

/-- The scopes of a list joined in order. -/
def Scope.concat (sources : List ScopeSource) : Except ScopeError Scope := do
  let scopes ← sources.mapM ScopeSource.toScope
  return scopes.foldl Scope.join Scope.global

end Warrant
