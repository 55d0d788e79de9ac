import Warrant.Json.Decode
import Warrant.Permission.Item

/-!
# Permissions from data values

A permission is an object, or a list of its fields in the order subject, action, type,
conditions, scope.  A group is likewise an object or a list of its members, conditions and scope.
An item is a text, a group or a permission, whichever fits first.

The objects may hold a key twice, as they do when they come straight from a text; a field that is
given twice is a fault, and conditions and scopes are settled.
-/

namespace Warrant
namespace Permission

/-- The texts of a list of strings. -/
def decodeTexts : List Json → Option (List String)
  | [] => some []
  | .string s :: rest => (decodeTexts rest).map (s :: ·)
  | _ :: _ => none

/-- One name, or a list of names that is not empty. -/
def decodeNames (v : Json) : Except DecodeError (List String) :=
  match v with
  | .string s => .ok [s]
  | .array items =>
      match decodeTexts items with
      | none => .error (.noShape "OneOrMany")
      | some [] => .error .noNames
      | some names => .ok names
  | _ => .error (.noShape "OneOrMany")

/-- The effect with a given name. -/
def effectOf (name : String) : Except DecodeError Effect :=
  if name = "can" then .ok .can
  else if name = "cannot" then .ok .cannot
  else .error (.unknownVariant name)

/-- An effect: its name, or an object with its name as the only key, which holds null. -/
def decodeEffect (v : Json) : Except DecodeError Effect :=
  match v with
  | .string s => effectOf s
  | .object [(name, content)] => do
      let effect ← effectOf name
      match content with
      | .null => return effect
      | _ => throw (.wrongType content .unit)
  | .object _ => .error .notSingleKey
  | _ => .error (.wrongType v .textOrMap)

/-- A condition query. -/
def decodeConditions (v : Json) : Except DecodeError Object :=
  match v.settle with
  | .object query => .ok query
  | _ => .error (.wrongType v .map)

/-- A scope. -/
def decodeScope (v : Json) : Except DecodeError Scope :=
  Scope.decode v.settle

/-- The fields of a permission that were found so far. -/
structure Fields where
  subjects : Option (List String) := none
  actions : Option (List String) := none
  effect : Option Effect := none
  conditions : Option (Option Object) := none
  scope : Option (Option Scope) := none

namespace Fields

/-- Takes one more field.  Unknown fields are passed over. -/
def add (f : Fields) (name : String) (v : Json) : Except DecodeError Fields :=
  if name = "subject" then
    return { f with subjects := ← fillField name f.subjects (decodeNames v) }
  else if name = "action" then
    return { f with actions := ← fillField name f.actions (decodeNames v) }
  else if name = "type" then
    return { f with effect := ← fillField name f.effect (decodeEffect v) }
  else if name = "conditions" then
    return { f with
      conditions := ← fillField name f.conditions (v.decodeOptional decodeConditions) }
  else if name = "scope" then
    return { f with scope := ← fillField name f.scope (v.decodeOptional decodeScope) }
  else return f

/-- The permission with the fields that were found. -/
def toPermission (f : Fields) : Except DecodeError Permission := do
  return {
    subjects := ← requireField "subject" f.subjects
    actions := ← requireField "action" f.actions
    effect := f.effect.getD .can
    conditions := f.conditions.getD none
    scope := f.scope.getD none }

end Fields

/-- The names of the fields in the order of the list form. -/
def fieldNames : List String :=
  ["subject", "action", "type", "conditions", "scope"]

/-- The permission of an object. -/
def ofObject (o : Object) : Except DecodeError Permission := do
  (← o.foldlM (fun f e => f.add e.1 e.2) ({} : Fields)).toPermission

/-- The permission of a list of fields. -/
def ofArray (items : List Json) : Except DecodeError Permission := do
  let fields ← (fieldNames.zip items).foldlM (fun f e => f.add e.1 e.2) ({} : Fields)
  if items.length < 2 then throw (.tooShort items.length "Permission" 5)
  if 5 < items.length then throw (.tooLong items.length)
  fields.toPermission

/-- The permission that a data value describes. -/
def decode (v : Json) : Except DecodeError Permission :=
  match v with
  | .object o => ofObject o
  | .array items => ofArray items
  | _ => .error (.wrongType v (.record "Permission"))

end Permission

namespace Group

/-- The fields of a group that were found so far. -/
structure Fields where
  members : Option (List Item) := none
  conditions : Option (Option Object) := none
  scope : Option (Option Scope) := none

/-- The content of a field in which nothing was found before. -/
def fill? {α : Type} (slot decoded : Option α) : Option (Option α) :=
  match slot with
  | some _ => none
  | none => decoded.map some

/-- Takes one more field; `members` is its content as a list of items.  Why a value is no group
is never told, so there is no cause. -/
def Fields.add? (f : Fields) (name : String) (v : Json) (members : Option (List Item)) :
    Option Fields :=
  if name = "permissions" then
    (fill? f.members members).map fun ms => { f with members := ms }
  else if name = "conditions" then
    (fill? f.conditions (v.decodeOptional Permission.decodeConditions).toOption).map
      fun c => { f with conditions := c }
  else if name = "scope" then
    (fill? f.scope (v.decodeOptional Permission.decodeScope).toOption).map
      fun s => { f with scope := s }
  else some f

/-- The group with the fields that were found. -/
def Fields.toItem? (f : Fields) : Option Item :=
  f.members.map fun ms => .group ms (f.conditions.getD none) (f.scope.getD none)

/-- The names of the fields in the order of the list form. -/
def fieldNames : List String :=
  ["permissions", "conditions", "scope"]

end Group

namespace Item

mutual

/-- The item that a data value describes: a text, a group or a permission. -/
def ofJson? : Json → Option Item
  | .string s => some (.encoded s)
  | .array items =>
      match (listFields {} Group.fieldNames items).bind Group.Fields.toItem? with
      | some g => some g
      | none => (Permission.ofArray items).toOption.map .leaf
  | .object entries =>
      match (objectFields {} entries).bind Group.Fields.toItem? with
      | some g => some g
      | none => (Permission.ofObject entries).toOption.map .leaf
  | _ => none

/-- The items of a list. -/
def membersOf? : Json → Option (List Item)
  | .array items => ofItems? items
  | _ => none

/-- Every value of a list as an item. -/
def ofItems? : List Json → Option (List Item)
  | [] => some []
  | v :: rest =>
      match ofJson? v, ofItems? rest with
      | some item, some items => some (item :: items)
      | _, _ => none

/-- The fields of a group in an object. -/
def objectFields (f : Group.Fields) : List (String × Json) → Option Group.Fields
  | [] => some f
  | (name, v) :: rest =>
      match f.add? name v (membersOf? v) with
      | some f => objectFields f rest
      | none => none

/-- The fields of a group in a list, which has no more values than there are names. -/
def listFields (f : Group.Fields) : List String → List Json → Option Group.Fields
  | _, [] => some f
  | [], _ :: _ => none
  | name :: names, v :: rest =>
      match f.add? name v (membersOf? v) with
      | some f => listFields f names rest
      | none => none

end

/-- The item that a data value describes. -/
def ofJson (v : Json) : Except DecodeError Item :=
  match ofJson? v with
  | some item => .ok item
  | none => .error (.noShape "PermissionItem")

/-- The items of a list of data values. -/
def ofJsonList (vs : List Json) : Except DecodeError (List Item) :=
  vs.mapM ofJson

end Item
end Warrant
