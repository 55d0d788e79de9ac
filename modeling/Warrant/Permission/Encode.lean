import Warrant.Permission.Item

/-!
# Permissions as data values

A permission is an object with the keys subject, action, type, conditions and scope, and a group
one with permissions, conditions and scope; the last two keys stand only if there is something
under them.  A single name stands as a text, several stand as a list, and a scope as its text.

**Results.**
* `toJson_encoded`: a text that is not decoded yet stands as itself.
-/

namespace Warrant
namespace Permission

/-- One name as a text, any other number of names as a list. -/
def encodeNames : List String → Json
  | [name] => .string name
  | names => .array (names.map .string)

/-- The entries for conditions and scope, if there are any. -/
def encodeInherited (conditions : Option Object) (scope : Option Scope) : Object :=
  (conditions.map fun query => ("conditions", Json.object query)).toList ++
    (scope.map fun s => ("scope", Json.string s.text)).toList

/-- The permission as a data value. -/
def toJson (p : Permission) : Json :=
  .object ([("subject", encodeNames p.subjects), ("action", encodeNames p.actions),
      ("type", .string p.effect.word)] ++ encodeInherited p.conditions p.scope)

end Permission

namespace Item

mutual

/-- The item as a data value. -/
def toJson : Item → Json
  | .encoded text => .string text
  | .leaf p => p.toJson
  | .group members conditions scope =>
      .object (("permissions", .array (toJsonList members)) ::
        Permission.encodeInherited conditions scope)

/-- Every item as a data value. -/
def toJsonList : List Item → List Json
  | [] => []
  | item :: rest => toJson item :: toJsonList rest

end

theorem toJson_encoded (text : String) : (Item.encoded text).toJson = .string text := by
  simp [toJson]

end Item

/-- The group as a data value. -/
def Group.toJson (g : Group) : Json :=
  g.toItem.toJson

/-- Whether a data value looks like a permission. -/
def Json.looksLikePermission (v : Json) : Bool :=
  match v with
  | .object o => Object.hasKey o "subject" && Object.hasKey o "action"
  | _ => false

/-- Whether a data value looks like a group. -/
def Json.looksLikeGroup (v : Json) : Bool :=
  match v with
  | .object o => ((Object.find? o "permissions").bind Json.asArray?).isSome
  | _ => false

end Warrant
