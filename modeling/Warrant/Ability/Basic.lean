import Warrant.Ability.Covers
import Warrant.Transform.Flatten

/-!
# Abilities

An ability decides requests by a flat list of granted permissions.  A pair of a subject and an
action is allowed if no denial covers it and some grant does.  A request to be allowed passes if
all its pairs are allowed, a request to be denied if none is; a request without pairs never
passes.
-/

namespace Warrant

/-- A flat list of granted permissions with the names that cover all others. -/
structure Ability where
  permissions : List Permission
  config : Config := {}
deriving Inhabited

namespace Ability

/-- The ability of a list of granted items. -/
def ofItems (items : List Item) (config : Config := {}) : Except PermissionError Ability :=
  (Item.flatten items).map fun ps => ⟨ps, config⟩

section Languages

variable [Languages]

/-- Whether a permission of the given effect covers a request. -/
def someCovers (ability : Ability) (effect : Effect) (request : Permission)
    (context : Option Json) : Bool :=
  ability.permissions.any fun p => p.effect == effect && p.covers ability.config request context

/-- Whether a request for one subject and one action is allowed. -/
def allows (ability : Ability) (request : Permission) (context : Option Json) : Bool :=
  !ability.someCovers .cannot request context && ability.someCovers .can request context

/-- Whether a request for one subject and one action passes. -/
def passesSingle (ability : Ability) (request : Permission) (context : Option Json) : Bool :=
  match request.effect with
  | .can => ability.allows request context
  | .cannot => !ability.allows request context

/-- Whether a request passes: it names a subject and an action, and all its pairs pass. -/
def passes (ability : Ability) (request : Permission) (context : Option Json) : Bool :=
  !request.expand.isEmpty && request.expand.all (ability.passesSingle · context)

/-- Whether all requested items pass. -/
def has (ability : Ability) (requests : List Item) (context : Option Json) :
    Except PermissionError Bool :=
  (Item.flatten requests).map fun ps => ps.all (ability.passes · context)

/-- Whether all requested items pass; another name for `has`. -/
def hasAll (ability : Ability) (requests : List Item) (context : Option Json) :
    Except PermissionError Bool :=
  ability.has requests context

/-- Whether one of the requested items passes. -/
def hasAny (ability : Ability) (requests : List Item) (context : Option Json) :
    Except PermissionError Bool :=
  (Item.flatten requests).map fun ps => ps.any (ability.passes · context)

/-- Whether the actions are allowed on the subjects. -/
def can (ability : Ability) (actions subjects : List String) : Bool :=
  ability.passes (Permission.can actions subjects) none

/-- Whether the actions are denied on the subjects. -/
def cannot (ability : Ability) (actions subjects : List String) : Bool :=
  ability.passes (Permission.cannot actions subjects) none

end Languages

end Ability
end Warrant
