import Warrant.Ability.Config
import Warrant.Condition.Query
import Warrant.Permission.Basic
import Warrant.Scope.Pattern

/-!
# Coverage of requests by grants

Whether a granted permission covers a requested one, whatever their effects: the scope of the
request fits the pattern of the granted scope, all its actions and subjects are granted, the
granted conditions hold in the context, and the requested conditions are among the granted ones.
What one side leaves open restricts nothing.  A pattern that cannot be built fits no scope, and
conditions that are faulty do not hold.
-/

namespace Warrant
namespace Permission

/-- Whether granted names include all requested ones, or the global name. -/
def coversNames (globalName : String) (granted requested : List String) : Bool :=
  granted.contains globalName || requested.all granted.contains

/-- Whether requested conditions are among the granted ones. -/
def coversConditions (granted requested : Option Object) : Bool :=
  match granted, requested with
  | some g, some r => Condition.subset r g
  | _, _ => true

section Languages

variable [Languages]

/-- Whether a granted scope allows a requested one. -/
def coversScope (granted requested : Option Scope) : Bool :=
  match requested with
  | none => true
  | some r =>
      match granted with
      | none => true
      | some g =>
          g.isGlobal ||
            match g.pattern with
            | .ok pattern => pattern.accepts r.text
            | .error _ => false

/-- Whether granted conditions hold in a context. -/
def holdsIn (conditions : Option Object) (context : Option Json) : Bool :=
  match conditions, context with
  | some query, some c =>
      match Condition.matchesQuery query c with
      | .ok holds => holds
      | .error _ => false
  | _, _ => true

/-- Whether a granted permission covers a requested one in a context. -/
def covers (config : Config) (granted requested : Permission) (context : Option Json) : Bool :=
  coversScope granted.scope requested.scope &&
    coversNames config.globalAction granted.actions requested.actions &&
    coversNames config.globalSubject granted.subjects requested.subjects &&
    holdsIn granted.conditions context &&
    coversConditions granted.conditions requested.conditions

/-- Whether a granted permission speaks for a requested one: it covers it if they have the same
effect, and does not cover it otherwise. -/
def agrees (config : Config) (granted requested : Permission) (context : Option Json) : Bool :=
  if granted.effect = requested.effect then covers config granted requested context
  else !covers config granted requested context

end Languages

end Permission
end Warrant
