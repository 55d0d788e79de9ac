import Warrant.Json.Equality
import Warrant.Scope.Encoding

/-!
# Permissions

A permission grants or denies actions on subjects.  It may be restricted to a scope and carry a
condition query; an absent scope differs from an explicit global one, and absent conditions from
an empty query.

**Results.**
* `mem_expand_iff`: an expanded permission names one subject and one action and keeps the rest.
-/

namespace Warrant

/-- Whether a permission grants or denies. -/
inductive Effect where
  | can
  | cannot
deriving DecidableEq, Inhabited

/-- The word for an effect. -/
def Effect.word : Effect → String
  | .can => "can"
  | .cannot => "cannot"

/-- A grant or denial of actions on subjects. -/
structure Permission where
  subjects : List String
  actions : List String
  effect : Effect := .can
  conditions : Option Object := none
  scope : Option Scope := none
deriving Inhabited

namespace Permission

/-- The grant of actions on subjects. -/
def can (actions subjects : List String) : Permission :=
  { subjects, actions }

/-- The denial of actions on subjects. -/
def cannot (actions subjects : List String) : Permission :=
  { subjects, actions, effect := .cannot }

/-- The permission as a denial. -/
def denied (p : Permission) : Permission :=
  { p with effect := .cannot }

/-- The permission with a condition query; a value that is no object changes nothing. -/
def when (p : Permission) (v : Json) : Permission :=
  match v with
  | .object query => { p with conditions := some query }
  | _ => p

/-- The permission restricted to a scope in any form. -/
def inScope (p : Permission) (source : ScopeSource) : Except ScopeError Permission :=
  source.toScope.map fun s => { p with scope := some s }

/-- The permission for one subject and one action. -/
def single (p : Permission) (subject action : String) : Permission :=
  { p with subjects := [subject], actions := [action] }

/-- One permission for every pair of a subject and an action, subject by subject. -/
def expand (p : Permission) : List Permission :=
  p.subjects.flatMap fun s => p.actions.map (p.single s)

/-- Exact equality of optional condition queries. -/
def sameConditions : Option Object → Option Object → Bool
  | none, none => true
  | some a, some b => a.same b
  | _, _ => false

/-- Exact equality of permissions. -/
def same (p q : Permission) : Bool :=
  p.subjects == q.subjects && p.actions == q.actions && p.effect == q.effect &&
    sameConditions p.conditions q.conditions && p.scope == q.scope

/-- An expanded permission is the permission for one of its pairs. -/
theorem mem_expand_iff {p q : Permission} :
    q ∈ p.expand ↔ ∃ s ∈ p.subjects, ∃ a ∈ p.actions, p.single s a = q := by
  simp [expand]

end Permission
end Warrant
