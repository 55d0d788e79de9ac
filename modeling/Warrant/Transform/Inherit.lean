import Warrant.Condition.Merge
import Warrant.Permission.Item

/-!
# Inheritance of scopes and conditions

What a permission has from its surroundings: a scope in front of its own, and conditions under
its own.  Where only one of the two is there, it stands alone.

**Results.**
* `joinScope_none_left`, `mergeConditions_none_left`: nothing is inherited from nothing.
-/

namespace Warrant

/-- A scope and conditions that are passed on. -/
structure Inheritance where
  scope : Option Scope := none
  conditions : Option Object := none

namespace Inheritance

/-- The inherited scope in front of the own one. -/
def joinScope : Option Scope → Option Scope → Option Scope
  | some outer, some own => some (outer.join own)
  | some outer, none => some outer
  | none, own => own

/-- The own conditions over the inherited ones. -/
def mergeConditions : Option Object → Option Object → Option Object
  | some outer, some own => some (Condition.merge outer own)
  | some outer, none => some outer
  | none, own => own

/-- What is passed on behind a group with its own scope and conditions. -/
def extend (i : Inheritance) (conditions : Option Object) (scope : Option Scope) : Inheritance :=
  ⟨joinScope i.scope scope, mergeConditions i.conditions conditions⟩

@[simp] theorem joinScope_none_left (s : Option Scope) : joinScope none s = s := by
  cases s <;> rfl

@[simp] theorem mergeConditions_none_left (c : Option Object) : mergeConditions none c = c := by
  cases c <;> rfl

end Inheritance

/-- The permission with what it inherits. -/
def Permission.inherit (p : Permission) (i : Inheritance) : Permission :=
  { p with
    scope := Inheritance.joinScope i.scope p.scope
    conditions := Inheritance.mergeConditions i.conditions p.conditions }

end Warrant
