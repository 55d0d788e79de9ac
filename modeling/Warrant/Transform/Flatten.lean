import Warrant.Transform.Inherit

/-!
# Flattening of items

The permissions in a list of items, depth first and from left to right.  Each inherits the scopes
and conditions of all groups around it; texts are decoded on the way, and the first one that does
not decode is the fault of the whole list.

**Results.**
* `flatten_leaves`: a list of permissions is flat.
-/

namespace Warrant
namespace Item

mutual

/-- The permissions of an item that inherits `i`. -/
def leaves (i : Inheritance) : Item → Except PermissionError (List Permission)
  | .encoded text => (Permission.parse text).map fun p => [p.inherit i]
  | .leaf p => .ok [p.inherit i]
  | .group members conditions scope => leavesOfMembers (i.extend conditions scope) members

/-- The permissions of several items that inherit `i`. -/
def leavesOfMembers (i : Inheritance) : List Item → Except PermissionError (List Permission)
  | [] => .ok []
  | item :: rest => do
      let first ← leaves i item
      let others ← leavesOfMembers i rest
      return first ++ others

end

/-- The flat list of the permissions of some items.  What `outermost` holds is put around each
flattened permission. -/
def flatten (items : List Item) (outermost : Inheritance := {}) :
    Except PermissionError (List Permission) :=
  (leavesOfMembers {} items).map (List.map (Permission.inherit · outermost))

@[simp] theorem inherit_nothing (p : Permission) : p.inherit {} = p := by
  simp [Permission.inherit]

theorem flatten_leaves (ps : List Permission) : flatten (ps.map .leaf) = .ok ps := by
  have h : leavesOfMembers {} (ps.map .leaf) = .ok ps := by
    induction ps with
    | nil => rfl
    | cons p ps ih =>
        simp [leavesOfMembers, leaves, ih, bind, Except.bind, pure, Except.pure]
  simp [flatten, h, Except.map]

end Item
end Warrant
