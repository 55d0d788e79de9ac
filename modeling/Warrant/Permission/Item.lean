import Warrant.Permission.Text

/-!
# Items of a permission list

An item is a permission, the text of one that is not decoded yet, or a group.  The scope and the
conditions of a group are inherited by everything in it.

**Results.**
* `same_group_iff`: equality of groups from that of their parts.
-/

namespace Warrant

/-- An entry of a permission list. -/
inductive Item where
  | encoded (text : String)
  | leaf (p : Permission)
  | group (members : List Item) (conditions : Option Object) (scope : Option Scope)
deriving Inhabited

/-- A group of items with what they inherit. -/
structure Group where
  members : List Item
  conditions : Option Object := none
  scope : Option Scope := none
deriving Inhabited

/-- A group as an item. -/
def Group.toItem (g : Group) : Item :=
  .group g.members g.conditions g.scope

namespace Item

/-- Whether the item is a decoded permission. -/
def isLeaf : Item → Bool
  | .leaf _ => true
  | _ => false

/-- Whether the item is a group. -/
def isGroup : Item → Bool
  | .group .. => true
  | _ => false

/-- The item with its text decoded; groups keep their members as they are. -/
def decode : Item → Except PermissionError Item
  | .encoded text => (Permission.parse text).map .leaf
  | item => .ok item

mutual

/-- Exact equality of items. -/
def same : Item → Item → Bool
  | .encoded s, .encoded t => s == t
  | .leaf p, .leaf q => p.same q
  | .group ms c s, .group ns d t =>
      sameMembers ms ns && Permission.sameConditions c d && s == t
  | _, _ => false

/-- Exact equality of lists of items. -/
def sameMembers : List Item → List Item → Bool
  | [], [] => true
  | x :: xs, y :: ys => same x y && sameMembers xs ys
  | _, _ => false

end

theorem same_group_iff (g h : Group) :
    g.toItem.same h.toItem = true ↔
      sameMembers g.members h.members = true ∧
        Permission.sameConditions g.conditions h.conditions = true ∧ g.scope = h.scope := by
  simp [Group.toItem, same, and_assoc]

end Item
end Warrant
