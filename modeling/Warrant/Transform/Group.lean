import Warrant.Permission.Item

/-!
# Grouping of items

Items with the same scope and the same conditions are collected into one group, which takes both
over from them.  An explicit global scope and an empty query are keys of their own.  A nested
group that has nothing left passes its members on; an item that a group has already is not added
again.
-/

namespace Warrant

/-- What is left on the items instead of being grouped by. -/
structure GroupOptions where
  ignoreScope : Bool := false
  ignoreConditions : Bool := false

/-- The scope and the conditions that an item is grouped by. -/
structure GroupKey where
  conditions : Option Object
  scope : Option Scope

namespace Group

/-- The group's own key. -/
def key (g : Group) : GroupKey :=
  ⟨g.conditions, g.scope⟩

/-- Whether two keys are exactly equal. -/
def sameKey (a b : GroupKey) : Bool :=
  a.scope == b.scope && Permission.sameConditions a.conditions b.conditions

/-- The group with an item added, unless it has that item already. -/
def addMember (g : Group) (item : Item) : Group :=
  if g.members.any item.same then g else { g with members := g.members ++ [item] }

/-- The group with the items added in order. -/
def addMembers (g : Group) (items : List Item) : Group :=
  items.foldl addMember g

end Group

namespace Item

/-- The conditions and the scope of an item. -/
def inherited : Item → GroupKey
  | .encoded _ => ⟨none, none⟩
  | .leaf p => ⟨p.conditions, p.scope⟩
  | .group _ conditions scope => ⟨conditions, scope⟩

/-- The key of an item. -/
def key (options : GroupOptions) (item : Item) : GroupKey :=
  ⟨if options.ignoreConditions then none else item.inherited.conditions,
    if options.ignoreScope then none else item.inherited.scope⟩

/-- The item without what its key holds. -/
def unkeyed (options : GroupOptions) : Item → Item
  | .encoded text => .encoded text
  | .leaf p =>
      .leaf { p with
        conditions := if options.ignoreConditions then p.conditions else none
        scope := if options.ignoreScope then p.scope else none }
  | .group members conditions scope =>
      .group members (if options.ignoreConditions then conditions else none)
        (if options.ignoreScope then scope else none)

/-- The items that a keyed item contributes to its group. -/
def contribution : Item → Except PermissionError (List Item)
  | .group members none none => members.mapM decode
  | item => .ok [item]

/-- Adds items to the first group with the key, or to a new one behind the others. -/
def place (key : GroupKey) (items : List Item) : List Group → List Group
  | [] => [Group.addMembers ⟨[], key.conditions, key.scope⟩ items]
  | g :: rest =>
      if Group.sameKey g.key key then g.addMembers items :: rest
      else g :: place key items rest

/-- The groups with one more item. -/
def regroup (options : GroupOptions) (groups : List Group) (item : Item) :
    Except PermissionError (List Group) := do
  let item ← item.decode
  let items ← (item.unkeyed options).contribution
  return place (item.key options) items groups

/-- The groups of a list of items, in the order in which their keys first occur. -/
def collect (options : GroupOptions) (items : List Item) : Except PermissionError (List Group) :=
  items.foldlM (regroup options) []

end Item
end Warrant
