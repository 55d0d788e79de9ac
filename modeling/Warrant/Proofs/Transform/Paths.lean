import Warrant.Proofs.Transform.Leaves

/-!
# Flattening along paths

Each text and each permission in a list of items stands at the end of a path of groups.  The flat
list has one permission for each path, in the order in which the paths are written, and what it
holds is read off its path: the scopes on the path one behind the other, and the conditions on the
path merged from the outside in, the permission's own ones last.

The walk over the items carries what a path has given so far, one scope and one query at most; the
path itself is the list of all that was passed.  One more group on the path is one step of both.

**Results.**
* `along_concat`: what a path gives after one more level.
* `keysDistinct_levels`: no conditions on a path hold a key twice.
* `leaves_eq_mapM`, `flatten_eq_mapM`: the flat list is read path by path.
* `scopeAlong_eq_none_iff`, `scopeAlong_eq_global_iff`, `conditionsAlong_eq_none_iff`: what is on a
  path.
* `flatten_along_paths`: when items flatten, and to what.
-/

namespace Warrant
namespace Inheritance

/-- The scopes that are present on a path, one behind the other. -/
def scopeAlong (levels : List Inheritance) : Option Scope :=
  match levels.filterMap Inheritance.scope with
  | [] => none
  | scopes => some ⟨scopes.flatMap Scope.subjects⟩

/-- The conditions that are present on a path, merged from left to right. -/
def conditionsAlong (levels : List Inheritance) : Option Object :=
  match levels.filterMap Inheritance.conditions with
  | [] => none
  | outermost :: others => some (others.foldl Condition.merge outermost)

/-- What a path gives. -/
def along (levels : List Inheritance) : Inheritance :=
  ⟨scopeAlong levels, conditionsAlong levels⟩

theorem scopeAlong_concat
    (levels : List Inheritance)
    (level : Inheritance) :
    scopeAlong (levels ++ [level]) = joinScope (scopeAlong levels) level.scope := by
  unfold scopeAlong
  rw [List.filterMap_append]
  cases hlevels : levels.filterMap Inheritance.scope with
  | nil =>
      cases hlevel : level.scope with
      | none => simp [hlevel]
      | some own => simp [hlevel, joinScope]
  | cons outermost others =>
      cases hlevel : level.scope with
      | none => simp [hlevel, joinScope]
      | some own => simp [hlevel, joinScope, Scope.join]

theorem conditionsAlong_concat
    (levels : List Inheritance)
    (level : Inheritance) :
    conditionsAlong (levels ++ [level]) =
      mergeConditions (conditionsAlong levels) level.conditions := by
  unfold conditionsAlong
  rw [List.filterMap_append]
  cases hlevels : levels.filterMap Inheritance.conditions with
  | nil =>
      cases hlevel : level.conditions with
      | none => simp [hlevel]
      | some own => simp [hlevel, mergeConditions]
  | cons outermost others =>
      cases hlevel : level.conditions with
      | none => simp [hlevel, mergeConditions]
      | some own => simp [hlevel, mergeConditions]

/-- What a path gives after one more level. -/
theorem along_concat
    (levels : List Inheritance)
    (level : Inheritance) :
    along (levels ++ [level]) = (along levels).extend level.conditions level.scope := by
  rw [along, scopeAlong_concat, conditionsAlong_concat]
  rfl

/-- A path gives no scope if none is present on it. -/
theorem scopeAlong_eq_none_iff
    {levels : List Inheritance} :
    scopeAlong levels = none ↔ ∀ level ∈ levels, level.scope = none := by
  rw [← List.filterMap_eq_nil_iff, scopeAlong]
  split
  next hnil => simp [hnil]
  next hne => simpa using hne

theorem scopeAlong_eq_some_iff
    {levels : List Inheritance}
    {s : Scope} :
    scopeAlong levels = some s ↔ levels.filterMap Inheritance.scope ≠ [] ∧
      (levels.filterMap Inheritance.scope).flatMap Scope.subjects = s.subjects := by
  obtain ⟨subjects⟩ := s
  unfold scopeAlong
  split
  next hnil => simp [hnil]
  next hne => simpa using fun _ => hne

/-- A path gives the global scope if it is present on it and no other scope is. -/
theorem scopeAlong_eq_global_iff
    {levels : List Inheritance} :
    scopeAlong levels = some Scope.global ↔
      (∃ level ∈ levels, level.scope = some Scope.global) ∧
        ∀ level ∈ levels, ∀ s ∈ level.scope, s = Scope.global := by
  have hpresent : ∀ s, s ∈ levels.filterMap Inheritance.scope ↔
      ∃ level ∈ levels, level.scope = some s := fun s => List.mem_filterMap
  have hglobal : ∀ s : Scope, s.subjects = [] ↔ s = Scope.global := by
    rintro ⟨subjects⟩
    simp [Scope.global]
  rw [scopeAlong_eq_some_iff, Scope.global, List.flatMap_eq_nil_iff]
  constructor
  · rintro ⟨hne, hall⟩
    have honly : ∀ level ∈ levels, ∀ s ∈ level.scope, s = Scope.global := by
      intro level hlevel s hs
      exact (hglobal s).1 (hall s ((hpresent s).2 ⟨level, hlevel, hs⟩))
    obtain ⟨s, hs⟩ := List.exists_mem_of_ne_nil _ hne
    obtain ⟨level, hlevel, hscope⟩ := (hpresent s).1 hs
    cases honly level hlevel s hscope
    exact ⟨⟨level, hlevel, hscope⟩, honly⟩
  · rintro ⟨⟨level, hlevel, hscope⟩, honly⟩
    refine ⟨List.ne_nil_of_mem ((hpresent _).2 ⟨level, hlevel, hscope⟩), ?_⟩
    intro s hs
    obtain ⟨level, hlevel, hscope⟩ := (hpresent s).1 hs
    exact (hglobal s).2 (honly level hlevel s hscope)

/-- A path gives no conditions if none are present on it. -/
theorem conditionsAlong_eq_none_iff
    {levels : List Inheritance} :
    conditionsAlong levels = none ↔ ∀ level ∈ levels, level.conditions = none := by
  rw [← List.filterMap_eq_nil_iff, conditionsAlong]
  split
  next hnil => simp [hnil]
  next hcons => simp [hcons]

end Inheritance

namespace Item

/-- What stands at the end of a path. -/
inductive Entry where
  | encoded (text : String)
  | leaf (p : Permission)

/-- The permission that an entry is or denotes. -/
def Entry.own : Entry → Except PermissionError Permission
  | .encoded text => Permission.parse text
  | .leaf p => .ok p

/-- An entry with what the groups around it hold, the outermost first. -/
structure Path where
  around : List Inheritance
  entry : Entry

mutual

/-- The paths that end in an item, behind the groups around it. -/
def paths (around : List Inheritance) : Item → List Path
  | .encoded text => [⟨around, .encoded text⟩]
  | .leaf p => [⟨around, .leaf p⟩]
  | .group members conditions scope => pathsOfMembers (around ++ [⟨scope, conditions⟩]) members

/-- The paths that end in several items, one item after the other. -/
def pathsOfMembers (around : List Inheritance) : List Item → List Path
  | [] => []
  | item :: rest => paths around item ++ pathsOfMembers around rest

end

theorem pathsOfMembers_eq_flatMap
    (around : List Inheritance)
    (items : List Item) :
    pathsOfMembers around items = items.flatMap (paths around) := by
  induction items with
  | nil => rfl
  | cons item items ih => rw [pathsOfMembers, List.flatMap_cons, ih]

namespace Path

/-- The path with the scope and the conditions of the permission at its end. -/
def levels (path : Path) (own : Permission) : List Inheritance :=
  path.around ++ [⟨own.scope, own.conditions⟩]

/-- The permission at the end of a path: its own names and effect, and what the path gives. -/
structure Gives (path : Path) (own p : Permission) : Prop where
  decoded : path.entry.own = .ok own
  subjects : p.subjects = own.subjects
  actions : p.actions = own.actions
  effect : p.effect = own.effect
  scope : p.scope = Inheritance.scopeAlong (path.levels own)
  conditions : p.conditions = Inheritance.conditionsAlong (path.levels own)

/-- The permission at the end of a path, as it is read. -/
def read (path : Path) : Except PermissionError Permission :=
  path.entry.own.map (Permission.inherit · (Inheritance.along path.around))

theorem read_eq_ok_iff
    {path : Path}
    {p : Permission} :
    path.read = .ok p ↔ ∃ own, path.Gives own p := by
  have hinherit : ∀ own : Permission, own.inherit (Inheritance.along path.around) =
      ⟨own.subjects, own.actions, own.effect, Inheritance.conditionsAlong (path.levels own),
        Inheritance.scopeAlong (path.levels own)⟩ := by
    intro own
    rw [levels, Inheritance.scopeAlong_concat, Inheritance.conditionsAlong_concat]
    rfl
  constructor
  · intro h
    obtain ⟨own, hown, rfl⟩ := exists_of_map_eq_ok h
    rw [hinherit]
    exact ⟨own, hown, rfl, rfl, rfl, rfl, rfl⟩
  · rintro ⟨own, hgives⟩
    rw [read, hgives.decoded, Except.map, hinherit, ← hgives.scope, ← hgives.conditions,
      ← hgives.subjects, ← hgives.actions, ← hgives.effect]

theorem read_eq_error_iff
    {path : Path}
    {e : PermissionError} :
    path.read = .error e ↔ path.entry.own = .error e := by
  unfold read
  cases path.entry.own with
  | error e' => exact Iff.rfl
  | ok own => exact ⟨nofun, nofun⟩

theorem exists_read_iff
    {path : Path} :
    (∃ p, path.read = .ok p) ↔ ∃ own, path.entry.own = .ok own := by
  unfold read
  cases path.entry.own with
  | error e => exact ⟨nofun, nofun⟩
  | ok own => exact ⟨fun _ => ⟨own, rfl⟩, fun _ => ⟨_, rfl⟩⟩

end Path

/-- No conditions on a path hold a key twice if none in the item do that it ends in. -/
theorem KeysDistinct.levels
    {item : Item} (hitem : item.KeysDistinct)
    {around : List Inheritance} (haround : ∀ level ∈ around, level.KeysDistinct)
    {path : Path} (hpath : path ∈ paths around item)
    {own : Permission} (hown : path.entry.own = .ok own) :
    ∀ level ∈ path.levels own, level.KeysDistinct := by
  induction hitem generalizing around with
  | encoded text =>
      rw [paths, List.mem_singleton] at hpath
      subst hpath
      exact List.forall_mem_append.2
        ⟨haround, List.forall_mem_singleton.2 (Permission.keysDistinct_of_parse hown)⟩
  | leaf hp =>
      rw [paths, List.mem_singleton] at hpath
      subst hpath
      cases hown
      exact List.forall_mem_append.2 ⟨haround, List.forall_mem_singleton.2 hp⟩
  | group scope _ hconditions ih =>
      rw [paths, pathsOfMembers_eq_flatMap, List.mem_flatMap] at hpath
      obtain ⟨m, hm, hpath⟩ := hpath
      refine ih m hm (List.forall_mem_append.2 ⟨haround, ?_⟩) hpath
      exact List.forall_mem_singleton.2 hconditions

theorem keysDistinct_levels
    {items : List Item} (hitems : ∀ item ∈ items, item.KeysDistinct)
    {path : Path} (hpath : path ∈ pathsOfMembers [] items)
    {own : Permission} (hown : path.entry.own = .ok own) :
    ∀ level ∈ path.levels own, level.KeysDistinct := by
  rw [pathsOfMembers_eq_flatMap, List.mem_flatMap] at hpath
  obtain ⟨item, hitem, hpath⟩ := hpath
  exact (hitems item hitem).levels (by simp) hpath hown

/-! The walk over the items reads the paths. -/

theorem leavesOfMembers_eq_mapM
    {i : Inheritance}
    {around : List Inheritance}
    {items : List Item}
    (h : ∀ item ∈ items, leaves i item = (paths around item).mapM Path.read) :
    leavesOfMembers i items = (pathsOfMembers around items).mapM Path.read := by
  induction items with
  | nil => rfl
  | cons item items ih =>
      obtain ⟨hitem, hitems⟩ := List.forall_mem_cons.1 h
      rw [leavesOfMembers, pathsOfMembers, List.mapM_append, hitem, ih hitems]

/-- The leaves of an item behind the groups around it are read path by path. -/
theorem leaves_eq_mapM
    (item : Item)
    (around : List Inheritance) :
    leaves (.along around) item = (paths around item).mapM Path.read := by
  induction item using Item.induction generalizing around with
  | encoded text =>
      rw [leaves, paths, List.mapM_cons, Path.read, Entry.own]
      cases Permission.parse text <;> rfl
  | leaf p => rfl
  | group members conditions scope ih =>
      rw [leaves, paths, ← Inheritance.along_concat around ⟨scope, conditions⟩]
      exact leavesOfMembers_eq_mapM fun m hm => ih m hm _

/-- The flat list is read path by path. -/
theorem flatten_eq_mapM
    (items : List Item) :
    flatten items = (pathsOfMembers [] items).mapM Path.read := by
  rw [flatten_eq_leavesOfMembers]
  exact leavesOfMembers_eq_mapM fun item _ => leaves_eq_mapM item []

/-- **A list of items flattens if every entry in it decodes, and fails as the first one that does
not.**  The flat list has one permission for each path, in order, with the names and the effect of
the entry, the scopes on the path one behind the other and the conditions on it merged.  There is
no scope, or are no conditions, only if none are present on the path, and the scope is the global
one only if that is present and no other is. -/
theorem flatten_along_paths
    (items : List Item) :
    ((∃ ps, flatten items = .ok ps) ↔
        ∀ path ∈ pathsOfMembers [] items, ∃ own, path.entry.own = .ok own) ∧
      (∀ e, flatten items = .error e ↔
        ∃ before path after, pathsOfMembers [] items = before ++ path :: after ∧
          (∀ earlier ∈ before, ∃ own, earlier.entry.own = .ok own) ∧
          path.entry.own = .error e) ∧
      (∀ ps, flatten items = .ok ps ↔
        List.Forall₂ (fun path p => ∃ own, path.Gives own p) (pathsOfMembers [] items) ps) ∧
      ∀ levels : List Inheritance,
        (Inheritance.scopeAlong levels = none ↔ ∀ level ∈ levels, level.scope = none) ∧
          (Inheritance.scopeAlong levels = some Scope.global ↔
            (∃ level ∈ levels, level.scope = some Scope.global) ∧
              ∀ level ∈ levels, ∀ s ∈ level.scope, s = Scope.global) ∧
          (Inheritance.conditionsAlong levels = none ↔
            ∀ level ∈ levels, level.conditions = none) := by
  rw [flatten_eq_mapM]
  refine ⟨?_, ?_, ?_, ?_⟩
  · simp only [exists_mapM_iff, Path.exists_read_iff]
  · intro e
    simp only [mapM_eq_error_iff, Path.exists_read_iff, Path.read_eq_error_iff]
  · intro ps
    simp only [mapM_eq_ok_iff, Path.read_eq_ok_iff]
  · intro levels
    exact ⟨Inheritance.scopeAlong_eq_none_iff, Inheritance.scopeAlong_eq_global_iff,
      Inheritance.conditionsAlong_eq_none_iff⟩

/-- The grant to assign one role. -/
def assignRole : Permission where
  subjects := ["role"]
  actions := ["assign"]
  conditions := some [("b", .ofNat 2)]
  scope := some ⟨[⟨"role", some "3"⟩]⟩

/-- The role may be assigned in one app of an organisation, and users may be read in all of it. -/
def nestedGrants : List Item :=
  [.group
    [.group
      [.leaf assignRole]
      (some [("a", .ofNat 1), ("b", .ofNat 1)])
      (some ⟨[⟨"app", some "2"⟩]⟩),
    .encoded "user:read"]
    (some [("tenant", .string "t")])
    (some ⟨[⟨"org", some "1"⟩]⟩)]

/-- The condition of the role itself replaces that of the app, and the text behind the inner group
has nothing from it; of two texts that do not decode the first one is the fault. -/
theorem flatten_along_paths_nestedGrants :
    flatten nestedGrants = .ok
        [⟨["role"], ["assign"], .can,
          some [("tenant", .string "t"), ("a", .ofNat 1), ("b", .ofNat 2)],
          some ⟨[⟨"org", some "1"⟩, ⟨"app", some "2"⟩, ⟨"role", some "3"⟩]⟩⟩,
         ⟨["user"], ["read"], .can, some [("tenant", .string "t")],
          some ⟨[⟨"org", some "1"⟩]⟩⟩] ∧
      flatten [.group [.encoded "user:read", .group [.encoded "read"] none none] none none,
        .encoded ""] = .error (.tooFewParts "read") := by
  have hread : Permission.parse "user:read" = .ok ⟨["user"], ["read"], .can, none, none⟩ := rfl
  have hfault : Permission.parse "read" = .error (.tooFewParts "read") := rfl
  constructor
  · refine ((flatten_along_paths nestedGrants).2.2.1 _).2
      (.cons ⟨assignRole, ?_⟩ (.cons ⟨⟨["user"], ["read"], .can, none, none⟩, ?_⟩ .nil))
    · exact ⟨rfl, rfl, rfl, rfl, rfl, rfl⟩
    · exact ⟨hread, rfl, rfl, rfl, rfl, rfl⟩
  · refine ((flatten_along_paths _).2.1 _).2
      ⟨[⟨[⟨none, none⟩], .encoded "user:read"⟩], ⟨[⟨none, none⟩, ⟨none, none⟩], .encoded "read"⟩,
        [⟨[], .encoded ""⟩], rfl, ?_, hfault⟩
    simp only [List.forall_mem_singleton]
    exact ⟨_, hread⟩

end Item
end Warrant
