import Mathlib.Data.List.Induction
import Warrant.Proofs.Condition.Associativity
import Warrant.Proofs.Transform.Paths

/-!
# A group around items and what is put around their flat list

A scope and conditions can be put around every permission of a flat list, or around the items as
one more group before they are flattened.  On each path the group is one more level in front, so
the question is whether the conditions of the path may be merged first and put over the outermost
ones afterwards.  They may, unless some level replaces an object of the outermost conditions by
another value and a deeper level puts an object back there.  Scopes stand one behind the other in
either case, so without outermost conditions there is no exception.

What a path gives is built level by level, so the induction is on the levels from the inside out.
A value that is no object comes into a merge from one of the levels only.

**Results.**
* `carriesPlain_overlay`, `exists_carriesPlain_of_conditionsAlong`: where a plain value comes from.
* `conditionsAlong_cons`, `scopeAlong_cons`: what a path gives behind one more level.
* `paths_under`: the paths of the items of a group.
* `flatten_around_eq_flatten_group`: the group and what is put around the flat list.
-/

namespace Warrant

/-! Where a plain value in a merge comes from. -/

namespace Condition

theorem carriesPlain_overlay
    {old : Option Json} {v : Json} {path : List String}
    (hv : v.KeysDistinct)
    (h : (overlay old v).CarriesPlain path) :
    (∃ w, old = some w ∧ w.CarriesPlain path) ∨ v.CarriesPlain path := by
  induction v using Json.induction generalizing old path with
  | object entries ih =>
      have hkeys := (Json.keysDistinct_object_iff.1 hv).1
      rw [overlay_object_eq old hkeys] at h
      cases path with
      | nil => obtain ⟨_, ⟨⟩, ⟨⟩⟩ := h
      | cons k path =>
          obtain ⟨w, hw, hplain⟩ := Json.carriesPlain_cons_iff.1 h
          rw [find?_merge hkeys] at hw
          cases hu : Object.find? entries k with
          | none =>
              rw [hu] at hw
              exact Or.inl ⟨_, eq_some_ground hw, Json.carriesPlain_cons_iff.2 ⟨w, hw, hplain⟩⟩
          | some u =>
              rw [hu] at hw
              obtain rfl := Option.some.inj hw
              rcases ih _ (Object.mem_of_find? hu) (Json.keysDistinct_of_find? hv hu) hplain with
                ⟨w, hw, hplain⟩ | hplain
              · exact Or.inl ⟨_, eq_some_ground hw, Json.carriesPlain_cons_iff.2 ⟨w, hw, hplain⟩⟩
              · exact Or.inr (Json.carriesPlain_cons_iff.2 ⟨u, hu, hplain⟩)
  | _ => exact Or.inr h

end Condition

/-! One more level in front of a path. -/

namespace Inheritance

variable {outermost : Inheritance} {levels : List Inheritance}

theorem conditionsDistinct_conditionsAlong
    (hlevels : ∀ level ∈ levels, level.KeysDistinct) :
    Permission.ConditionsDistinct (conditionsAlong levels) := by
  induction levels using List.reverseRecOn with
  | nil => exact Permission.conditionsDistinct_none
  | append_singleton levels level ih =>
      obtain ⟨hinit, hlast⟩ := List.forall_mem_append.1 hlevels
      rw [conditionsAlong_concat]
      exact Permission.conditionsDistinct_mergeConditions (ih hinit)
        (hlast level (List.mem_singleton_self level))

theorem exists_carriesPlain_of_mergeConditions
    {c d : Option Object} (hd : Permission.ConditionsDistinct d)
    {q : Object} (hq : mergeConditions c d = some q)
    {path : List String} (h : (Json.object q).CarriesPlain path) :
    (∃ a ∈ c, (Json.object a).CarriesPlain path) ∨
      ∃ b ∈ d, (Json.object b).CarriesPlain path := by
  cases c with
  | none =>
      rw [mergeConditions_none_left] at hq
      exact Or.inr ⟨q, hq, h⟩
  | some a =>
      cases d with
      | none => exact Or.inl ⟨q, hq, h⟩
      | some b =>
          cases hq
          rw [← Condition.overlay_object] at h
          rcases Condition.carriesPlain_overlay (hd b rfl) h with ⟨w, hw, hplain⟩ | hplain
          · obtain rfl := Option.some.inj hw
            exact Or.inl ⟨a, rfl, hplain⟩
          · exact Or.inr ⟨b, rfl, hplain⟩

/-- A plain value in what a path gives stands on one of its levels. -/
theorem exists_carriesPlain_of_conditionsAlong
    (hlevels : ∀ level ∈ levels, level.KeysDistinct)
    {q : Object} (hq : conditionsAlong levels = some q)
    {path : List String} (h : (Json.object q).CarriesPlain path) :
    ∃ level ∈ levels, ∃ b ∈ level.conditions, (Json.object b).CarriesPlain path := by
  induction levels using List.reverseRecOn generalizing q with
  | nil => cases hq
  | append_singleton levels level ih =>
      obtain ⟨hinit, hlast⟩ := List.forall_mem_append.1 hlevels
      have hmem := List.mem_singleton_self level
      rw [conditionsAlong_concat] at hq
      rcases exists_carriesPlain_of_mergeConditions (hlast level hmem) hq h with
        ⟨a, ha, hplain⟩ | hplain
      · obtain ⟨level', hlevel', hb⟩ := ih hinit ha hplain
        exact ⟨level', List.mem_append_left _ hlevel', hb⟩
      · exact ⟨level, List.mem_append_right _ hmem, hplain⟩

/-- No object of the conditions is replaced on one level and put back on a deeper one. -/
def KeptAlong (conditions : Object) (levels : List Inheritance) : Prop :=
  levels.Pairwise fun outer inner => ∀ b ∈ outer.conditions, ∀ d ∈ inner.conditions,
    ¬ Condition.Reinstated (.object conditions) (.object b) (.object d)

theorem mergeConditions_assoc
    {c d e : Option Object}
    (hc : Permission.ConditionsDistinct c)
    (hd : Permission.ConditionsDistinct d)
    (he : Permission.ConditionsDistinct e)
    (hfree : ∀ a ∈ c, ∀ b ∈ d, ∀ q ∈ e,
      ¬ Condition.Reinstated (.object a) (.object b) (.object q)) :
    mergeConditions (mergeConditions c d) e = mergeConditions c (mergeConditions d e) := by
  cases c with
  | none => simp
  | some a =>
      cases d with
      | none => simp
      | some b =>
          cases e with
          | none => simp
          | some q =>
              have hassoc := Condition.merge_assoc (hc a rfl) (hd b rfl) (he q rfl)
                (hfree a rfl b rfl q rfl)
              simp only [mergeConditions, hassoc]

/-- The conditions of a path behind an outermost level are put over those of that level. -/
theorem conditionsAlong_cons
    (houtermost : outermost.KeysDistinct)
    (hlevels : ∀ level ∈ levels, level.KeysDistinct)
    (hkept : ∀ a ∈ outermost.conditions, KeptAlong a levels) :
    conditionsAlong (outermost :: levels) =
      mergeConditions outermost.conditions (conditionsAlong levels) := by
  induction levels using List.reverseRecOn with
  | nil =>
      have h := conditionsAlong_concat [] outermost
      simpa [conditionsAlong] using h
  | append_singleton levels level ih =>
      obtain ⟨hinit, hlast⟩ := List.forall_mem_append.1 hlevels
      have hlevel := hlast level (List.mem_singleton_self level)
      rw [← List.cons_append, conditionsAlong_concat, conditionsAlong_concat, ih hinit]
      · refine mergeConditions_assoc houtermost (conditionsDistinct_conditionsAlong hinit) hlevel ?_
        rintro a ha b hb d hd ⟨path, hobject, hplain, hback⟩
        -- the plain value stands on one level, and the object is put back on a deeper one
        obtain ⟨outer, houter, c, hc, hplain⟩ :=
          exists_carriesPlain_of_conditionsAlong hinit hb hplain
        exact (List.pairwise_append.1 (hkept a ha)).2.2 outer houter level
          (List.mem_singleton_self level) c hc d hd ⟨path, hobject, hplain, hback⟩
      · exact fun a ha => (List.pairwise_append.1 (hkept a ha)).1

theorem conditionsAlong_cons_none
    (scope : Option Scope)
    (levels : List Inheritance) :
    conditionsAlong (⟨scope, none⟩ :: levels) = conditionsAlong levels := by
  simp [conditionsAlong]

theorem scopeAlong_cons
    (outermost : Inheritance)
    (levels : List Inheritance) :
    scopeAlong (outermost :: levels) = joinScope outermost.scope (scopeAlong levels) := by
  unfold scopeAlong
  cases houtermost : outermost.scope with
  | none => simp [houtermost]
  | some s =>
      rw [List.filterMap_cons, houtermost]
      cases levels.filterMap Inheritance.scope with
      | nil => simp [joinScope]
      | cons t ts => simp [joinScope, Scope.join]

end Inheritance

/-! The paths of the items of a group. -/

namespace Item

/-- The path behind one more level. -/
def Path.under (outermost : Inheritance) (path : Path) : Path :=
  { path with around := outermost :: path.around }

theorem paths_under
    (outermost : Inheritance)
    (around : List Inheritance)
    (item : Item) :
    paths (outermost :: around) item = (paths around item).map (Path.under outermost) := by
  induction item using Item.induction generalizing around with
  | encoded text => rfl
  | leaf p => rfl
  | group members conditions scope ih =>
      rw [paths, paths, pathsOfMembers_eq_flatMap, pathsOfMembers_eq_flatMap, List.map_flatMap,
        List.cons_append]
      exact List.flatMap_congr fun m hm => ih m hm _

/-- A path behind one more level gives what that level puts around what the path gives. -/
theorem Path.read_under
    {outermost : Inheritance} {path : Path}
    (h : ∀ own, path.entry.own = .ok own →
      Inheritance.conditionsAlong (outermost :: path.levels own) =
        Inheritance.mergeConditions outermost.conditions
          (Inheritance.conditionsAlong (path.levels own))) :
    path.read.map (Permission.inherit · outermost) = (path.under outermost).read := by
  unfold read under
  cases hown : path.entry.own with
  | error e => rfl
  | ok own =>
      have hconditions := h own hown
      have hscope := Inheritance.scopeAlong_cons outermost (path.levels own)
      rw [levels, ← List.cons_append, Inheritance.conditionsAlong_concat,
        Inheritance.conditionsAlong_concat] at hconditions
      rw [levels, ← List.cons_append, Inheritance.scopeAlong_concat,
        Inheritance.scopeAlong_concat] at hscope
      simp only [Except.map, Permission.inherit, Inheritance.along, hconditions, hscope]

/-- A group around the items is put around their flat list, if it is on every path. -/
theorem flatten_around_eq
    (outermost : Inheritance)
    {items : List Item}
    (h : ∀ path ∈ pathsOfMembers [] items, ∀ own, path.entry.own = .ok own →
      Inheritance.conditionsAlong (outermost :: path.levels own) =
        Inheritance.mergeConditions outermost.conditions
          (Inheritance.conditionsAlong (path.levels own))) :
    flatten items outermost = flatten [.group items outermost.conditions outermost.scope] := by
  have hpaths : pathsOfMembers [] [.group items outermost.conditions outermost.scope] =
      (pathsOfMembers [] items).map (Path.under outermost) := by
    simp only [pathsOfMembers_eq_flatMap, List.flatMap_singleton, paths, List.map_flatMap,
      ← paths_under]
    rfl
  rw [flatten, ← flatten_eq_leavesOfMembers, flatten_eq_mapM, flatten_eq_mapM, hpaths,
    List.mapM_map]
  exact map_mapM_congr fun path hpath => Path.read_under (h path hpath)

/-- **What is put around a flat list might as well be a group around the items.**  The two give the
same permissions in the same order, down to the order of keys, or the same fault, unless the
conditions hold an object that on some path a group replaces by another value and a deeper group
or the permission itself puts back.  Without conditions this is so for all items, and with nothing
at all the flat list is that of the walk. -/
theorem flatten_around_eq_flatten_group :
    (∀ (items : List Item) (scope : Option Scope) (conditions : Object),
      (∀ item ∈ items, item.KeysDistinct) → (Json.object conditions).KeysDistinct →
        (∀ path ∈ pathsOfMembers [] items, ∀ own, path.entry.own = .ok own →
          Inheritance.KeptAlong conditions (path.levels own)) →
            flatten items ⟨scope, some conditions⟩ =
              flatten [.group items (some conditions) scope]) ∧
      (∀ (items : List Item) (scope : Option Scope),
        flatten items ⟨scope, none⟩ = flatten [.group items none scope]) ∧
      ∀ items : List Item, flatten items {} = leavesOfMembers {} items := by
  refine ⟨?_, ?_, flatten_eq_leavesOfMembers⟩
  · intro items scope conditions hitems hconditions hkept
    refine flatten_around_eq ⟨scope, some conditions⟩ fun path hpath own hown => ?_
    refine Inheritance.conditionsAlong_cons ?_ (keysDistinct_levels hitems hpath hown) ?_
    · exact Permission.conditionsDistinct_some_iff.2 hconditions
    · rintro _ ⟨⟩
      exact hkept path hpath own hown
  · intro items scope
    refine flatten_around_eq ⟨scope, none⟩ fun path _ own _ => ?_
    rw [Inheritance.conditionsAlong_cons_none, Inheritance.mergeConditions_none_left]

/-- Users may be read in an app from eight on, and written until noon. -/
def morningGrants : List Item :=
  [.group
    [.encoded "user:read",
      .leaf { subjects := ["user"], actions := ["write"],
              conditions := some [("hours", .object [("to", .ofNat 12)])] }]
    (some [("hours", .object [("from", .ofNat 8)])])
    (some ⟨[⟨"app", some "2"⟩]⟩)]

/-- Hours in no zone, of an active member. -/
def activeHours : Object :=
  [("hours", .object [("zone", .null)]), ("active", .bool true)]

theorem keysDistinct_morningGrants : ∀ item ∈ morningGrants, item.KeysDistinct := by
  have hfrom : Permission.ConditionsDistinct (some [("hours", .object [("from", .ofNat 8)])]) := by
    simp [Permission.conditionsDistinct_some_iff, Json.KeysDistinct, Json.EntriesDistinct,
      Json.ofNat]
  have hto : Permission.ConditionsDistinct (some [("hours", .object [("to", .ofNat 12)])]) := by
    simp [Permission.conditionsDistinct_some_iff, Json.KeysDistinct, Json.EntriesDistinct,
      Json.ofNat]
  simp only [morningGrants, List.forall_mem_singleton, keysDistinct_group_iff,
    List.forall_mem_cons]
  exact ⟨⟨KeysDistinct.encoded _, KeysDistinct.leaf hto⟩, hfrom⟩

/-- The hours are an object on every level, and each level gives another part of them. -/
theorem flatten_around_eq_flatten_group_morningGrants :
    (∀ item ∈ morningGrants, item.KeysDistinct) ∧ (Json.object activeHours).KeysDistinct ∧
      flatten morningGrants ⟨some ⟨[⟨"org", some "1"⟩]⟩, some activeHours⟩ =
        flatten [.group morningGrants (some activeHours) (some ⟨[⟨"org", some "1"⟩]⟩)] ∧
      flatten morningGrants ⟨some Scope.global, none⟩ =
        flatten [.group morningGrants none (some Scope.global)] := by
  have hactive : (Json.object activeHours).KeysDistinct := by
    simp [activeHours, Json.KeysDistinct, Json.EntriesDistinct]
  refine ⟨keysDistinct_morningGrants, hactive, ?_,
    flatten_around_eq_flatten_group.2.1 morningGrants (some Scope.global)⟩
  refine flatten_around_eq_flatten_group.1 morningGrants _ activeHours keysDistinct_morningGrants
    hactive ?_
  intro path hpath own hown
  simp only [morningGrants, pathsOfMembers, paths, List.append_nil, List.nil_append,
    List.mem_cons, List.not_mem_nil, or_false, List.singleton_append] at hpath
  rcases hpath with rfl | rfl
  · have hread : Permission.parse "user:read" = .ok ⟨["user"], ["read"], .can, none, none⟩ := rfl
    cases hread.symm.trans hown
    simp [Inheritance.KeptAlong, Path.levels]
  · cases hown
    simp only [Inheritance.KeptAlong, Path.levels, List.singleton_append, List.pairwise_cons,
      List.mem_singleton, forall_eq, Option.mem_def, Option.some.injEq, forall_eq']
    refine ⟨?_, by simp⟩
    rw [Condition.reinstated_object_iff]
    rintro ⟨k, x, y, z, hx, hy, hz, hback⟩
    simp only [Object.find?_cons, Object.find?_nil, Option.ite_none_right_eq_some] at hy hz
    obtain ⟨rfl, hy⟩ := hy
    obtain ⟨-, hz⟩ := hz
    cases hx
    cases hy
    cases hz
    -- within the hours no key is on all three levels
    obtain ⟨k, x, y, z, -, hy, hz, -⟩ := Condition.reinstated_object_iff.1 hback
    simp only [Object.find?_cons, Object.find?_nil, Option.ite_none_right_eq_some] at hy hz
    exact absurd (hy.1.symm.trans hz.1) (by decide)

/-- Where a permission puts back what a group has replaced, the two differ. -/
example :
    let items : List Item :=
      [.group [.leaf { subjects := [], actions := [], conditions := some [("a", .object [])] }]
        (some [("a", .null)]) none]
    let conditions : Object := [("a", .object [("b", .null)])]
    flatten items ⟨none, some conditions⟩ = .ok [⟨[], [], .can, some conditions, none⟩] ∧
      flatten [.group items (some conditions) none] =
        .ok [⟨[], [], .can, some [("a", .object [])], none⟩] :=
  ⟨rfl, rfl⟩

end Item
end Warrant
