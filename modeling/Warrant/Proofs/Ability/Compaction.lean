import Warrant.Proofs.Ability.Decisions
import Warrant.Proofs.Condition.Thorough
import Warrant.Proofs.Transform.Grouping

/-!
# Decisions after grouping

Grouping keeps the permissions of a policy up to the order in which the keys of their conditions
are written.  Evaluation of conditions walks the keys in order, though, and stops at the first
entry that fails or is faulty; a fault counts as conditions that do not hold.  So grouping keeps
every decision of a policy whose conditions are `OrderFree` in the context, and it is only for
those that it does: each of the others makes a policy that decides differently once it was
grouped.  Conditions without faulty parts are order free.

**Results.**
* `covers_congr`: permissions that are the same and order free cover the same requests.
* `orderFree_of_thorough`: conditions without faults are order free.
* `passes_collect`: when grouping keeps the decisions of a policy, and when it does not.
-/

namespace Warrant
namespace Permission

theorem coversConditions_congr
    {c d : Option Object}
    (requested : Option Object)
    (hc : ConditionsDistinct c)
    (hd : ConditionsDistinct d)
    (hsame : sameConditions c d = true) :
    coversConditions c requested = coversConditions d requested := by
  cases c with
  | none =>
      cases d with
      | none => rfl
      | some b => simp [sameConditions] at hsame
  | some a =>
      cases d with
      | none => simp [sameConditions] at hsame
      | some b =>
          cases requested with
          | none => rfl
          | some r => exact Condition.subset_congr_right r (hc a rfl) (hd b rfl) hsame

section Languages

variable [Languages]

/-- The conditions hold or fail in the context in whatever order their keys are written. -/
def OrderFree (conditions : Option Object) (context : Option Json) : Prop :=
  ∀ other, ConditionsDistinct other → sameConditions conditions other = true →
    holdsIn other context = holdsIn conditions context

/-- Conditions that are the same are order free together. -/
theorem orderFree_of_same
    {c d : Option Object}
    {context : Option Json}
    (hc : ConditionsDistinct c)
    (hd : ConditionsDistinct d)
    (hsame : sameConditions c d = true)
    (hfree : OrderFree c context) :
    OrderFree d context := by
  intro other hother hother'
  have htrans := sameConditions_trans hc hd hother hsame hother'
  rw [hfree other hother htrans, hfree d hd hsame]

/-- Conditions that meet no fault are order free. -/
theorem orderFree_of_thorough
    {query : Object}
    {context : Json}
    {b : Bool}
    (hquery : (Json.object query).KeysDistinct)
    (h : Condition.thoroughQuery query context = .ok b) :
    OrderFree (some query) (some context) := by
  intro other hother hsame
  cases other with
  | none => simp [sameConditions] at hsame
  | some other =>
      have hself := Condition.matchesQuery_of_thorough hquery hquery (Json.same_refl hquery) h
      have hanswer := Condition.matchesQuery_of_thorough hquery
        (conditionsDistinct_some_iff.1 hother) hsame h
      simp only [holdsIn, hself, hanswer]

/-- Permissions that are the same cover the same requests where they are order free. -/
theorem covers_congr
    {p q : Permission}
    (config : Config)
    (request : Permission)
    {context : Option Json}
    (hp : p.KeysDistinct)
    (hq : q.KeysDistinct)
    (hsame : p.same q = true)
    (hfree : OrderFree p.conditions context) :
    covers config p request context = covers config q request context := by
  obtain ⟨hsubjects, hactions, -, hconditions, hscope⟩ := same_iff.1 hsame
  have hholds := hfree q.conditions hq hconditions
  have hcovers := coversConditions_congr request.conditions hp hq hconditions
  simp only [covers, hsubjects, hactions, hscope, hholds, hcovers]

end Languages

end Permission

namespace Ability

open Permission (OrderFree)

theorem keysDistinct_of_ofItems
    {items : List Item}
    {config : Config}
    {a : Ability}
    (hitems : ∀ item ∈ items, item.KeysDistinct)
    (h : ofItems items config = .ok a) :
    ∀ p ∈ a.permissions, p.KeysDistinct := by
  intro p hp
  obtain ⟨x, hx, hleaf⟩ := (Item.mem_flatten_iff (ofItems_eq_ok_iff.1 h).1).1 hp
  exact hleaf.keysDistinct Inheritance.keysDistinct_nothing (hitems x hx)

/-- Two grants on a document, to read and to write it, under conditions of their own. -/
def readAndWrite (read write : Object) : List Item :=
  [.leaf { subjects := ["doc"], actions := ["read"], conditions := some read },
    .leaf { subjects := ["doc"], actions := ["write"], conditions := some write }]

/-- The group of both grants, under the conditions of the first one. -/
def readAndWriteGroup (read : Object) : Group :=
  { members :=
      [.leaf { subjects := ["doc"], actions := ["read"] },
        .leaf { subjects := ["doc"], actions := ["write"] }]
    conditions := some read }

theorem keysDistinct_readAndWrite
    {read write : Object}
    (hread : (Json.object read).KeysDistinct)
    (hwrite : (Json.object write).KeysDistinct) :
    ∀ item ∈ readAndWrite read write, item.KeysDistinct := by
  have hfirst := Permission.conditionsDistinct_some_iff.2 hread
  have hsecond := Permission.conditionsDistinct_some_iff.2 hwrite
  simp only [readAndWrite, List.forall_mem_cons, List.not_mem_nil, false_imp_iff, implies_true,
    and_true]
  exact ⟨Item.KeysDistinct.leaf hfirst, Item.KeysDistinct.leaf hsecond⟩

/-- Conditions that are the same are the key of one group. -/
theorem collect_readAndWrite
    {read write : Object}
    (hsame : read.same write = true) :
    Item.collect {} (readAndWrite read write) = .ok [readAndWriteGroup read] := by
  have hfirst : Item.regroup {} []
      (.leaf { subjects := ["doc"], actions := ["read"], conditions := some read }) =
        .ok [{ members := [.leaf { subjects := ["doc"], actions := ["read"] }],
               conditions := some read }] := rfl
  have hkey : Group.sameKey ⟨some read, none⟩ ⟨some write, none⟩ = true := by
    rw [Group.sameKey, Bool.and_eq_true]
    exact ⟨rfl, hsame⟩
  have hsecond : Item.regroup {}
      [{ members := [.leaf { subjects := ["doc"], actions := ["read"] }],
         conditions := some read }]
      (.leaf { subjects := ["doc"], actions := ["write"], conditions := some write }) =
        .ok [readAndWriteGroup read] := by
    rw [Item.regroup_eq_ok_iff]
    refine ⟨_, _, rfl, rfl, ?_⟩
    rw [Item.place]
    exact if_pos hkey
  rw [Item.collect, readAndWrite, List.foldlM_cons, hfirst]
  exact hsecond

theorem ofItems_readAndWrite
    (read write : Object) :
    ofItems (readAndWrite read write) = .ok ⟨
      [{ subjects := ["doc"], actions := ["read"], conditions := some read },
        { subjects := ["doc"], actions := ["write"], conditions := some write }], {}⟩ := rfl

theorem ofItems_readAndWriteGroup
    (read : Object) :
    ofItems [(readAndWriteGroup read).toItem] = .ok ⟨
      [{ subjects := ["doc"], actions := ["read"], conditions := some read },
        { subjects := ["doc"], actions := ["write"], conditions := some read }], {}⟩ := rfl

section Languages

variable [Languages]

/-- Grouping keeps the decisions of a policy whose conditions are order free. -/
theorem passes_collect_of_orderFree
    {options : GroupOptions}
    {config : Config}
    {items : List Item}
    {groups : List Group}
    {before : Ability}
    (hitems : ∀ item ∈ items, item.KeysDistinct)
    (hgroups : Item.collect options items = .ok groups)
    (hbefore : ofItems items config = .ok before) :
    ∃ after, ofItems (groups.map Group.toItem) config = .ok after ∧
      ∀ context, (∀ p ∈ before.permissions, OrderFree p.conditions context) →
        ∀ request, after.passes request context = before.passes request context := by
  obtain ⟨hflat, rfl⟩ := ofItems_eq_ok_iff.1 hbefore
  have hsame := Item.sameLeaves_collect hitems hgroups
  obtain ⟨qs, hqs⟩ := Item.exists_flatten_iff.2
    (hsame.decodes.1 (Item.exists_flatten_iff.1 ⟨_, hflat⟩))
  have hafter : ofItems (groups.map Group.toItem) before.config = .ok ⟨qs, before.config⟩ :=
    ofItems_eq_ok_iff.2 ⟨hqs, rfl⟩
  have hdistinct := keysDistinct_of_ofItems hitems hbefore
  have hdistinct' := keysDistinct_of_ofItems hsame.distinct_right hafter
  refine ⟨⟨qs, before.config⟩, hafter, ?_⟩
  intro context hfree
  have hleft : CoversWithin before ⟨qs, before.config⟩ context := by
    intro p hp
    obtain ⟨q, hq, hpq⟩ := hsame.flatten hflat hqs p hp
    refine ⟨q, hq, (Permission.same_iff.1 hpq).2.2.1, ?_⟩
    intro request
    exact Permission.covers_congr before.config request (hdistinct p hp) (hdistinct' q hq) hpq
      (hfree p hp)
  have hright : CoversWithin ⟨qs, before.config⟩ before context := by
    intro q hq
    obtain ⟨p, hp, hqp⟩ := hsame.symm.flatten hqs hflat q hq
    have hpq := Permission.same_symm (hdistinct' q hq) (hdistinct p hp) hqp
    refine ⟨p, hp, (Permission.same_iff.1 hqp).2.2.1, ?_⟩
    intro request
    exact (Permission.covers_congr before.config request (hdistinct p hp) (hdistinct' q hq) hpq
      (hfree p hp)).symm
  exact passes_congr hright hleft

/-- Whether the document may be written is up to the conditions of the second grant. -/
theorem passes_write
    (read write : Object)
    (context : Option Json) :
    passes
        ⟨[{ subjects := ["doc"], actions := ["read"], conditions := some read },
          { subjects := ["doc"], actions := ["write"], conditions := some write }], {}⟩
        (Permission.can ["write"] ["doc"]) context =
      Permission.holdsIn (some write) context := by
  simp [passes, Permission.expand, Permission.single, Permission.can, passesSingle, allows,
    someCovers, Permission.covers, Permission.coversScope, Permission.coversNames,
    Permission.coversConditions]

/-- Conditions that are not order free make a policy that grouping changes. -/
theorem exists_passes_ne_of_not_orderFree
    {conditions : Option Object}
    {context : Option Json}
    (hconditions : Permission.ConditionsDistinct conditions)
    (hfree : ¬OrderFree conditions context) :
    ∃ items groups before after request, (∀ item ∈ items, item.KeysDistinct) ∧
      Item.collect {} items = .ok groups ∧ ofItems items = .ok before ∧
        ofItems (groups.map Group.toItem) = .ok after ∧
          (∀ p ∈ before.permissions,
            Permission.sameConditions conditions p.conditions = true) ∧
              after.passes request context ≠ before.passes request context := by
  unfold OrderFree at hfree
  push Not at hfree
  obtain ⟨other, hdistinct, hsame, hne⟩ := hfree
  cases conditions with
  | none =>
      cases other with
      | none => exact absurd rfl hne
      | some other => simp [Permission.sameConditions] at hsame
  | some query =>
      have hquery := Permission.conditionsDistinct_some_iff.1 hconditions
      cases other with
      | none => simp [Permission.sameConditions] at hsame
      | some other =>
          have hother := Permission.conditionsDistinct_some_iff.1 hdistinct
          refine ⟨readAndWrite query other, [readAndWriteGroup query], _, _,
            Permission.can ["write"] ["doc"], keysDistinct_readAndWrite hquery hother,
            collect_readAndWrite hsame, ofItems_readAndWrite query other,
            ofItems_readAndWriteGroup query, ?_, ?_⟩
          · simp only [List.forall_mem_cons, List.not_mem_nil, false_imp_iff, implies_true,
              and_true]
            exact ⟨Json.same_refl hquery, hsame⟩
          · rw [passes_write, passes_write]
            exact fun h => hne h.symm

/-- **Grouping keeps the decisions of policies under given conditions if and only if these are
order free.**  Beside permissions under these conditions, in any order of their keys, a policy may
hold any that are order free.  Conditions that meet no fault in the context are order free. -/
theorem passes_collect
    {conditions : Option Object}
    {context : Option Json}
    (hconditions : Permission.ConditionsDistinct conditions) :
    (OrderFree conditions context ↔
      ∀ (options : GroupOptions) (config : Config) (items : List Item) (groups : List Group)
        (before : Ability),
        (∀ item ∈ items, item.KeysDistinct) →
          Item.collect options items = .ok groups →
            ofItems items config = .ok before →
              (∀ p ∈ before.permissions,
                Permission.sameConditions conditions p.conditions = true ∨
                  OrderFree p.conditions context) →
                ∃ after, ofItems (groups.map Group.toItem) config = .ok after ∧
                  ∀ request, after.passes request context = before.passes request context) ∧
      ∀ query value b, conditions = some query → context = some value →
        Condition.thoroughQuery query value = .ok b → OrderFree conditions context := by
  refine ⟨⟨?_, ?_⟩, ?_⟩
  · intro hfree options config items groups before hitems hgroups hbefore hpolicy
    obtain ⟨after, hafter, hkept⟩ := passes_collect_of_orderFree hitems hgroups hbefore
    refine ⟨after, hafter, hkept context ?_⟩
    intro p hp
    rcases hpolicy p hp with hsame | hown
    · have hdistinct := keysDistinct_of_ofItems hitems hbefore p hp
      exact Permission.orderFree_of_same hconditions hdistinct hsame hfree
    · exact hown
  · intro hkept
    by_contra hfree
    obtain ⟨items, groups, before, after, request, hitems, hgroups, hbefore, hafter, hsame, hne⟩ :=
      exists_passes_ne_of_not_orderFree hconditions hfree
    obtain ⟨after', hafter', heq⟩ := hkept {} {} items groups before hitems hgroups hbefore
      (fun p hp => Or.inl (hsame p hp))
    rw [hafter] at hafter'
    cases hafter'
    exact hne (heq request)
  · rintro query value b rfl rfl hanswer
    exact Permission.orderFree_of_thorough (Permission.conditionsDistinct_some_iff.1 hconditions)
      hanswer

end Languages

/-- Conditions whose first entry fails if `a` is false, and whose second entry is faulty. -/
def failsFirst : Object :=
  [("$nor", .array [.object [("a", .bool true), ("$bogus", .null)]])]

/-- The same conditions with the faulty entry in front. -/
def faultsFirst : Object :=
  [("$nor", .array [.object [("$bogus", .null), ("a", .bool true)]])]

theorem same_failsFirst_faultsFirst : failsFirst.same faultsFirst = true := rfl

/-- Grouping grants what the policy refuses. -/
theorem passes_collect_failsFirst_ne :
    ∃ before after, ofItems (readAndWrite failsFirst faultsFirst) = .ok before ∧
      Item.collect {} (readAndWrite failsFirst faultsFirst) =
          .ok [readAndWriteGroup failsFirst] ∧
        ofItems [(readAndWriteGroup failsFirst).toItem] = .ok after ∧
          before.passes (Permission.can ["write"] ["doc"])
              (some (.object [("a", .bool false)])) = false ∧
            after.passes (Permission.can ["write"] ["doc"])
              (some (.object [("a", .bool false)])) = true := by
  refine ⟨_, _, ofItems_readAndWrite _ _, collect_readAndWrite same_failsFirst_faultsFirst,
    ofItems_readAndWriteGroup _, ?_, ?_⟩
  · rw [passes_write]
    rfl
  · rw [passes_write]
    rfl

/-- Whether a document may be written is decided alike after grouping when only a published one
may be. -/
theorem passes_collect_published :
    Permission.ConditionsDistinct (some [("published", .bool true)]) ∧
      ∃ after, ofItems [(readAndWriteGroup [("published", .bool true)]).toItem] = .ok after ∧
        ∀ request,
          after.passes request (some (.object [("published", .bool true)])) =
            passes
              ⟨[{ subjects := ["doc"], actions := ["read"],
                  conditions := some [("published", .bool true)] },
                { subjects := ["doc"], actions := ["write"],
                  conditions := some [("published", .bool true)] }], {}⟩
              request (some (.object [("published", .bool true)])) := by
  have hquery : (Json.object [("published", .bool true)]).KeysDistinct := by
    simp [Json.KeysDistinct, Json.EntriesDistinct, Object.keys]
  have hconditions := Permission.conditionsDistinct_some_iff.2 hquery
  obtain ⟨hkept, hthorough⟩ := passes_collect hconditions
  have hfree := hthorough [("published", .bool true)] (.object [("published", .bool true)]) true
    rfl rfl rfl
  refine ⟨hconditions, hkept.1 hfree {} {} _ _ _ (keysDistinct_readAndWrite hquery hquery)
    (collect_readAndWrite (Json.same_refl hquery)) (ofItems_readAndWrite _ _) ?_⟩
  simp only [List.forall_mem_cons, List.not_mem_nil, false_imp_iff, implies_true, and_true]
  exact ⟨Or.inr hfree, Or.inr hfree⟩

end Ability
end Warrant
