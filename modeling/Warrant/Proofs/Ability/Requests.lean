import Warrant.Proofs.Ability.Decisions
import Warrant.Proofs.Condition.Equality
import Warrant.Proofs.Transform.Grouping

/-!
# Grouped requests

Requests may be grouped before they are decided.  Grouping reorders them, drops those that occur
again and may replace the conditions of one by those of another that differ in the order of their
keys.  None of this is seen by a decision.  Requested conditions are never evaluated: they are
looked up among the granted ones, by an equality that is coarser than the one of the groups.  So,
other than for grants, nothing need be asked of the conditions.

**Results.**
* `covers_congr_request`: requests that are the same are covered by the same grants.
* `passes_congr_request`: they pass together.
* `has_collect`: grouped requests are decided like the requests.
-/

namespace Warrant

namespace Permission

variable {p q : Permission}

theorem coversConditions_congr_request
    {c d : Option Object}
    (granted : Option Object)
    (hc : ConditionsDistinct c)
    (hd : ConditionsDistinct d)
    (hsame : sameConditions c d = true) :
    coversConditions granted c = coversConditions granted d := by
  cases granted with
  | none => rfl
  | some g =>
      cases c with
      | none =>
          cases d with
          | none => rfl
          | some b => simp [sameConditions] at hsame
      | some a =>
          cases d with
          | none => simp [sameConditions] at hsame
          | some b => exact Condition.subset_congr_left g (hc a rfl) (hd b rfl) hsame

section Languages

variable [Languages]

/-- Requests that are the same are covered by the same grants. -/
theorem covers_congr_request
    (config : Config)
    (granted : Permission)
    (context : Option Json)
    (hp : p.KeysDistinct)
    (hq : q.KeysDistinct)
    (hsame : p.same q = true) :
    covers config granted p context = covers config granted q context := by
  obtain ⟨hsubjects, hactions, -, hconditions, hscope⟩ := same_iff.1 hsame
  have hcovers := coversConditions_congr_request granted.conditions hp hq hconditions
  simp only [covers, hsubjects, hactions, hscope, hcovers]

end Languages

theorem same_single
    (hsame : p.same q = true)
    (subject action : String) :
    (p.single subject action).same (q.single subject action) = true := by
  obtain ⟨-, -, heffect, hconditions, hscope⟩ := same_iff.1 hsame
  exact same_iff.2 ⟨rfl, rfl, heffect, hconditions, hscope⟩

end Permission

namespace Ability

section Languages

variable [Languages]

section Request

variable {p q : Permission} (hp : p.KeysDistinct) (hq : q.KeysDistinct)
include hp hq

theorem passesSingle_congr_request
    (hsame : p.same q = true)
    (a : Ability)
    (context : Option Json) :
    a.passesSingle p context = a.passesSingle q context := by
  obtain ⟨-, -, heffect, -, -⟩ := Permission.same_iff.1 hsame
  have hcovers : ∀ granted, Permission.covers a.config granted p context =
      Permission.covers a.config granted q context :=
    fun granted => Permission.covers_congr_request a.config granted context hp hq hsame
  simp only [passesSingle, allows, someCovers, heffect, hcovers]

theorem passes_of_same
    (hsame : p.same q = true)
    {a : Ability}
    {context : Option Json}
    (hpasses : a.passes p context = true) :
    a.passes q context = true := by
  obtain ⟨hsubjects, hactions, -, -, -⟩ := Permission.same_iff.1 hsame
  obtain ⟨hne, hpairs⟩ := passes_iff.1 hpasses
  rw [passes_iff]
  constructor
  · obtain ⟨r, hr⟩ := List.exists_mem_of_ne_nil _ hne
    obtain ⟨s, hs, x, hx, -⟩ := Permission.mem_expand_iff.1 hr
    rw [hsubjects] at hs
    rw [hactions] at hx
    exact List.ne_nil_of_mem (Permission.mem_expand_iff.2 ⟨s, hs, x, hx, rfl⟩)
  · intro r hr
    obtain ⟨s, hs, x, hx, rfl⟩ := Permission.mem_expand_iff.1 hr
    rw [← hsubjects] at hs
    rw [← hactions] at hx
    have hpair := hpairs _ (Permission.mem_expand_iff.2 ⟨s, hs, x, hx, rfl⟩)
    have hsingle := passesSingle_congr_request (p := p.single s x) (q := q.single s x) hp hq
      (Permission.same_single hsame s x) a context
    rwa [hsingle] at hpair

/-- Requests that are the same pass together. -/
theorem passes_congr_request
    (hsame : p.same q = true)
    (a : Ability)
    (context : Option Json) :
    a.passes p context = a.passes q context := by
  rw [Bool.eq_iff_iff]
  exact ⟨passes_of_same hp hq hsame, passes_of_same hq hp (Permission.same_symm hp hq hsame)⟩

end Request

/-! Lists of requests. -/

/-- Every request of the first list passes or fails like one of the second list. -/
def DecidedWithin (a : Ability) (context : Option Json) (ps qs : List Permission) : Prop :=
  ∀ p ∈ ps, ∃ q ∈ qs, a.passes p context = a.passes q context

section Lists

variable {a : Ability} {context : Option Json} {ps qs : List Permission}

theorem DecidedWithin.all
    (h : DecidedWithin a context qs ps)
    (hall : ps.all (a.passes · context) = true) :
    qs.all (a.passes · context) = true := by
  rw [List.all_eq_true] at hall ⊢
  intro q hq
  obtain ⟨p, hp, heq⟩ := h q hq
  rw [heq]
  exact hall p hp

theorem DecidedWithin.any
    (h : DecidedWithin a context ps qs)
    (hany : ps.any (a.passes · context) = true) :
    qs.any (a.passes · context) = true := by
  rw [List.any_eq_true] at hany ⊢
  obtain ⟨p, hp, hpasses⟩ := hany
  obtain ⟨q, hq, heq⟩ := h p hp
  rw [heq] at hpasses
  exact ⟨q, hq, hpasses⟩

theorem decidedWithin_of_sameLeaves
    {xs ys : List Item}
    (h : Item.SameLeaves xs ys)
    (hps : Item.flatten xs = .ok ps)
    (hqs : Item.flatten ys = .ok qs)
    (a : Ability)
    (context : Option Json) :
    DecidedWithin a context ps qs := by
  intro p hp
  obtain ⟨q, hq, hsame⟩ := h.flatten hps hqs p hp
  obtain ⟨x, hx, hleaf⟩ := (Item.mem_flatten_iff hps).1 hp
  obtain ⟨y, hy, hleaf'⟩ := (Item.mem_flatten_iff hqs).1 hq
  have hdistinct := hleaf.keysDistinct Inheritance.keysDistinct_nothing (h.distinct_left x hx)
  have hdistinct' := hleaf'.keysDistinct Inheritance.keysDistinct_nothing (h.distinct_right y hy)
  exact ⟨q, hq, passes_congr_request hdistinct hdistinct' hsame a context⟩

end Lists

/-- Requests with the same leaves are decided alike, or neither list decodes. -/
theorem has_of_sameLeaves
    {xs ys : List Item}
    (h : Item.SameLeaves xs ys)
    (a : Ability)
    (context : Option Json) :
    (a.has xs context).toOption = (a.has ys context).toOption ∧
      (a.hasAny xs context).toOption = (a.hasAny ys context).toOption := by
  cases hps : Item.flatten xs with
  | error e =>
      cases hqs : Item.flatten ys with
      | error e' => simp [has, hasAny, hps, hqs, Except.map, Except.toOption]
      | ok qs =>
          obtain ⟨ps, hps'⟩ := Item.exists_flatten_iff.2
            (h.decodes.2 (Item.exists_flatten_iff.1 ⟨qs, hqs⟩))
          rw [hps'] at hps
          cases hps
  | ok ps =>
      obtain ⟨qs, hqs⟩ := Item.exists_flatten_iff.2
        (h.decodes.1 (Item.exists_flatten_iff.1 ⟨ps, hps⟩))
      have hpq := decidedWithin_of_sameLeaves h hps hqs a context
      have hqp := decidedWithin_of_sameLeaves h.symm hqs hps a context
      have hall : ps.all (a.passes · context) = qs.all (a.passes · context) :=
        Bool.eq_iff_iff.2 ⟨hqp.all, hpq.all⟩
      have hany : ps.any (a.passes · context) = qs.any (a.passes · context) :=
        Bool.eq_iff_iff.2 ⟨hpq.any, hqp.any⟩
      simp only [has, hasAny, hps, hqs, Except.map, hall, hany, and_self]

/-- **Grouped requests are decided like the requests**: whether all of them pass, whether one of
them does, and whether they decode at all. -/
theorem has_collect
    {options : GroupOptions}
    {requests : List Item}
    {groups : List Group}
    (hrequests : ∀ item ∈ requests, item.KeysDistinct)
    (hgroups : Item.collect options requests = .ok groups)
    (a : Ability)
    (context : Option Json) :
    (a.has (groups.map Group.toItem) context).toOption = (a.has requests context).toOption ∧
      (a.hasAll (groups.map Group.toItem) context).toOption =
        (a.hasAll requests context).toOption ∧
      (a.hasAny (groups.map Group.toItem) context).toOption =
        (a.hasAny requests context).toOption := by
  have hsame := (Item.sameLeaves_collect hrequests hgroups).symm
  obtain ⟨hall, hany⟩ := has_of_sameLeaves hsame a context
  exact ⟨hall, hall, hany⟩

end Languages

/-- The ability to read and write documents under conditions. -/
def readAndWriteTogether : Ability where
  permissions := [{ subjects := ["doc"], actions := ["read", "write"],
                    conditions := some [("a", .null), ("c", .bool false), ("b", .bool true)] }]

/-- Requests with the same conditions in two orders pass after grouping as they do before. -/
theorem has_collect_reordered :
    (∀ item ∈ Item.reordered, item.KeysDistinct) ∧
      ∃ group, Item.collect {} Item.reordered = .ok [group] ∧
        (readAndWriteTogether.has [group.toItem] none).toOption = some true := by
  obtain ⟨group, hgroup⟩ : ∃ group, Item.collect {} Item.reordered = .ok [group] := ⟨_, rfl⟩
  obtain ⟨hall, -, -⟩ := has_collect Item.keysDistinct_reordered hgroup readAndWriteTogether none
  have hbefore : (readAndWriteTogether.has Item.reordered none).toOption = some true := by decide
  exact ⟨Item.keysDistinct_reordered, group, hgroup, hall.trans hbefore⟩

end Ability
end Warrant
