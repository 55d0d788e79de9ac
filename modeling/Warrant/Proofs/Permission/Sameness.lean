import Warrant.Proofs.Condition.Merge
import Warrant.Transform.Inherit

/-!
# Permissions up to the order of keys

Permissions whose conditions hold no key twice are compared exactly, but without regard to the
order of keys.  What they inherit does not depend on that order either.

**Results.**
* `sameConditions_refl`, `sameConditions_symm`, `sameConditions_trans`: conditions that are the
  same form an equivalence.
* `same_refl`, `same_symm`, `same_trans`: so do permissions.
* `same_inherit`: permissions that are the same stay so under the same inheritance.
-/

namespace Warrant

/-- No object within the conditions has a key twice. -/
def Permission.ConditionsDistinct (conditions : Option Object) : Prop :=
  ∀ query, conditions = some query → (Json.object query).KeysDistinct

/-- No object within the permission's conditions has a key twice. -/
def Permission.KeysDistinct (p : Permission) : Prop :=
  ConditionsDistinct p.conditions

namespace Permission

variable {c d e : Option Object} {p q r : Permission}

theorem conditionsDistinct_none : ConditionsDistinct none := by
  rintro query ⟨⟩

theorem conditionsDistinct_some_iff
    {query : Object} :
    ConditionsDistinct (some query) ↔ (Json.object query).KeysDistinct := by
  constructor
  · exact fun h => h query rfl
  · rintro h _ ⟨⟩
    exact h

/-! Conditions. -/

theorem sameConditions_refl
    (hc : ConditionsDistinct c) :
    sameConditions c c = true := by
  cases c with
  | none => rfl
  | some a => exact Json.same_refl (hc a rfl)

theorem sameConditions_symm
    (hc : ConditionsDistinct c)
    (hd : ConditionsDistinct d)
    (h : sameConditions c d = true) :
    sameConditions d c = true := by
  cases c with
  | none => cases d <;> simp_all [sameConditions]
  | some a =>
      cases d with
      | none => simp [sameConditions] at h
      | some b => exact Json.same_symm (hc a rfl) (hd b rfl) h

theorem sameConditions_trans
    (hc : ConditionsDistinct c)
    (hd : ConditionsDistinct d)
    (he : ConditionsDistinct e)
    (hcd : sameConditions c d = true)
    (hde : sameConditions d e = true) :
    sameConditions c e = true := by
  cases c with
  | none =>
      cases d with
      | none => exact hde
      | some b => simp [sameConditions] at hcd
  | some a =>
      cases d with
      | none => simp [sameConditions] at hcd
      | some b =>
          cases e with
          | none => simp [sameConditions] at hde
          | some c => exact Json.same_trans (hc a rfl) (hd b rfl) (he c rfl) hcd hde

theorem conditionsDistinct_mergeConditions
    (hc : ConditionsDistinct c)
    (hd : ConditionsDistinct d) :
    ConditionsDistinct (Inheritance.mergeConditions c d) := by
  cases c with
  | none => rwa [Inheritance.mergeConditions_none_left]
  | some a =>
      cases d with
      | none => exact hc
      | some b =>
          rw [Inheritance.mergeConditions, conditionsDistinct_some_iff]
          exact Condition.keysDistinct_merge (hc a rfl) (hd b rfl)

theorem sameConditions_mergeConditions
    {c' d' : Option Object}
    (hc : ConditionsDistinct c)
    (hc' : ConditionsDistinct c')
    (hd : ConditionsDistinct d)
    (hd' : ConditionsDistinct d')
    (hcc : sameConditions c c' = true)
    (hdd : sameConditions d d' = true) :
    sameConditions (Inheritance.mergeConditions c d) (Inheritance.mergeConditions c' d') =
      true := by
  cases c with
  | none =>
      cases c' with
      | none => simpa using hdd
      | some a' => simp [sameConditions] at hcc
  | some a =>
      cases c' with
      | none => simp [sameConditions] at hcc
      | some a' =>
          cases d with
          | none =>
              cases d' with
              | none => exact hcc
              | some b' => simp [sameConditions] at hdd
          | some b =>
              cases d' with
              | none => simp [sameConditions] at hdd
              | some b' =>
                  exact Condition.same_merge (hc a rfl) (hc' a' rfl) (hd b rfl) (hd' b' rfl)
                    hcc hdd

/-! Permissions. -/

theorem same_iff :
    p.same q = true ↔
      p.subjects = q.subjects ∧ p.actions = q.actions ∧ p.effect = q.effect ∧
        sameConditions p.conditions q.conditions = true ∧ p.scope = q.scope := by
  simp [same, and_assoc]

theorem same_refl
    (hp : p.KeysDistinct) :
    p.same p = true :=
  same_iff.2 ⟨rfl, rfl, rfl, sameConditions_refl hp, rfl⟩

theorem same_symm
    (hp : p.KeysDistinct)
    (hq : q.KeysDistinct)
    (h : p.same q = true) :
    q.same p = true := by
  obtain ⟨hs, ha, he, hc, ho⟩ := same_iff.1 h
  exact same_iff.2 ⟨hs.symm, ha.symm, he.symm, sameConditions_symm hp hq hc, ho.symm⟩

theorem same_trans
    (hp : p.KeysDistinct)
    (hq : q.KeysDistinct)
    (hr : r.KeysDistinct)
    (hpq : p.same q = true)
    (hqr : q.same r = true) :
    p.same r = true := by
  obtain ⟨hs, ha, he, hc, ho⟩ := same_iff.1 hpq
  obtain ⟨hs', ha', he', hc', ho'⟩ := same_iff.1 hqr
  exact same_iff.2 ⟨hs.trans hs', ha.trans ha', he.trans he', sameConditions_trans hp hq hr hc hc',
    ho.trans ho'⟩

end Permission

/-! Inheritances. -/

namespace Inheritance

variable {i j : Inheritance} {c d : Option Object}

/-- No object within the conditions that are passed on has a key twice. -/
def KeysDistinct (i : Inheritance) : Prop :=
  Permission.ConditionsDistinct i.conditions

/-- The same is passed on, up to the order of keys. -/
def Same (i j : Inheritance) : Prop :=
  i.scope = j.scope ∧ Permission.sameConditions i.conditions j.conditions = true

@[simp] theorem joinScope_none_right (s : Option Scope) : joinScope s none = s := by
  cases s <;> rfl

@[simp] theorem mergeConditions_none_right (c : Option Object) : mergeConditions c none = c := by
  cases c <;> rfl

@[simp] theorem extend_nothing (i : Inheritance) : i.extend none none = i := by
  simp [extend]

@[simp] theorem nothing_extend
    (c : Option Object)
    (s : Option Scope) :
    extend {} c s = ⟨s, c⟩ := by
  simp [extend]

theorem keysDistinct_nothing : KeysDistinct {} :=
  Permission.conditionsDistinct_none

theorem KeysDistinct.extend
    (hi : i.KeysDistinct)
    (hc : Permission.ConditionsDistinct c)
    (s : Option Scope) :
    (i.extend c s).KeysDistinct :=
  Permission.conditionsDistinct_mergeConditions hi hc

theorem Same.extend
    (hi : i.KeysDistinct)
    (hj : j.KeysDistinct)
    (hc : Permission.ConditionsDistinct c)
    (hd : Permission.ConditionsDistinct d)
    (hij : i.Same j)
    (hcd : Permission.sameConditions c d = true)
    (s : Option Scope) :
    (i.extend c s).Same (j.extend d s) := by
  refine ⟨?_, Permission.sameConditions_mergeConditions hi hj hc hd hij.2 hcd⟩
  simp only [Inheritance.extend, hij.1]

end Inheritance

namespace Permission

variable {p q : Permission} {i j : Inheritance}

theorem KeysDistinct.inherit
    (hp : p.KeysDistinct)
    (hi : i.KeysDistinct) :
    (p.inherit i).KeysDistinct :=
  conditionsDistinct_mergeConditions hi hp

theorem same_inherit
    (hp : p.KeysDistinct)
    (hq : q.KeysDistinct)
    (hi : i.KeysDistinct)
    (hj : j.KeysDistinct)
    (hpq : p.same q = true)
    (hij : i.Same j) :
    (p.inherit i).same (q.inherit j) = true := by
  obtain ⟨hs, ha, he, hc, ho⟩ := same_iff.1 hpq
  refine same_iff.2 ⟨hs, ha, he, sameConditions_mergeConditions hi hj hp hq hij.2 hc, ?_⟩
  simp only [inherit, hij.1, ho]

end Permission
end Warrant
