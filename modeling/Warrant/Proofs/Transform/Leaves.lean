import Warrant.Proofs.Permission.Parts
import Warrant.Transform.Flatten

/-!
# The leaves of items

A list of items flattens if all texts in it decode, and the flat list then holds the permissions
that stand in the items, each with what it inherits on its way.  `Decodes` and `Holds` say this
for one item.  Items that are the same hold the same permissions.

**Results.**
* `leavesOfMembers_eq_ok_iff`: the leaves of several items are those of each.
* `exists_flatten_iff`, `mem_flatten_iff`: when items flatten, and what the flat list holds.
* `Holds.exists_same`: items that are the same hold permissions that are the same.
-/

namespace Warrant
namespace Item

/-- Induction over items that gives the hypothesis for every member of a group. -/
theorem induction
    {P : Item → Prop}
    (encoded : ∀ text, P (.encoded text))
    (leaf : ∀ p, P (.leaf p))
    (group : ∀ members conditions scope, (∀ m ∈ members, P m) →
      P (.group members conditions scope)) :
    ∀ item, P item
  | .encoded text => encoded text
  | .leaf p => leaf p
  | .group members conditions scope =>
      group members conditions scope fun m _ => induction encoded leaf group m
termination_by item => sizeOf item
decreasing_by
  have := List.sizeOf_lt_of_mem ‹m ∈ members›
  simp only [Item.group.sizeOf_spec]
  omega

/-- No object within the conditions of an item, or of what is in it, has a key twice. -/
inductive KeysDistinct : Item → Prop
  | encoded (text : String) : KeysDistinct (.encoded text)
  | leaf {p : Permission} : p.KeysDistinct → KeysDistinct (.leaf p)
  | group {members : List Item} {conditions : Option Object} (scope : Option Scope) :
      (∀ m ∈ members, KeysDistinct m) →
      Permission.ConditionsDistinct conditions →
      KeysDistinct (.group members conditions scope)

/-- Every text in the item denotes a permission. -/
inductive Decodes : Item → Prop
  | encoded {text : String} {p : Permission} :
      Permission.parse text = .ok p →
      Decodes (.encoded text)
  | leaf (p : Permission) : Decodes (.leaf p)
  | group {members : List Item} (conditions : Option Object) (scope : Option Scope) :
      (∀ m ∈ members, Decodes m) →
      Decodes (.group members conditions scope)

/-- The item that inherits `i` holds the permission. -/
inductive Holds : Inheritance → Item → Permission → Prop
  | encoded {i : Inheritance} {text : String} {p : Permission} :
      Permission.parse text = .ok p →
      Holds i (.encoded text) (p.inherit i)
  | leaf (i : Inheritance) (p : Permission) : Holds i (.leaf p) (p.inherit i)
  | group {i : Inheritance} {members : List Item} {conditions : Option Object}
      {scope : Option Scope} {m : Item} {p : Permission} :
      m ∈ members →
      Holds (i.extend conditions scope) m p →
      Holds i (.group members conditions scope) p

theorem decodes_group_iff
    {members : List Item}
    {conditions : Option Object}
    {scope : Option Scope} :
    Decodes (.group members conditions scope) ↔ ∀ m ∈ members, Decodes m := by
  constructor
  · rintro ⟨⟩
    assumption
  · exact Decodes.group conditions scope

theorem holds_group_iff
    {i : Inheritance}
    {members : List Item}
    {conditions : Option Object}
    {scope : Option Scope}
    {p : Permission} :
    Holds i (.group members conditions scope) p ↔
      ∃ m ∈ members, Holds (i.extend conditions scope) m p := by
  constructor
  · rintro ⟨⟩
    exact ⟨_, ‹_›, ‹_›⟩
  · rintro ⟨m, hm, h⟩
    exact Holds.group hm h

theorem keysDistinct_group_iff
    {members : List Item}
    {conditions : Option Object}
    {scope : Option Scope} :
    KeysDistinct (.group members conditions scope) ↔
      (∀ m ∈ members, KeysDistinct m) ∧ Permission.ConditionsDistinct conditions := by
  constructor
  · rintro ⟨⟩
    exact ⟨‹_›, ‹_›⟩
  · rintro ⟨hm, hc⟩
    exact KeysDistinct.group scope hm hc

/-! The leaves of one item and of several. -/

theorem leavesOfMembers_eq_ok_iff
    {i : Inheritance}
    {items : List Item}
    {ps : List Permission} :
    leavesOfMembers i items = .ok ps ↔
      ∃ pss, List.Forall₂ (fun item qs => leaves i item = .ok qs) items pss ∧
        pss.flatten = ps := by
  induction items generalizing ps with
  | nil =>
      constructor
      · intro h
        cases h
        exact ⟨[], List.Forall₂.nil, rfl⟩
      · rintro ⟨pss, h, rfl⟩
        cases h
        rfl
  | cons item items ih =>
      constructor
      · intro h
        rw [leavesOfMembers] at h
        obtain ⟨qs, hfirst, hrest⟩ := exists_of_bind_eq_ok h
        obtain ⟨rs, hothers, happend⟩ := exists_of_bind_eq_ok hrest
        cases happend
        obtain ⟨pss, hpss, rfl⟩ := ih.1 hothers
        exact ⟨qs :: pss, List.Forall₂.cons hfirst hpss, rfl⟩
      · rintro ⟨pss, h, rfl⟩
        cases h with
        | cons hfirst hpss =>
            rw [leavesOfMembers, hfirst, ih.2 ⟨_, hpss, rfl⟩]
            rfl

theorem exists_leavesOfMembers_iff
    {i : Inheritance}
    {items : List Item} :
    (∃ ps, leavesOfMembers i items = .ok ps) ↔ ∀ m ∈ items, ∃ ps, leaves i m = .ok ps := by
  simp only [leavesOfMembers_eq_ok_iff]
  rw [← exists_forall₂_iff]
  constructor
  · rintro ⟨_, pss, h, -⟩
    exact ⟨pss, h⟩
  · rintro ⟨pss, h⟩
    exact ⟨pss.flatten, pss, h, rfl⟩

theorem exists_leaves_iff
    {i : Inheritance}
    {item : Item} :
    (∃ ps, leaves i item = .ok ps) ↔ item.Decodes := by
  induction item using Item.induction generalizing i with
  | encoded text =>
      rw [leaves]
      cases h : Permission.parse text with
      | error e =>
          constructor
          · rintro ⟨ps, ⟨⟩⟩
          · rintro ⟨hp⟩
            rw [h] at hp
            cases hp
      | ok p => exact ⟨fun _ => Decodes.encoded h, fun _ => ⟨_, rfl⟩⟩
  | leaf p => exact ⟨fun _ => Decodes.leaf p, fun _ => ⟨_, rfl⟩⟩
  | group members conditions scope ih =>
      rw [leaves, exists_leavesOfMembers_iff, decodes_group_iff]
      exact forall₂_congr fun m hm => ih m hm

theorem mem_leaves_iff
    {i : Inheritance}
    {item : Item}
    {ps : List Permission}
    (h : leaves i item = .ok ps)
    {p : Permission} :
    p ∈ ps ↔ Holds i item p := by
  induction item using Item.induction generalizing i ps with
  | encoded text =>
      rw [leaves] at h
      cases hq : Permission.parse text with
      | error e => rw [hq] at h; cases h
      | ok q =>
          rw [hq] at h
          cases h
          rw [List.mem_singleton]
          constructor
          · rintro rfl
            exact Holds.encoded hq
          · rintro ⟨hq'⟩
            rw [hq] at hq'
            cases hq'
            rfl
  | leaf q =>
      cases h
      rw [List.mem_singleton]
      constructor
      · rintro rfl
        exact Holds.leaf i q
      · rintro ⟨⟩
        rfl
  | group members conditions scope ih =>
      rw [leaves, leavesOfMembers_eq_ok_iff] at h
      obtain ⟨pss, hpss, rfl⟩ := h
      rw [List.mem_flatten, holds_group_iff]
      constructor
      · rintro ⟨qs, hqs, hp⟩
        obtain ⟨m, hm, hleaves⟩ := exists_left_of_forall₂ hpss hqs
        exact ⟨m, hm, (ih m hm hleaves).1 hp⟩
      · rintro ⟨m, hm, hp⟩
        obtain ⟨qs, hqs, hleaves⟩ := exists_right_of_forall₂ hpss hm
        exact ⟨qs, hqs, (ih m hm hleaves).2 hp⟩

theorem flatten_eq_leavesOfMembers (items : List Item) :
    flatten items = leavesOfMembers {} items := by
  have hid : (fun p : Permission => p.inherit {}) = id := funext inherit_nothing
  rw [flatten, hid, List.map_id_fun]
  cases leavesOfMembers {} items <;> rfl

/-- A list of items flattens if all texts in it decode. -/
theorem exists_flatten_iff
    {items : List Item} :
    (∃ ps, flatten items = .ok ps) ↔ ∀ m ∈ items, m.Decodes := by
  rw [flatten_eq_leavesOfMembers, exists_leavesOfMembers_iff]
  exact forall₂_congr fun m _ => exists_leaves_iff

/-- The flat list holds what the items hold. -/
theorem mem_flatten_iff
    {items : List Item}
    {ps : List Permission}
    (h : flatten items = .ok ps)
    {p : Permission} :
    p ∈ ps ↔ ∃ m ∈ items, Holds {} m p := by
  rw [flatten_eq_leavesOfMembers] at h
  obtain ⟨pss, hpss, rfl⟩ := leavesOfMembers_eq_ok_iff.1 h
  rw [List.mem_flatten]
  constructor
  · rintro ⟨qs, hqs, hp⟩
    obtain ⟨m, hm, hleaves⟩ := exists_left_of_forall₂ hpss hqs
    exact ⟨m, hm, (mem_leaves_iff hleaves).1 hp⟩
  · rintro ⟨m, hm, hp⟩
    obtain ⟨qs, hqs, hleaves⟩ := exists_right_of_forall₂ hpss hm
    exact ⟨qs, hqs, (mem_leaves_iff hleaves).2 hp⟩

theorem Holds.keysDistinct
    {i : Inheritance}
    {item : Item}
    {p : Permission}
    (h : Holds i item p)
    (hi : i.KeysDistinct)
    (hitem : item.KeysDistinct) :
    p.KeysDistinct := by
  induction h with
  | encoded hq => exact (Permission.keysDistinct_of_parse hq).inherit hi
  | leaf i q =>
      cases hitem with
      | leaf hq => exact hq.inherit hi
  | group hm _ ih =>
      obtain ⟨hms, hc⟩ := keysDistinct_group_iff.1 hitem
      exact ih (hi.extend hc _) (hms _ hm)

/-! Items that are the same. -/

theorem sameMembers_iff
    {ms ns : List Item} :
    sameMembers ms ns = true ↔ List.Forall₂ (fun m n => same m n = true) ms ns := by
  induction ms generalizing ns with
  | nil => cases ns <;> simp [sameMembers]
  | cons m ms ih =>
      cases ns with
      | nil => simp [sameMembers]
      | cons n ns => rw [sameMembers, Bool.and_eq_true, ih, List.forall₂_cons]

theorem same_group_group_iff
    {ms ns : List Item}
    {c d : Option Object}
    {s t : Option Scope} :
    same (.group ms c s) (.group ns d t) = true ↔
      List.Forall₂ (fun m n => same m n = true) ms ns ∧
        Permission.sameConditions c d = true ∧ s = t := by
  rw [← sameMembers_iff]
  exact same_group_iff ⟨ms, c, s⟩ ⟨ns, d, t⟩

theorem decodes_iff_of_same
    {item other : Item}
    (h : item.same other = true) :
    item.Decodes ↔ other.Decodes := by
  induction item using Item.induction generalizing other with
  | encoded text =>
      cases other with
      | encoded text' =>
          rw [same, beq_iff_eq] at h
          rw [h]
      | _ => simp [same] at h
  | leaf p =>
      cases other with
      | leaf q => exact ⟨fun _ => Decodes.leaf q, fun _ => Decodes.leaf p⟩
      | _ => simp [same] at h
  | group members conditions scope ih =>
      cases other with
      | group others conditions' scope' =>
          obtain ⟨hms, -, -⟩ := same_group_group_iff.1 h
          rw [decodes_group_iff, decodes_group_iff]
          constructor
          · intro hd n hn
            obtain ⟨m, hm, hmn⟩ := exists_left_of_forall₂ hms hn
            exact (ih m hm hmn).1 (hd m hm)
          · intro hd m hm
            obtain ⟨n, hn, hmn⟩ := exists_right_of_forall₂ hms hm
            exact (ih m hm hmn).2 (hd n hn)
      | _ => simp [same] at h

theorem Holds.exists_same
    {i j : Inheritance}
    {item other : Item}
    {p : Permission}
    (h : Holds i item p)
    (hi : i.KeysDistinct)
    (hj : j.KeysDistinct)
    (hitem : item.KeysDistinct)
    (hother : other.KeysDistinct)
    (hij : i.Same j)
    (hsame : item.same other = true) :
    ∃ q, Holds j other q ∧ p.same q = true := by
  induction h generalizing j other with
  | @encoded i text p hp =>
      cases other with
      | encoded text' =>
          rw [same, beq_iff_eq] at hsame
          subst hsame
          have hdistinct := Permission.keysDistinct_of_parse hp
          exact ⟨_, Holds.encoded hp, Permission.same_inherit hdistinct hdistinct hi hj
            (Permission.same_refl hdistinct) hij⟩
      | _ => simp [same] at hsame
  | leaf i p =>
      cases other with
      | leaf q =>
          cases hitem with
          | leaf hp =>
              cases hother with
              | leaf hq =>
                  exact ⟨_, Holds.leaf j q, Permission.same_inherit hp hq hi hj hsame hij⟩
      | _ => simp [same] at hsame
  | @group i members conditions scope m p hm _ ih =>
      cases other with
      | group others conditions' scope' =>
          obtain ⟨hms, hc, rfl⟩ := same_group_group_iff.1 hsame
          obtain ⟨hmdistinct, hcdistinct⟩ := keysDistinct_group_iff.1 hitem
          obtain ⟨hmdistinct', hcdistinct'⟩ := keysDistinct_group_iff.1 hother
          obtain ⟨n, hn, hmn⟩ := exists_right_of_forall₂ hms hm
          obtain ⟨q, hq, hpq⟩ := ih (hi.extend hcdistinct scope) (hj.extend hcdistinct' scope)
            (hmdistinct m hm) (hmdistinct' n hn)
            (Inheritance.Same.extend hi hj hcdistinct hcdistinct' hij hc scope) hmn
          exact ⟨q, Holds.group hn hq, hpq⟩
      | _ => simp [same] at hsame

theorem same_refl
    {item : Item}
    (h : item.KeysDistinct) :
    item.same item = true := by
  induction h with
  | encoded text => simp [same]
  | leaf hp => exact Permission.same_refl hp
  | group scope _ hc ih =>
      rw [same_group_group_iff, List.forall₂_same]
      exact ⟨ih, Permission.sameConditions_refl hc, rfl⟩

end Item
end Warrant
