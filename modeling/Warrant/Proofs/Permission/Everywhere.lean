import Warrant.Proofs.Transform.Leaves

/-!
# Properties of items and of pairs of items

What holds of an item because it holds of every permission and of every scope in it, and what
holds between two items that differ in their scopes only.

**Results.**
* `everywhere_and_iff`: properties of permissions and of scopes are shown apart.
* `upToScope_self_iff`: an item is related to itself if its scopes are.
* `UpToScope.imp`, `UpToScope.eq_of_same`: from one relation between the scopes to another one.
-/

namespace Warrant
namespace Item

/-- Every permission in the item and every scope has a property. -/
inductive Everywhere (P : Permission → Prop) (Q : Scope → Prop) : Item → Prop
  | encoded (text : String) : Everywhere P Q (.encoded text)
  | leaf {p : Permission} :
      P p →
      (∀ s ∈ p.scope, Q s) →
      Everywhere P Q (.leaf p)
  | group {members : List Item} (conditions : Option Object) {scope : Option Scope} :
      (∀ m ∈ members, Everywhere P Q m) →
      (∀ s ∈ scope, Q s) →
      Everywhere P Q (.group members conditions scope)

/-- The items are the same but for the scopes, which are related. -/
inductive UpToScope (R : Scope → Scope → Prop) : Item → Item → Prop
  | encoded (text : String) : UpToScope R (.encoded text) (.encoded text)
  | leaf {p : Permission} {scope : Option Scope} :
      Option.Rel R p.scope scope →
      UpToScope R (.leaf p) (.leaf { p with scope })
  | group {members members' : List Item} (conditions : Option Object)
      {scope scope' : Option Scope} :
      List.Forall₂ (UpToScope R) members members' →
      Option.Rel R scope scope' →
      UpToScope R (.group members conditions scope) (.group members' conditions scope')

section Trees

variable {P : Permission → Prop} {Q : Scope → Prop} {R S : Scope → Scope → Prop}

theorem everywhere_leaf_iff
    {p : Permission} :
    Everywhere P Q (.leaf p) ↔ P p ∧ ∀ s ∈ p.scope, Q s := by
  constructor
  · rintro ⟨⟩
    exact ⟨‹_›, ‹_›⟩
  · rintro ⟨hp, hscope⟩
    exact Everywhere.leaf hp hscope

theorem everywhere_group_iff
    {members : List Item} {conditions : Option Object} {scope : Option Scope} :
    Everywhere P Q (.group members conditions scope) ↔
      (∀ m ∈ members, Everywhere P Q m) ∧ ∀ s ∈ scope, Q s := by
  constructor
  · rintro ⟨⟩
    exact ⟨‹_›, ‹_›⟩
  · rintro ⟨hmembers, hscope⟩
    exact Everywhere.group conditions hmembers hscope

theorem upToScope_encoded_iff
    {text : String} {y : Item} :
    UpToScope R (.encoded text) y ↔ y = .encoded text := by
  constructor
  · rintro ⟨⟩
    rfl
  · rintro rfl
    exact UpToScope.encoded text

theorem upToScope_leaf_iff
    {p : Permission} {y : Item} :
    UpToScope R (.leaf p) y ↔ ∃ scope, Option.Rel R p.scope scope ∧ y = .leaf { p with scope } := by
  constructor
  · rintro ⟨⟩
    exact ⟨_, ‹_›, rfl⟩
  · rintro ⟨scope, hscope, rfl⟩
    exact UpToScope.leaf hscope

theorem upToScope_group_iff
    {members : List Item} {conditions : Option Object} {scope : Option Scope} {y : Item} :
    UpToScope R (.group members conditions scope) y ↔
      ∃ members' scope', List.Forall₂ (UpToScope R) members members' ∧
        Option.Rel R scope scope' ∧ y = .group members' conditions scope' := by
  constructor
  · rintro ⟨⟩
    exact ⟨_, _, ‹_›, ‹_›, rfl⟩
  · rintro ⟨members', scope', hmembers, hscope, rfl⟩
    exact UpToScope.group conditions hmembers hscope

/-- A property of permissions and one of scopes may be shown one after the other. -/
theorem everywhere_and_iff
    {x : Item} :
    x.Everywhere P (fun _ => True) ∧ x.Everywhere (fun _ => True) Q ↔ x.Everywhere P Q := by
  induction x using Item.induction with
  | encoded text =>
      exact ⟨fun _ => Everywhere.encoded text,
        fun _ => ⟨Everywhere.encoded text, Everywhere.encoded text⟩⟩
  | leaf p =>
      simp only [everywhere_leaf_iff]
      exact ⟨fun h => ⟨h.1.1, h.2.2⟩, fun h => ⟨⟨h.1, fun _ _ => trivial⟩, trivial, h.2⟩⟩
  | group members conditions scope ih =>
      simp only [everywhere_group_iff]
      constructor
      · rintro ⟨⟨hp, -⟩, hq, hscope⟩
        exact ⟨fun m hm => (ih m hm).1 ⟨hp m hm, hq m hm⟩, hscope⟩
      · rintro ⟨hmembers, hscope⟩
        exact ⟨⟨fun m hm => ((ih m hm).2 (hmembers m hm)).1, fun _ _ => trivial⟩,
          fun m hm => ((ih m hm).2 (hmembers m hm)).2, hscope⟩

theorem optionRel_self_iff
    {scope : Option Scope} :
    Option.Rel R scope scope ↔ ∀ s ∈ scope, R s s := by
  cases scope with
  | none => exact ⟨fun _ => nofun, fun _ => Option.Rel.none⟩
  | some s =>
      constructor
      · rintro ⟨hs⟩ _ ⟨⟩
        exact hs
      · intro h
        exact Option.Rel.some (h s rfl)

theorem upToScope_self_iff
    {x : Item} :
    UpToScope R x x ↔ x.Everywhere (fun _ => True) fun s => R s s := by
  induction x using Item.induction with
  | encoded text => exact ⟨fun _ => Everywhere.encoded text, fun _ => UpToScope.encoded text⟩
  | leaf p =>
      rw [everywhere_leaf_iff, ← optionRel_self_iff, upToScope_leaf_iff]
      constructor
      · rintro ⟨scope, hscope, heq⟩
        have hself : p.scope = scope := congrArg Permission.scope (Item.leaf.inj heq)
        exact ⟨trivial, by rwa [← hself] at hscope⟩
      · rintro ⟨-, hscope⟩
        exact ⟨p.scope, hscope, rfl⟩
  | group members conditions scope ih =>
      rw [everywhere_group_iff, ← optionRel_self_iff, upToScope_group_iff]
      constructor
      · rintro ⟨_, _, hmembers, hscope, ⟨⟩⟩
        exact ⟨fun m hm => (ih m hm).1 (List.forall₂_same.1 hmembers m hm), hscope⟩
      · rintro ⟨hmembers, hscope⟩
        exact ⟨members, scope, List.forall₂_same.2 fun m hm => (ih m hm).2 (hmembers m hm), hscope,
          rfl⟩

theorem optionRel_imp
    {scope scope' : Option Scope}
    (h : Option.Rel R scope scope')
    (himp : ∀ s ∈ scope, ∀ t, R s t → S s t) :
    Option.Rel S scope scope' := by
  cases h with
  | none => exact Option.Rel.none
  | some hst => exact Option.Rel.some (himp _ rfl _ hst)

/-- Related scopes are related in another way if they are so where the item has its scopes. -/
theorem UpToScope.imp
    {x y : Item}
    (h : UpToScope R x y)
    (hx : x.Everywhere P Q)
    (himp : ∀ s t, Q s → R s t → S s t) :
    UpToScope S x y := by
  induction x using Item.induction generalizing y with
  | encoded text =>
      rw [upToScope_encoded_iff] at h ⊢
      exact h
  | leaf p =>
      obtain ⟨-, hscopes⟩ := everywhere_leaf_iff.1 hx
      obtain ⟨scope, hscope, rfl⟩ := upToScope_leaf_iff.1 h
      exact UpToScope.leaf (optionRel_imp hscope fun s hs t => himp s t (hscopes s hs))
  | group members conditions scope ih =>
      obtain ⟨hmembers, hscopes⟩ := everywhere_group_iff.1 hx
      obtain ⟨members', scope', hrel, hscope, rfl⟩ := upToScope_group_iff.1 h
      have hrel' : List.Forall₂ (UpToScope S) members members' :=
        (forall₂_mem hrel).imp fun m n h => ih m h.1 h.2 (hmembers m h.1)
      exact UpToScope.group conditions hrel'
        (optionRel_imp hscope fun s hs t => himp s t (hscopes s hs))

/-- Items that are the same up to the scopes are equal if they are the same. -/
theorem UpToScope.eq_of_same
    {x y : Item}
    (h : UpToScope R x y)
    (hsame : x.same y = true) :
    y = x := by
  induction x using Item.induction generalizing y with
  | encoded text => exact upToScope_encoded_iff.1 h
  | leaf p =>
      obtain ⟨scope, -, rfl⟩ := upToScope_leaf_iff.1 h
      obtain ⟨-, -, -, -, hscope⟩ := Permission.same_iff.1 hsame
      change p.scope = scope at hscope
      rw [← hscope]
  | group members conditions scope ih =>
      obtain ⟨members', scope', hrel, -, rfl⟩ := upToScope_group_iff.1 h
      obtain ⟨hmembers, -, rfl⟩ := same_group_group_iff.1 hsame
      have heq : List.Forall₂ Eq members members' :=
        List.Forall₂.mp (fun m n h hmn => (ih m h.1 h.2 hmn).symm) (forall₂_mem hrel) hmembers
      rw [List.forall₂_eq_eq_eq] at heq
      rw [heq]

end Trees

end Item
end Warrant
