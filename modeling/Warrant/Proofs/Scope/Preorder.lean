import Mathlib.Data.List.Forall2
import Warrant.Scope.Covers

/-!
# Coverage as a preorder

Coverage is reflexive and transitive, also where the scope in the middle has wildcards: what
matches a wildcard type is a wildcard type, and what matches a wildcard id is a wildcard id or
none.  A continued scope is covered by what covered it before, and a common front may be taken
away from both sides.

Coverage is no partial order.  A subject without an id and one with a wildcard id cover the same
scopes, and this is the only way in which two scopes that cover each other can differ.

**Results.**
* `covers_refl`, `covers_trans`: coverage is a preorder.
* `covers_join`, `covers_join_of_covers`, `covers_of_parent?`: how it grows with the scope covered.
* `join_covers_join`: a common front does not matter.
* `covers_both_iff`: which scopes cover each other.
* `covers_preorder`: all of this.
-/

namespace Warrant

namespace Subject

/-- Two subjects of one type whose ids are the same, or a wildcard and none. -/
def Interchangeable (x y : Subject) : Prop :=
  x.kind = y.kind ∧
    (x.id = y.id ∨ (x.id = none ∧ y.id = some wildcard) ∨ (x.id = some wildcard ∧ y.id = none))

theorem matchesChild_eq_true_iff {x y : Subject} :
    x.matchesChild y = true ↔
      (x.kind = wildcard ∨ x.kind = y.kind) ∧
        (x.id = none ∨ x.id = some wildcard ∨ x.id = y.id) := by
  obtain ⟨kind, id⟩ := x
  cases id with
  | none => simp [matchesChild]
  | some id => simp [matchesChild, eq_comm (a := y.id)]

theorem matchesChild_refl (x : Subject) : x.matchesChild x = true :=
  matchesChild_eq_true_iff.2 ⟨.inr rfl, .inr (.inr rfl)⟩

theorem matchesChild_trans
    {x y z : Subject}
    (hxy : x.matchesChild y = true)
    (hyz : y.matchesChild z = true) :
    x.matchesChild z = true := by
  obtain ⟨hkind, hid⟩ := matchesChild_eq_true_iff.1 hxy
  obtain ⟨hkind', hid'⟩ := matchesChild_eq_true_iff.1 hyz
  refine matchesChild_eq_true_iff.2 ⟨?_, ?_⟩
  · rcases hkind with hwild | hkind
    · exact .inl hwild
    · rw [hkind]
      exact hkind'
  · rcases hid with hnone | hwild | hid
    · exact .inl hnone
    · exact .inr (.inl hwild)
    · rw [hid]
      exact hid'

/-- Subjects that match each other are interchangeable. -/
theorem matchesChild_both_iff {x y : Subject} :
    x.matchesChild y = true ∧ y.matchesChild x = true ↔ x.Interchangeable y := by
  rw [matchesChild_eq_true_iff, matchesChild_eq_true_iff]
  constructor
  · rintro ⟨⟨hkind, hid⟩, hkind', hid'⟩
    refine ⟨?_, ?_⟩
    · rcases hkind with hwild | hkind
      · rcases hkind' with hwild' | hkind'
        · exact hwild.trans hwild'.symm
        · exact hkind'.symm
      · exact hkind
    · rcases hid with hnone | hwild | hid
      · rcases hid' with hnone' | hwild' | hid'
        · exact .inl (hnone.trans hnone'.symm)
        · exact .inr (.inl ⟨hnone, hwild'⟩)
        · exact .inl hid'.symm
      · rcases hid' with hnone' | hwild' | hid'
        · exact .inr (.inr ⟨hwild, hnone'⟩)
        · exact .inl (hwild.trans hwild'.symm)
        · exact .inl hid'.symm
      · exact .inl hid
  · rintro ⟨hkind, hid | ⟨hnone, hwild⟩ | ⟨hwild, hnone⟩⟩
    · exact ⟨⟨.inr hkind, .inr (.inr hid)⟩, .inr hkind.symm, .inr (.inr hid.symm)⟩
    · exact ⟨⟨.inr hkind, .inl hnone⟩, .inr hkind.symm, .inr (.inl hwild)⟩
    · exact ⟨⟨.inr hkind, .inr (.inl hwild)⟩, .inr hkind.symm, .inl hnone⟩

end Subject

namespace Scope

/-! Lists of subjects. -/

section Subjects

variable {ps cs ds : List Subject}

theorem coversSubjects_cons_cons {p c : Subject} :
    coversSubjects (p :: ps) (c :: cs) = true ↔
      p.matchesChild c = true ∧ coversSubjects ps cs = true := by
  rw [coversSubjects, Bool.and_eq_true]

theorem coversSubjects_trans
    (hpc : coversSubjects ps cs = true)
    (hcd : coversSubjects cs ds = true) :
    coversSubjects ps ds = true := by
  induction ps generalizing cs ds with
  | nil => rfl
  | cons p ps ih =>
      cases cs with
      | nil => cases hpc
      | cons c cs =>
          cases ds with
          | nil => cases hcd
          | cons d ds =>
              rw [coversSubjects_cons_cons] at hpc hcd ⊢
              exact ⟨Subject.matchesChild_trans hpc.1 hcd.1, ih hpc.2 hcd.2⟩

/-- A front that both sides have in common matches itself. -/
theorem coversSubjects_append (front : List Subject) :
    coversSubjects (front ++ ps) (front ++ cs) = coversSubjects ps cs := by
  induction front with
  | nil => rfl
  | cons c front ih =>
      rw [List.cons_append, List.cons_append, coversSubjects, Subject.matchesChild_refl,
        Bool.true_and, ih]

theorem coversSubjects_both_iff :
    coversSubjects ps cs = true ∧ coversSubjects cs ps = true ↔
      List.Forall₂ Subject.Interchangeable ps cs := by
  induction ps generalizing cs with
  | nil => cases cs <;> simp [coversSubjects]
  | cons p ps ih =>
      cases cs with
      | nil => simp [coversSubjects]
      | cons c cs =>
          rw [coversSubjects_cons_cons, coversSubjects_cons_cons, List.forall₂_cons,
            ← Subject.matchesChild_both_iff, ← ih, and_and_and_comm]

end Subjects

/-! Scopes. -/

variable {a b c : Scope}

/-- The scopes have interchangeable subjects at the same places, and equally many. -/
def Interchangeable (a b : Scope) : Prop :=
  List.Forall₂ Subject.Interchangeable a.subjects b.subjects

theorem covers_trans
    (hab : a.covers b = true)
    (hbc : b.covers c = true) :
    a.covers c = true :=
  coversSubjects_trans hab hbc

theorem join_covers_join (p a b : Scope) : (p.join a).covers (p.join b) = a.covers b :=
  coversSubjects_append p.subjects

theorem covers_join (a x : Scope) : a.covers (a.join x) = true := by
  have h := join_covers_join a global x
  rw [join_global] at h
  exact h.trans (covers_global x)

theorem covers_refl (a : Scope) : a.covers a = true := by
  have h := covers_join a global
  rwa [join_global] at h

theorem covers_join_of_covers
    (h : a.covers b = true)
    (x : Scope) :
    a.covers (b.join x) = true :=
  covers_trans h (covers_join b x)

theorem eq_join_of_parent?
    {p : Scope}
    (h : a.parent? = some p) :
    ∃ last, a = p.join ⟨[last]⟩ := by
  unfold parent? at h
  split at h
  · cases h
  next hne =>
    cases h
    rw [List.isEmpty_iff] at hne
    refine ⟨a.subjects.getLast hne, ?_⟩
    rw [join, List.dropLast_concat_getLast hne]

theorem covers_of_parent?
    {p : Scope}
    (h : a.parent? = some p) :
    p.covers a = true := by
  obtain ⟨last, rfl⟩ := eq_join_of_parent? h
  exact covers_join p _

theorem covers_both_iff : a.covers b = true ∧ b.covers a = true ↔ a.Interchangeable b :=
  coversSubjects_both_iff

/-- **Coverage is a preorder that goes with the operations on scopes.**  It is reflexive and
transitive; the global scope is its least element; a scope covers its continuations and those of
what it covers, and it is covered by its parent; a common front may be added or taken away; and
two scopes cover each other exactly if they differ at most in wildcard ids that the other one does
not give. -/
theorem covers_preorder :
    (∀ a : Scope, a.covers a = true) ∧
      (∀ a b c : Scope, a.covers b = true → b.covers c = true → a.covers c = true) ∧
      (∀ a : Scope, global.covers a = true) ∧
      (∀ a x : Scope, a.covers (a.join x) = true) ∧
      (∀ a b x : Scope, a.covers b = true → a.covers (b.join x) = true) ∧
      (∀ a p : Scope, a.parent? = some p → p.covers a = true) ∧
      (∀ p a b : Scope, (p.join a).covers (p.join b) = true ↔ a.covers b = true) ∧
      (∀ a b : Scope, a.covers b = true ∧ b.covers a = true ↔ a.Interchangeable b) := by
  refine ⟨covers_refl, ?_, covers_global, covers_join, ?_, ?_, ?_, ?_⟩
  · intro a b c hab hbc
    exact covers_trans hab hbc
  · intro a b x hab
    exact covers_join_of_covers hab x
  · intro a p hp
    exact covers_of_parent? hp
  · intro p a b
    rw [join_covers_join]
  · intro a b
    exact covers_both_iff

/-- The apps under anything cover those of all organisations, and these cover one app of one
organisation; so the first cover the last, across wildcards.  The app is also covered by its
organisation. -/
theorem covers_preorder_wildcards :
    covers ⟨[⟨"*", none⟩, ⟨"app", some "*"⟩]⟩ ⟨[⟨"org", some "*"⟩, ⟨"app", none⟩]⟩ = true ∧
      covers ⟨[⟨"org", some "*"⟩, ⟨"app", none⟩]⟩ ⟨[⟨"org", some "1"⟩, ⟨"app", some "2"⟩]⟩ = true ∧
      covers ⟨[⟨"*", none⟩, ⟨"app", some "*"⟩]⟩ ⟨[⟨"org", some "1"⟩, ⟨"app", some "2"⟩]⟩ = true ∧
      parent? ⟨[⟨"org", some "1"⟩, ⟨"app", some "2"⟩]⟩ = some ⟨[⟨"org", some "1"⟩]⟩ ∧
      covers ⟨[⟨"org", some "1"⟩]⟩ ⟨[⟨"org", some "1"⟩, ⟨"app", some "2"⟩]⟩ = true := by
  obtain ⟨-, htrans, -, -, -, hparent, -⟩ := covers_preorder
  have happs : covers ⟨[⟨"*", none⟩, ⟨"app", some "*"⟩]⟩
      ⟨[⟨"org", some "*"⟩, ⟨"app", none⟩]⟩ = true := by decide
  have happ : covers ⟨[⟨"org", some "*"⟩, ⟨"app", none⟩]⟩
      ⟨[⟨"org", some "1"⟩, ⟨"app", some "2"⟩]⟩ = true := by decide
  have hfront : parent? ⟨[⟨"org", some "1"⟩, ⟨"app", some "2"⟩]⟩ =
      some ⟨[⟨"org", some "1"⟩]⟩ := by decide
  exact ⟨happs, happ, htrans _ _ _ happs happ, hfront, hparent _ _ hfront⟩

end Scope
end Warrant
