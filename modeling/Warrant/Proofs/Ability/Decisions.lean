import Warrant.Ability.Basic
import Warrant.Standard

/-!
# Decisions on single pairs

A request is decided pair by pair, and each pair is either allowed or not.  An ability allows a
pair if one of its grants covers the pair and none of its denials does, wherever these stand in
the list.  So an ability that allows every pair which another one allows passes at least the
requests to be allowed and at most the requests to be denied that the other one passes.

More grants, or fewer denials, allow more pairs.  An ability with the same permissions, in
whatever order and however often they are repeated, allows the same pairs.

**Results.**
* `passes_of_allowsWithin`: what passes when more pairs are allowed.
* `passes_congr`: abilities whose permissions cover alike decide alike.
* `passes_adding`: how decisions change when grants or denials are added.
-/

namespace Warrant

theorem Permission.effect_of_mem_expand
    {p q : Permission}
    (hq : q ∈ p.expand) :
    q.effect = p.effect := by
  obtain ⟨s, -, x, -, rfl⟩ := mem_expand_iff.1 hq
  rfl

namespace Ability

/-! Abilities of item lists. -/

theorem ofItems_eq_ok_iff
    {items : List Item}
    {config : Config}
    {a : Ability} :
    ofItems items config = .ok a ↔
      Item.flatten items = .ok a.permissions ∧ a.config = config := by
  unfold ofItems
  cases Item.flatten items with
  | error e =>
      constructor
      · rintro ⟨⟩
      · rintro ⟨⟨⟩, -⟩
  | ok ps =>
      constructor
      · rintro ⟨⟩
        exact ⟨rfl, rfl⟩
      · rintro ⟨hps, rfl⟩
        cases hps
        rfl

theorem ofItems_leaves
    (ps : List Permission)
    (config : Config) :
    ofItems (ps.map .leaf) config = .ok ⟨ps, config⟩ :=
  ofItems_eq_ok_iff.2 ⟨Item.flatten_leaves ps, rfl⟩

/-- The one ability has the permissions of the other and, beside these, some of the given
effect. -/
structure Adds (effect : Effect) (a b : Ability) : Prop where
  keeps : ∀ p ∈ a.permissions, p ∈ b.permissions
  added : ∀ p ∈ b.permissions, p ∈ a.permissions ∨ p.effect = effect

theorem adds_cons
    {effect : Effect}
    {p : Permission}
    (hp : p.effect = effect)
    (ps : List Permission)
    (config : Config) :
    Adds effect ⟨ps, config⟩ ⟨p :: ps, config⟩ where
  keeps _ hq := List.mem_cons_of_mem p hq
  added q hq := by
    rcases List.mem_cons.1 hq with rfl | hold
    · exact Or.inr hp
    · exact Or.inl hold

/-! Pairs. -/

section Languages

variable [Languages]

theorem someCovers_iff
    {a : Ability}
    {effect : Effect}
    {request : Permission}
    {context : Option Json} :
    a.someCovers effect request context = true ↔
      ∃ p ∈ a.permissions, p.effect = effect ∧ p.covers a.config request context = true := by
  simp only [someCovers, List.any_eq_true, Bool.and_eq_true, beq_iff_eq]

theorem allows_iff
    {a : Ability}
    {request : Permission}
    {context : Option Json} :
    a.allows request context = true ↔
      ¬a.someCovers .cannot request context = true ∧ a.someCovers .can request context = true := by
  simp only [allows, Bool.and_eq_true, Bool.not_eq_true', Bool.not_eq_true]

theorem passes_iff
    {a : Ability}
    {request : Permission}
    {context : Option Json} :
    a.passes request context = true ↔
      request.expand ≠ [] ∧ ∀ q ∈ request.expand, a.passesSingle q context = true := by
  simp only [passes, Bool.and_eq_true, Bool.not_eq_true', List.isEmpty_eq_false_iff,
    List.all_eq_true]

/-- The one ability allows no pair that the other one does not allow. -/
def AllowsWithin (a b : Ability) (context : Option Json) : Prop :=
  ∀ (request : Permission) (subject action : String),
    a.allows (request.single subject action) context = true →
      b.allows (request.single subject action) context = true

/-- More is allowed under more grants and under fewer denials. -/
theorem allowsWithin_of_someCovers
    {a b : Ability}
    {context : Option Json}
    (hcan : ∀ (request : Permission) (subject action : String),
      a.someCovers .can (request.single subject action) context = true →
        b.someCovers .can (request.single subject action) context = true)
    (hcannot : ∀ (request : Permission) (subject action : String),
      b.someCovers .cannot (request.single subject action) context = true →
        a.someCovers .cannot (request.single subject action) context = true) :
    AllowsWithin a b context := by
  intro request subject action hallows
  obtain ⟨hdenied, hgranted⟩ := allows_iff.1 hallows
  refine allows_iff.2 ⟨?_, hcan request subject action hgranted⟩
  intro hcovers
  exact hdenied (hcannot request subject action hcovers)

/-- Where more pairs are allowed, more requests to be allowed pass and fewer requests to be
denied do. -/
theorem passes_of_allowsWithin
    {a b : Ability}
    {context : Option Json}
    (h : AllowsWithin a b context)
    (request : Permission) :
    (request.effect = .can → a.passes request context = true → b.passes request context = true) ∧
      (request.effect = .cannot →
        b.passes request context = true → a.passes request context = true) := by
  constructor
  · intro heffect hpasses
    obtain ⟨hne, hpairs⟩ := passes_iff.1 hpasses
    refine passes_iff.2 ⟨hne, ?_⟩
    intro q hq
    have hpair := hpairs q hq
    simp only [passesSingle, Permission.effect_of_mem_expand hq, heffect] at hpair ⊢
    obtain ⟨s, -, x, -, rfl⟩ := Permission.mem_expand_iff.1 hq
    exact h request s x hpair
  · intro heffect hpasses
    obtain ⟨hne, hpairs⟩ := passes_iff.1 hpasses
    refine passes_iff.2 ⟨hne, ?_⟩
    intro q hq
    have hpair := hpairs q hq
    simp only [passesSingle, Permission.effect_of_mem_expand hq, heffect, Bool.not_eq_true',
      Bool.eq_false_iff] at hpair ⊢
    obtain ⟨s, -, x, -, rfl⟩ := Permission.mem_expand_iff.1 hq
    intro hallows
    exact hpair (h request s x hallows)

/-- Abilities whose grants and whose denials cover the same pairs decide alike. -/
theorem passes_eq_of_someCovers
    {a b : Ability}
    {context : Option Json}
    (h : ∀ (effect : Effect) (request : Permission) (subject action : String),
      a.someCovers effect (request.single subject action) context =
        b.someCovers effect (request.single subject action) context)
    (request : Permission) :
    a.passes request context = b.passes request context := by
  have hallows : ∀ (r : Permission) (s x : String),
      a.allows (r.single s x) context = b.allows (r.single s x) context := by
    intro r s x
    rw [allows, allows, h, h]
  have hab : AllowsWithin a b context := fun r s x hx => hallows r s x ▸ hx
  have hba : AllowsWithin b a context := fun r s x hx => (hallows r s x).symm ▸ hx
  obtain ⟨hcan, hcannot⟩ := passes_of_allowsWithin hab request
  obtain ⟨hcan', hcannot'⟩ := passes_of_allowsWithin hba request
  rw [Bool.eq_iff_iff]
  cases heffect : request.effect with
  | can => exact ⟨hcan heffect, hcan' heffect⟩
  | cannot => exact ⟨hcannot' heffect, hcannot heffect⟩

/-- Every permission of the one ability has one in the other that covers the same requests. -/
def CoversWithin (a b : Ability) (context : Option Json) : Prop :=
  ∀ p ∈ a.permissions, ∃ q ∈ b.permissions, p.effect = q.effect ∧
    ∀ request, p.covers a.config request context = q.covers b.config request context

theorem someCovers_of_coversWithin
    {a b : Ability}
    {context : Option Json}
    (h : CoversWithin a b context)
    {effect : Effect}
    {request : Permission}
    (hcovers : a.someCovers effect request context = true) :
    b.someCovers effect request context = true := by
  obtain ⟨p, hp, heffect, hcovers⟩ := someCovers_iff.1 hcovers
  obtain ⟨q, hq, hsame, hrequests⟩ := h p hp
  exact someCovers_iff.2 ⟨q, hq, hsame ▸ heffect, hrequests request ▸ hcovers⟩

/-- Abilities whose permissions cover alike decide alike. -/
theorem passes_congr
    {a b : Ability}
    {context : Option Json}
    (hab : CoversWithin a b context)
    (hba : CoversWithin b a context)
    (request : Permission) :
    a.passes request context = b.passes request context := by
  apply passes_eq_of_someCovers
  intro effect r s x
  rw [Bool.eq_iff_iff]
  exact ⟨someCovers_of_coversWithin hab, someCovers_of_coversWithin hba⟩

/-! More permissions. -/

section SameConfig

variable {a b : Ability} (hconfig : a.config = b.config)
include hconfig

theorem coversWithin_of_subset
    (h : ∀ p ∈ a.permissions, p ∈ b.permissions)
    (context : Option Json) :
    CoversWithin a b context := by
  intro p hp
  refine ⟨p, h p hp, rfl, ?_⟩
  intro request
  rw [hconfig]

/-- Permissions of one effect leave those of the other as they are. -/
theorem someCovers_of_adds
    {added effect : Effect}
    (h : Adds added a b)
    (hne : effect ≠ added)
    {request : Permission}
    {context : Option Json}
    (hcovers : b.someCovers effect request context = true) :
    a.someCovers effect request context = true := by
  obtain ⟨p, hp, heffect, hcovers⟩ := someCovers_iff.1 hcovers
  rcases h.added p hp with hold | hnew
  · exact someCovers_iff.2 ⟨p, hold, heffect, hconfig ▸ hcovers⟩
  · exact absurd (heffect.symm.trans hnew) hne

theorem allowsWithin_of_adds_can
    (h : Adds .can a b)
    (context : Option Json) :
    AllowsWithin a b context :=
  allowsWithin_of_someCovers
    (fun _ _ _ => someCovers_of_coversWithin (coversWithin_of_subset hconfig h.keeps context))
    fun _ _ _ => someCovers_of_adds hconfig h (by decide)

theorem allowsWithin_of_adds_cannot
    (h : Adds .cannot a b)
    (context : Option Json) :
    AllowsWithin b a context :=
  allowsWithin_of_someCovers
    (fun _ _ _ => someCovers_of_adds hconfig h (by decide))
    fun _ _ _ => someCovers_of_coversWithin (coversWithin_of_subset hconfig h.keeps context)

end SameConfig

/-- **Decisions depend on which permissions are granted, not on their order or repetition, and
added permissions move them in one direction.**  Permissions of one effect keep all requests of
that effect passing and all requests of the other effect failing. -/
theorem passes_adding
    {items items' : List Item}
    {config : Config}
    {a b : Ability}
    (ha : ofItems items config = .ok a)
    (hb : ofItems items' config = .ok b)
    (context : Option Json) :
    ((∀ p, p ∈ a.permissions ↔ p ∈ b.permissions) →
      (∀ request, a.passes request context = b.passes request context) ∧
        ∀ requests, a.has requests context = b.has requests context ∧
          a.hasAny requests context = b.hasAny requests context) ∧
      (Adds .can a b → ∀ request,
        (request.effect = .can →
          a.passes request context = true → b.passes request context = true) ∧
        (request.effect = .cannot →
          a.passes request context = false → b.passes request context = false)) ∧
      (Adds .cannot a b → ∀ request,
        (request.effect = .can →
          a.passes request context = false → b.passes request context = false) ∧
        (request.effect = .cannot →
          a.passes request context = true → b.passes request context = true)) := by
  have hconfig : a.config = b.config :=
    (ofItems_eq_ok_iff.1 ha).2.trans (ofItems_eq_ok_iff.1 hb).2.symm
  refine ⟨?_, ?_, ?_⟩
  · intro hmem
    have hab := coversWithin_of_subset hconfig (fun p => (hmem p).1) context
    have hba := coversWithin_of_subset hconfig.symm (fun p => (hmem p).2) context
    have hpasses := passes_congr hab hba
    refine ⟨hpasses, ?_⟩
    intro requests
    simp only [has, hasAny, hpasses, and_self]
  · intro hadds request
    obtain ⟨hcan, hcannot⟩ := passes_of_allowsWithin
      (allowsWithin_of_adds_can hconfig hadds context) request
    simp only [← Bool.not_eq_true]
    exact ⟨hcan, fun heffect hfails hpasses => hfails (hcannot heffect hpasses)⟩
  · intro hadds request
    obtain ⟨hcan, hcannot⟩ := passes_of_allowsWithin
      (allowsWithin_of_adds_cannot hconfig hadds context) request
    simp only [← Bool.not_eq_true]
    exact ⟨fun heffect hfails hpasses => hfails (hcan heffect hpasses), hcannot⟩

end Languages

/-- A grant to read documents and drafts, and a denial of reading drafts. -/
def readPublished : List Permission :=
  [Permission.can ["read"] ["doc", "draft"], Permission.cannot ["read"] ["draft"]]

/-- Drafts stay denied whatever the order of the permissions and whatever else is granted; to
deny documents as well leaves the denial of drafts as it is. -/
theorem passes_adding_readPublished :
    ofItems (readPublished.map .leaf) = .ok ⟨readPublished, {}⟩ ∧
      passes ⟨readPublished, {}⟩ (Permission.can ["read"] ["doc"]) none = true ∧
      passes ⟨readPublished.reverse ++ readPublished, {}⟩
        (Permission.can ["read"] ["doc"]) none = true ∧
      passes ⟨Permission.can ["write"] ["doc"] :: readPublished, {}⟩
        (Permission.can ["read"] ["doc"]) none = true ∧
      passes ⟨Permission.cannot ["read"] ["doc"] :: readPublished, {}⟩
        (Permission.can ["read"] ["draft"]) none = false := by
  have hpolicy := ofItems_leaves readPublished {}
  have hread : passes ⟨readPublished, {}⟩ (Permission.can ["read"] ["doc"]) none = true := by
    decide
  have hdraft : passes ⟨readPublished, {}⟩ (Permission.can ["read"] ["draft"]) none = false := by
    decide
  have hreordered :=
    (passes_adding hpolicy (ofItems_leaves (readPublished.reverse ++ readPublished) {}) none).1
      (fun p => by simp)
  have hgranted := (passes_adding hpolicy (ofItems_leaves _ _) none).2.1
    (adds_cons (p := Permission.can ["write"] ["doc"]) rfl readPublished {})
  have hdenied := (passes_adding hpolicy (ofItems_leaves _ _) none).2.2
    (adds_cons (p := Permission.cannot ["read"] ["doc"]) rfl readPublished {})
  refine ⟨hpolicy, hread, ?_, ?_, ?_⟩
  · rw [← hreordered.1]
    exact hread
  · exact (hgranted _).1 rfl hread
  · exact (hdenied _).1 rfl hdraft

end Ability
end Warrant
