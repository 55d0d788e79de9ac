import Warrant.Proofs.Ability.Decisions

/-!
# Lists of names and single names

A grant on several subjects and actions covers a pair of one subject and one action if and only if
one of the grants that it expands to covers the pair.  The global names are no exception: a list
that holds one covers every name, and so does the single name that it is split into.  A grant
without subjects or without actions covers no pair and expands to nothing.

So policies may be split in part or as a whole.  Requests may be split as well, unless they name
no subject or no action: such a request does not pass, though there is no pair in it that fails.

**Results.**
* `any_expand_covers`: a grant and the grants that it expands to cover the same pairs.
* `passes_of_splitsInto`: a policy decides alike after some of its permissions were split.
* `passes_splitting`: the same, beside the splitting of requests.
-/

namespace Warrant

namespace Permission

variable {config : Config} {context : Option Json}

/-- A list covers one name if one of its names does. -/
theorem coversNames_singleton_iff
    {globalName name : String}
    {names : List String} :
    coversNames globalName names [name] = true ↔
      ∃ n ∈ names, coversNames globalName [n] [name] = true := by
  simp only [coversNames, List.all_cons, List.all_nil, Bool.and_true, Bool.or_eq_true,
    List.contains_iff_mem, List.mem_singleton]
  constructor
  · rintro (hglobal | hname)
    -- the global name is split off like any other and covers the same names on its own
    · exact ⟨globalName, hglobal, Or.inl rfl⟩
    · exact ⟨name, hname, Or.inr rfl⟩
  · rintro ⟨n, hn, rfl | rfl⟩
    · exact Or.inl hn
    · exact Or.inr hn

section Languages

variable [Languages]

theorem covers_iff
    {p request : Permission} :
    covers config p request context = true ↔
      (coversScope p.scope request.scope = true ∧ holdsIn p.conditions context = true ∧
        coversConditions p.conditions request.conditions = true) ∧
      coversNames config.globalSubject p.subjects request.subjects = true ∧
        coversNames config.globalAction p.actions request.actions = true := by
  simp only [covers, Bool.and_eq_true]
  constructor
  · rintro ⟨⟨⟨⟨hscope, hactions⟩, hsubjects⟩, hholds⟩, hconditions⟩
    exact ⟨⟨hscope, hholds, hconditions⟩, hsubjects, hactions⟩
  · rintro ⟨⟨hscope, hholds, hconditions⟩, hsubjects, hactions⟩
    exact ⟨⟨⟨⟨hscope, hactions⟩, hsubjects⟩, hholds⟩, hconditions⟩

/-- A grant covers a pair if one of the grants that it expands to does. -/
theorem covers_single_iff
    {p request : Permission}
    {subject action : String} :
    covers config p (request.single subject action) context = true ↔
      ∃ q ∈ p.expand, covers config q (request.single subject action) context = true := by
  constructor
  · intro h
    obtain ⟨hrest, hsubject, haction⟩ := covers_iff.1 h
    obtain ⟨s, hs, hsubject⟩ := coversNames_singleton_iff.1 hsubject
    obtain ⟨x, hx, haction⟩ := coversNames_singleton_iff.1 haction
    exact ⟨p.single s x, mem_expand_iff.2 ⟨s, hs, x, hx, rfl⟩,
      covers_iff.2 ⟨hrest, hsubject, haction⟩⟩
  · rintro ⟨q, hq, h⟩
    obtain ⟨s, hs, x, hx, rfl⟩ := mem_expand_iff.1 hq
    obtain ⟨hrest, hsubject, haction⟩ := covers_iff.1 h
    exact covers_iff.2 ⟨hrest, coversNames_singleton_iff.2 ⟨s, hs, hsubject⟩,
      coversNames_singleton_iff.2 ⟨x, hx, haction⟩⟩

end Languages

/-- A pair expands to itself. -/
theorem expand_single
    (p : Permission)
    (subject action : String) :
    (p.single subject action).expand = [p.single subject action] := rfl

theorem expand_ne_nil_iff {p : Permission} :
    p.expand ≠ [] ↔ p.subjects ≠ [] ∧ p.actions ≠ [] := by
  constructor
  · intro h
    constructor
    · intro hsubjects
      exact h (by simp [expand, hsubjects])
    · intro hactions
      exact h (by simp [expand, hactions])
  · rintro ⟨hsubjects, hactions⟩ h
    obtain ⟨s, hs⟩ := List.exists_mem_of_ne_nil _ hsubjects
    obtain ⟨x, hx⟩ := List.exists_mem_of_ne_nil _ hactions
    have hmem : p.single s x ∈ p.expand := mem_expand_iff.2 ⟨s, hs, x, hx, rfl⟩
    rw [h] at hmem
    cases hmem

/-- Some of the permissions of a list replaced by what they expand to. -/
inductive SplitsInto : List Permission → List Permission → Prop
  | nil : SplitsInto [] []
  | keep {ps qs : List Permission} (p : Permission) :
      SplitsInto ps qs →
      SplitsInto (p :: ps) (p :: qs)
  | split {ps qs : List Permission} (p : Permission) :
      SplitsInto ps qs →
      SplitsInto (p :: ps) (p.expand ++ qs)

end Permission

namespace Ability

open Permission (SplitsInto)

section Languages

variable [Languages]

/-- The grants that a grant expands to cover the pairs that it covers itself. -/
theorem any_expand_covers
    (p : Permission)
    (effect : Effect)
    (config : Config)
    (request : Permission)
    (subject action : String)
    (context : Option Json) :
    (p.expand.any fun q =>
        q.effect == effect && q.covers config (request.single subject action) context) =
      (p.effect == effect && p.covers config (request.single subject action) context) := by
  rw [Bool.eq_iff_iff, List.any_eq_true, Bool.and_eq_true, beq_iff_eq,
    Permission.covers_single_iff]
  simp only [Bool.and_eq_true, beq_iff_eq]
  constructor
  · rintro ⟨q, hq, heffect, hcovers⟩
    exact ⟨Permission.effect_of_mem_expand hq ▸ heffect, q, hq, hcovers⟩
  · rintro ⟨heffect, q, hq, hcovers⟩
    exact ⟨q, hq, (Permission.effect_of_mem_expand hq).trans heffect, hcovers⟩

theorem someCovers_of_splitsInto
    {ps qs : List Permission}
    (h : SplitsInto ps qs)
    (effect : Effect)
    (config : Config)
    (request : Permission)
    (subject action : String)
    (context : Option Json) :
    someCovers ⟨qs, config⟩ effect (request.single subject action) context =
      someCovers ⟨ps, config⟩ effect (request.single subject action) context := by
  unfold someCovers
  induction h with
  | nil => rfl
  | keep p _ ih => rw [List.any_cons, List.any_cons, ih]
  | split p _ ih => rw [List.any_append, List.any_cons, any_expand_covers, ih]

/-- A policy decides alike after some of its permissions were split. -/
theorem passes_of_splitsInto
    {ps qs : List Permission}
    (h : SplitsInto ps qs)
    (config : Config)
    (request : Permission)
    (context : Option Json) :
    passes ⟨qs, config⟩ request context = passes ⟨ps, config⟩ request context := by
  apply passes_eq_of_someCovers
  intro effect r s x
  exact someCovers_of_splitsInto h effect config r s x context

theorem passes_of_mem_expand
    (a : Ability)
    {request q : Permission}
    (hq : q ∈ request.expand)
    (context : Option Json) :
    a.passes q context = a.passesSingle q context := by
  obtain ⟨s, -, x, -, rfl⟩ := Permission.mem_expand_iff.1 hq
  rw [passes, Permission.expand_single, List.all_cons, List.all_nil, Bool.and_true]
  rfl

/-- A request with pairs passes if all its pairs do. -/
theorem passes_eq_all_expand
    (a : Ability)
    {request : Permission}
    (hsubjects : request.subjects ≠ [])
    (hactions : request.actions ≠ [])
    (context : Option Json) :
    a.passes request context = request.expand.all (a.passes · context) := by
  have hne := Permission.expand_ne_nil_iff.2 ⟨hsubjects, hactions⟩
  rw [Bool.eq_iff_iff, passes_iff, List.all_eq_true]
  constructor
  · rintro ⟨-, hpairs⟩ q hq
    rw [passes_of_mem_expand a hq]
    exact hpairs q hq
  · intro hpairs
    refine ⟨hne, ?_⟩
    intro q hq
    rw [← passes_of_mem_expand a hq]
    exact hpairs q hq

/-- What is allowed is not denied. -/
theorem not_passes_both
    (a : Ability)
    (request : Permission)
    (context : Option Json) :
    ¬(a.passes { request with effect := .can } context = true ∧
      a.passes { request with effect := .cannot } context = true) := by
  rintro ⟨hcan, hcannot⟩
  -- both requests have the same pairs, and what covers a pair does not depend on its effect
  obtain ⟨hne, hallowed⟩ := passes_iff.1 hcan
  obtain ⟨-, hdenied⟩ := passes_iff.1 hcannot
  obtain ⟨hsubjects, hactions⟩ := Permission.expand_ne_nil_iff.1 hne
  obtain ⟨s, hs⟩ := List.exists_mem_of_ne_nil _ hsubjects
  obtain ⟨x, hx⟩ := List.exists_mem_of_ne_nil _ hactions
  have hyes : a.allows (request.single s x) context = true :=
    hallowed _ (Permission.mem_expand_iff.2 ⟨s, hs, x, hx, rfl⟩)
  have hno : (!a.allows (request.single s x) context) = true :=
    hdenied _ (Permission.mem_expand_iff.2 ⟨s, hs, x, hx, rfl⟩)
  rw [hyes] at hno
  cases hno

/-- **Names mean the same in lists and one by one.**  A policy decides alike after any of its
permissions were split, and a request with pairs passes if all its pairs do.  No request passes
both to be allowed and to be denied. -/
theorem passes_splitting
    {items : List Item}
    {config : Config}
    {a : Ability}
    (ha : ofItems items config = .ok a) :
    (∀ grants, SplitsInto a.permissions grants →
      ∃ b, ofItems (grants.map .leaf) config = .ok b ∧
        ∀ request context, b.passes request context = a.passes request context) ∧
      (∀ (request : Permission) (context : Option Json),
        request.subjects ≠ [] → request.actions ≠ [] →
          a.passes request context = request.expand.all (a.passes · context)) ∧
      ∀ (request : Permission) (context : Option Json),
        ¬(a.passes { request with effect := .can } context = true ∧
          a.passes { request with effect := .cannot } context = true) := by
  obtain ⟨-, rfl⟩ := ofItems_eq_ok_iff.1 ha
  refine ⟨?_, ?_, not_passes_both a⟩
  · intro grants hsplit
    exact ⟨_, ofItems_leaves grants a.config, passes_of_splitsInto hsplit a.config⟩
  · intro request context hsubjects hactions
    exact passes_eq_all_expand a hsubjects hactions context

end Languages

/-- A grant of everything on all documents beside the named ones, a grant of nothing, and a
denial of two actions. -/
def manageDocuments : List Permission :=
  [Permission.can ["read", "manage"] ["doc", "draft"], Permission.can [] ["all"],
    Permission.cannot ["publish", "delete"] ["draft"]]

/-- The grants are split, the denial is kept, and a request for two documents is decided by its
pairs. -/
theorem passes_splitting_manageDocuments :
    SplitsInto manageDocuments
        [Permission.can ["read"] ["doc"], Permission.can ["manage"] ["doc"],
          Permission.can ["read"] ["draft"], Permission.can ["manage"] ["draft"],
          Permission.cannot ["publish", "delete"] ["draft"]] ∧
      (∃ b, ofItems
          [.leaf (Permission.can ["read"] ["doc"]), .leaf (Permission.can ["manage"] ["doc"]),
            .leaf (Permission.can ["read"] ["draft"]), .leaf (Permission.can ["manage"] ["draft"]),
            .leaf (Permission.cannot ["publish", "delete"] ["draft"])] = .ok b ∧
        ∀ request context,
          b.passes request context = passes ⟨manageDocuments, {}⟩ request context) ∧
      passes ⟨manageDocuments, {}⟩ (Permission.can ["publish"] ["doc", "draft"]) none =
        (Permission.can ["publish"] ["doc", "draft"]).expand.all
          (passes ⟨manageDocuments, {}⟩ · none) := by
  have hsplit : SplitsInto manageDocuments
      [Permission.can ["read"] ["doc"], Permission.can ["manage"] ["doc"],
        Permission.can ["read"] ["draft"], Permission.can ["manage"] ["draft"],
        Permission.cannot ["publish", "delete"] ["draft"]] :=
    SplitsInto.split _ (SplitsInto.split _ (SplitsInto.keep _ SplitsInto.nil))
  obtain ⟨hpolicy, hrequest, -⟩ := passes_splitting (ofItems_leaves manageDocuments {})
  exact ⟨hsplit, hpolicy _ hsplit, hrequest _ none (List.cons_ne_nil _ _) (List.cons_ne_nil _ _)⟩

end Ability
end Warrant
