import Warrant.Proofs.Ability.Splitting
import Warrant.Proofs.Condition.Equality
import Warrant.Proofs.Scope.PatternSource
import Warrant.Proofs.Scope.Reading

/-!
# Narrower requests

A request is narrowed if its scope is continued or given up, if it asks for fewer conditions or
for none, and if it names fewer subjects or actions.  A permission that covers a request covers
every narrower one.

For scopes this is so because a pattern is not anchored at the end of a text, and the text of a
scope begins the text of every scope that continues it, whether or not the scope has types
without ids or is the global one.  For conditions it is the transitivity of being within an
object.

So a denial cannot be escaped from by naming a narrower scope.

**Results.**
* `accepts_of_isPrefix`: what a pattern accepts, it accepts with any continuation.
* `text_isPrefix_text_join`: the text of a scope begins that of every scope that continues it.
* `covers_of_narrows`: a permission that covers a request covers every narrower one.
* `denied_narrowed`: the same, with the decisions of an ability on a narrower scope.
-/

namespace Warrant

namespace Glob

theorem append_mem_afterRun
    {t back : List Char}
    (h : back ∈ afterRun t)
    (rest : List Char) :
    back ++ rest ∈ afterRun (t ++ rest) := by
  induction t with
  | nil =>
      obtain rfl : back = [] := List.mem_singleton.1 h
      cases rest <;> exact List.mem_cons_self
  | cons c t ih =>
      rw [afterRun] at h
      rw [List.cons_append, afterRun]
      rcases List.mem_cons.1 h with rfl | h
      · exact List.mem_cons_self
      · apply List.mem_cons_of_mem
        split at h
        · cases h
        next hc =>
          rw [if_neg hc]
          exact ih h

theorem matchesHere_star (ps t : List Char) :
    matchesHere ('*' :: ps) t = (afterRun t).any (matchesHere ps) := rfl

/-- What a pattern matches at the front of a text, it matches at the front of a longer one. -/
theorem matchesHere_append
    {ps t : List Char}
    (h : matchesHere ps t = true)
    (rest : List Char) :
    matchesHere ps (t ++ rest) = true := by
  induction ps generalizing t with
  | nil => rfl
  | cons p ps ih =>
      by_cases hp : p = '*'
      · rw [hp, matchesHere_star, List.any_eq_true] at h ⊢
        obtain ⟨back, hback, h⟩ := h
        exact ⟨back ++ rest, append_mem_afterRun hback rest, ih h⟩
      · cases t with
        | nil => simp [matchesHere, hp] at h
        | cons c t =>
            simp only [matchesHere, if_neg hp, List.cons_append, Bool.and_eq_true] at h ⊢
            exact ⟨h.1, ih h.2⟩

theorem accepts_of_isPrefix
    {g : Glob}
    {front text : String}
    (h : g.accepts front = true)
    (hfront : front.toList <+: text.toList) :
    g.accepts text = true := by
  rw [accepts_eq_matchesHere] at h ⊢
  obtain ⟨rest, hrest⟩ := hfront
  rw [← hrest]
  exact matchesHere_append h rest

end Glob

namespace Scope

theorem text_isPrefix_text_join (s x : Scope) :
    s.text.toList <+: (s.join x).text.toList := by
  rw [toList_text, toList_text, join, List.flatMap_append, List.map_append]
  exact Text.joined_prefix_append _ _ _

end Scope

namespace Permission

/-- A scope that is continued or given up. -/
inductive NarrowsScope : Option Scope → Option Scope → Prop
  | continued (s x : Scope) : NarrowsScope (some s) (some (s.join x))
  | removed (s : Option Scope) : NarrowsScope s none

/-- Conditions that are kept, or replaced by some of them, or given up. -/
inductive NarrowsConditions : Option Object → Option Object → Prop
  | kept (c : Option Object) : NarrowsConditions c c
  | within {wide narrow : Object} :
      Condition.subset narrow wide = true →
      NarrowsConditions (some wide) (some narrow)
  | removed (c : Option Object) : NarrowsConditions c none

/-- A request for no more than another one asks for. -/
structure Narrows (wide narrow : Permission) : Prop where
  scope : NarrowsScope wide.scope narrow.scope
  conditions : NarrowsConditions wide.conditions narrow.conditions
  subjects : narrow.subjects ⊆ wide.subjects
  actions : narrow.actions ⊆ wide.actions

section Languages

variable [Languages]

theorem coversScope_of_narrows
    {granted wide narrow : Option Scope}
    (hnarrows : NarrowsScope wide narrow)
    (h : coversScope granted wide = true) :
    coversScope granted narrow = true := by
  cases hnarrows with
  | removed => rfl
  | continued s x =>
      cases granted with
      | none => rfl
      | some g =>
          simp only [coversScope, Bool.or_eq_true] at h ⊢
          rcases h with hglobal | hpattern
          · exact Or.inl hglobal
          · right
            cases hg : g.pattern with
            | error e =>
                rw [hg] at hpattern
                cases hpattern
            | ok pattern =>
                rw [hg] at hpattern
                exact Glob.accepts_of_isPrefix hpattern (Scope.text_isPrefix_text_join s x)

end Languages

theorem coversConditions_of_narrows
    {granted wide narrow : Option Object}
    (hnarrows : NarrowsConditions wide narrow)
    (h : coversConditions granted wide = true) :
    coversConditions granted narrow = true := by
  cases granted with
  | none => rfl
  | some g =>
      cases hnarrows with
      | kept => exact h
      | removed => rfl
      | within hsubset => exact Condition.subset_trans hsubset h

theorem coversNames_of_subset
    {globalName : String}
    {granted wide narrow : List String}
    (hnarrows : narrow ⊆ wide)
    (h : coversNames globalName granted wide = true) :
    coversNames globalName granted narrow = true := by
  simp only [coversNames, Bool.or_eq_true, List.all_eq_true] at h ⊢
  exact h.imp_right fun hall name hname => hall name (hnarrows hname)

section Languages

variable [Languages]

/-- A permission that covers a request covers every narrower one. -/
theorem covers_of_narrows
    {config : Config}
    {granted wide narrow : Permission}
    {context : Option Json}
    (hnarrows : Narrows wide narrow)
    (h : covers config granted wide context = true) :
    covers config granted narrow context = true := by
  obtain ⟨⟨hscope, hholds, hconditions⟩, hsubjects, hactions⟩ := covers_iff.1 h
  exact covers_iff.2
    ⟨⟨coversScope_of_narrows hnarrows.scope hscope, hholds,
        coversConditions_of_narrows hnarrows.conditions hconditions⟩,
      coversNames_of_subset hnarrows.subjects hsubjects,
      coversNames_of_subset hnarrows.actions hactions⟩

end Languages

theorem narrows_join
    {p : Permission}
    {s : Scope}
    (hscope : p.scope = some s)
    (x : Scope) :
    Narrows p { p with scope := some (s.join x) } where
  scope := hscope ▸ NarrowsScope.continued s x
  conditions := NarrowsConditions.kept p.conditions
  subjects := List.Subset.refl p.subjects
  actions := List.Subset.refl p.actions

end Permission

namespace Ability

open Permission (Narrows)

section Languages

variable [Languages]

theorem someCovers_of_narrows
    {ability : Ability}
    {effect : Effect}
    {wide narrow : Permission}
    {context : Option Json}
    (hnarrows : Narrows wide narrow)
    (h : ability.someCovers effect wide context = true) :
    ability.someCovers effect narrow context = true := by
  obtain ⟨p, hp, heffect, hcovers⟩ := someCovers_iff.1 h
  exact someCovers_iff.2 ⟨p, hp, heffect, Permission.covers_of_narrows hnarrows hcovers⟩

/-- A pair that is to be allowed does not pass if a denial covers it. -/
theorem passes_of_denied
    {ability : Ability}
    {request : Permission}
    {subject action : String}
    {context : Option Json}
    (heffect : request.effect = .can)
    (hsubjects : request.subjects = [subject])
    (hactions : request.actions = [action])
    (h : ability.someCovers .cannot request context = true) :
    ability.passes request context = false := by
  have hpair : request.single subject action = request := by
    rw [Permission.single, ← hsubjects, ← hactions]
  have hexpand : request.expand = [request] := by
    rw [← hpair]
    rfl
  have hallows : ability.allows request context = false := by
    rw [allows, h]
    rfl
  simp [passes, hexpand, passesSingle, heffect, hallows]

/-- **A permission covers every narrower request, so a denial holds in every narrower scope.**
What covers a request covers it in a continued scope or in none, under fewer conditions or none,
and for some of its subjects and actions.  A pair in a scope that is refused for a denial is
refused in every scope that continues it. -/
theorem denied_narrowed :
    (∀ (config : Config) (granted wide narrow : Permission) (context : Option Json),
      granted.covers config wide context = true → Narrows wide narrow →
        granted.covers config narrow context = true) ∧
      ∀ (ability : Ability) (request : Permission) (subject action : String) (s x : Scope)
        (context : Option Json),
        request.effect = .can → request.subjects = [subject] → request.actions = [action] →
          request.scope = some s →
            (∃ p ∈ ability.permissions, p.effect = .cannot ∧
              p.covers ability.config request context = true) →
              ability.passes request context = false ∧
                ability.passes { request with scope := some (s.join x) } context = false := by
  constructor
  · intro config granted wide narrow context hcovers hnarrows
    exact Permission.covers_of_narrows hnarrows hcovers
  · intro ability request subject action s x context heffect hsubjects hactions hscope hdenial
    have hdenied := someCovers_iff.2 hdenial
    have hnarrows := Permission.narrows_join hscope x
    exact ⟨passes_of_denied heffect hsubjects hactions hdenied,
      passes_of_denied heffect hsubjects hactions (someCovers_of_narrows hnarrows hdenied)⟩

end Languages

/-- A denial on sealed documents of all organisations. -/
def sealedDocuments : Permission :=
  { Permission.cannot ["read", "write"] ["doc"] with
    conditions := some [("state", .string "sealed")]
    scope := some ⟨[⟨"org", none⟩]⟩ }

/-- A request for sealed documents of one organisation. -/
def sealedOfOne : Permission :=
  { Permission.can ["read"] ["doc"] with
    conditions := some [("state", .string "sealed")]
    scope := some ⟨[⟨"org", some "1"⟩]⟩ }

/-- The denial covers the request, covers it also without its conditions in a part of the
organisation, and refuses it there. -/
theorem denied_narrowed_sealedOfOne :
    sealedDocuments.covers {} sealedOfOne none = true ∧
      sealedDocuments.covers {}
        { sealedOfOne with
          conditions := none
          scope := some ⟨[⟨"org", some "1"⟩, ⟨"app", some "2"⟩]⟩ } none = true ∧
      passes ⟨[Permission.can ["manage"] ["all"], sealedDocuments], {}⟩
        { sealedOfOne with scope := some ⟨[⟨"org", some "1"⟩, ⟨"app", some "2"⟩]⟩ } none =
          false := by
  have hpattern : Scope.pattern ⟨[⟨"org", none⟩]⟩ = .ok ⟨"org".toList⟩ := by
    rw [Scope.pattern_standard, if_pos (by decide)]
    rfl
  have hscope : Permission.coversScope sealedDocuments.scope sealedOfOne.scope = true := by
    simp only [sealedDocuments, sealedOfOne, Permission.coversScope, hpattern]
    decide
  have hcovers : sealedDocuments.covers {} sealedOfOne none = true :=
    Permission.covers_iff.2 ⟨⟨hscope, rfl, by decide⟩, by decide, by decide⟩
  have happ : Permission.NarrowsScope sealedOfOne.scope
      (some ⟨[⟨"org", some "1"⟩, ⟨"app", some "2"⟩]⟩) :=
    Permission.NarrowsScope.continued _ ⟨[⟨"app", some "2"⟩]⟩
  have hnarrows : Narrows sealedOfOne
      { sealedOfOne with
        conditions := none
        scope := some ⟨[⟨"org", some "1"⟩, ⟨"app", some "2"⟩]⟩ } :=
    ⟨happ, Permission.NarrowsConditions.removed _, List.Subset.refl _, List.Subset.refl _⟩
  refine ⟨hcovers, denied_narrowed.1 _ _ _ _ _ hcovers hnarrows, ?_⟩
  exact (denied_narrowed.2 ⟨[Permission.can ["manage"] ["all"], sealedDocuments], {}⟩ sealedOfOne
    "doc" "read" _ ⟨[⟨"app", some "2"⟩]⟩ none rfl rfl rfl rfl
    ⟨sealedDocuments, by simp, rfl, hcovers⟩).2

end Ability
end Warrant
