import Warrant.Proofs.Ability.Decisions
import Warrant.Proofs.Condition.NamedFields

/-!
# What decisions see of a context

A context enters a decision only through the conditions of the permissions.  Where these hold alike
in two contexts, every request has the same answer in both; and a condition holds alike in contexts
that hold the same at the fields that it names.

**Results.**
* `passes_of_holdAlike`, `has_of_holdAlike`: requests are decided alike where conditions hold alike.
* `decisions_of_alikeOn`: decisions see of a context only the fields that conditions name.
-/

namespace Warrant
namespace Ability

open Condition (AlikeOn queryKeys matchesQuery)

section Languages

variable [Languages]

section Contexts

variable {a : Ability} {c d : Option Json}

/-- The conditions of all permissions hold alike in two contexts. -/
def HoldAlike (a : Ability) (c d : Option Json) : Prop :=
  ∀ p ∈ a.permissions, Permission.holdsIn p.conditions c = Permission.holdsIn p.conditions d

variable (h : HoldAlike a c d)

include h

theorem someCovers_of_holdAlike
    (effect : Effect)
    (request : Permission) :
    a.someCovers effect request c = a.someCovers effect request d := by
  have hcovers : ∀ p ∈ a.permissions,
      p.covers a.config request c = p.covers a.config request d := by
    intro p hp
    unfold Permission.covers
    rw [h p hp]
  rw [Bool.eq_iff_iff, someCovers_iff, someCovers_iff]
  refine exists_congr fun p => and_congr_right fun hp => ?_
  rw [hcovers p hp]

theorem passesSingle_of_holdAlike
    (request : Permission) :
    a.passesSingle request c = a.passesSingle request d := by
  unfold passesSingle allows
  simp only [someCovers_of_holdAlike h]

theorem passes_of_holdAlike
    (request : Permission) :
    a.passes request c = a.passes request d := by
  unfold passes
  simp only [passesSingle_of_holdAlike h]

/-- Lists of requests are decided alike where the conditions hold alike. -/
theorem has_of_holdAlike
    (requests : List Item) :
    a.has requests c = a.has requests d ∧ a.hasAll requests c = a.hasAll requests d ∧
      a.hasAny requests c = a.hasAny requests d := by
  simp only [hasAll, has, hasAny, passes_of_holdAlike h, and_self]

end Contexts

theorem holdAlike_of_matchesQuery
    {a : Ability}
    {c d : Json}
    (h : ∀ p ∈ a.permissions, ∀ query ∈ p.conditions, matchesQuery query c = matchesQuery query d) :
    HoldAlike a (some c) (some d) := by
  intro p hp
  cases hconditions : p.conditions with
  | none => rfl
  | some query =>
      have hquery := h p hp query (by rw [hconditions]; rfl)
      unfold Permission.holdsIn
      dsimp only
      rw [hquery]

/-- **Decisions see of a context only the fields that conditions name.**  A query has the same
answer, or the same fault, in all contexts that hold the same at the fields that it and the queries
it combines name, unless one of these holds an expression.  So an ability decides every request
alike in contexts that hold the same at the fields of all granted conditions. -/
theorem decisions_of_alikeOn
    (c d : Json) :
    (∀ query : Object, AlikeOn (queryKeys (.object query)) c d →
      matchesQuery query c = matchesQuery query d) ∧
      ∀ a : Ability,
        (∀ p ∈ a.permissions, ∀ query ∈ p.conditions,
          AlikeOn (queryKeys (.object query)) c d) →
        (∀ request, a.passes request (some c) = a.passes request (some d)) ∧
          ∀ requests, a.has requests (some c) = a.has requests (some d) ∧
            a.hasAll requests (some c) = a.hasAll requests (some d) ∧
            a.hasAny requests (some c) = a.hasAny requests (some d) := by
  refine ⟨fun _ hquery => Condition.matchesQuery_of_alikeOn hquery, ?_⟩
  intro a ha
  have halike : HoldAlike a (some c) (some d) := holdAlike_of_matchesQuery fun p hp query hquery =>
    Condition.matchesQuery_of_alikeOn (ha p hp query hquery)
  exact ⟨passes_of_holdAlike halike, has_of_holdAlike halike⟩

end Languages

/-- What is not archived and either belongs to the first user or has an open tag. -/
def openOrOwned : Object :=
  [("$or", .array [
    .object [("owner.id", .string "u1")],
    .object [("tags", .object [("$elemMatch", .object [("$eq", .string "open")])])]]),
    ("archived", .bool false)]

/-- Whoever asks may read such documents. -/
def readOpenOrOwned : Ability where
  permissions := [{ Permission.can ["read"] ["doc"] with conditions := some openOrOwned }]

/-- A document with an open tag. -/
def openDocument : Json :=
  .object [("owner", .object [("id", .string "u2")]), ("tags", .array [.string "open"]),
    ("archived", .bool false)]

/-- The document with a title and a mark that no condition names. -/
def secretPlans : Json :=
  .object [("title", .string "Plans"), ("secret", .bool true), ("tags", .array [.string "open"]),
    ("owner", .object [("name", .string "Ann"), ("id", .string "u2")]), ("archived", .bool false)]

theorem alikeOn_secretPlans :
    AlikeOn (queryKeys (.object openOrOwned)) openDocument secretPlans where
  without_expression := by decide
  fields := by
    have hkeys : queryKeys (.object openOrOwned) = ["$or", "owner.id", "tags", "archived"] := by
      decide
    rw [hkeys]
    simp only [List.forall_mem_cons]
    refine ⟨?_, ?_, ?_, ?_, ?_⟩
    · intro hkey
      exact absurd hkey (by decide)
    · exact fun _ => rfl
    · exact fun _ => rfl
    · exact fun _ => rfl
    · simp

/-- Neither the title of the document nor the mark nor the name of its owner is seen. -/
theorem decisions_of_alikeOn_secretPlans :
    AlikeOn (queryKeys (.object openOrOwned)) openDocument secretPlans ∧
      matchesQuery openOrOwned secretPlans = .ok true ∧
      readOpenOrOwned.passes (Permission.can ["read"] ["doc"]) (some secretPlans) = true := by
  have halike := alikeOn_secretPlans
  have hquery : matchesQuery openOrOwned openDocument = .ok true :=
    toOption_eq_some_iff.1 (by decide +kernel)
  have hpasses : readOpenOrOwned.passes (Permission.can ["read"] ["doc"]) (some openDocument) =
      true := by
    decide +kernel
  obtain ⟨hqueries, habilities⟩ := decisions_of_alikeOn openDocument secretPlans
  refine ⟨halike, ?_, ?_⟩
  · rw [← hqueries openOrOwned halike]
    exact hquery
  · rw [← (habilities readOpenOrOwned ?_).1]
    · exact hpasses
    · simp only [readOpenOrOwned, List.forall_mem_singleton]
      rintro query ⟨⟩
      exact halike

end Ability
end Warrant
