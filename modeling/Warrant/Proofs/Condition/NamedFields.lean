import Warrant.Proofs.Condition.WellFormed

/-!
# The fields that a condition query names

A query asks something of the fields at the ends of the paths that are its keys, and the queries
that it combines ask something of the fields that they name in turn.  Of the context, nothing else
matters: in two contexts that hold the same at each of these paths, the query has the same answer,
and the same fault where it has none.

Only an expression looks at a context as a whole, so the key of one may not be among these keys.
What is behind `$elemMatch` or `$not` does not count: it is asked of a field and its items, which
are the same in both contexts.

**Results.**
* `mem_queryKeys_object_iff`, `mem_listedKeys_array_iff`: where a key of a query comes from.
* `saysAlike`: what a value says, as a query and as a list of queries, where its fields are alike.
* `matchesQuery_of_alikeOn`: contexts that hold the same at the fields of a query are alike to it.
-/

namespace Warrant
namespace Condition

mutual

/-- The keys of a value as a query, and of the queries that it combines. -/
def queryKeys : Json → List String
  | .object entries => entriesKeys entries
  | _ => []
termination_by structural v => v

/-- The keys of some entries, and of the queries that they combine. -/
def entriesKeys : List (String × Json) → List String
  | [] => []
  | (key, condition) :: rest =>
      key :: (if combinesQueries key then listedKeys condition else []) ++ entriesKeys rest
termination_by structural entries => entries

/-- The keys of the queries in a list.  A list that holds anything else is faulty, and none of its
queries is looked at. -/
def listedKeys : Json → List String
  | .array items => if items.all Json.isObject then itemsKeys items else []
  | _ => []
termination_by structural v => v

/-- The keys of some items as queries. -/
def itemsKeys : List Json → List String
  | [] => []
  | query :: rest => queryKeys query ++ itemsKeys rest
termination_by structural items => items

end

/-- A key of a query is one of its own, or one of a query that it combines. -/
theorem mem_queryKeys_object_iff
    {entries : Object} {path : String} :
    path ∈ queryKeys (.object entries) ↔
      ∃ e ∈ entries, path = e.1 ∨ combinesQueries e.1 = true ∧ path ∈ listedKeys e.2 := by
  rw [queryKeys]
  induction entries with
  | nil => simp [entriesKeys]
  | cons e entries ih =>
      obtain ⟨key, condition⟩ := e
      rw [entriesKeys, List.cons_append, List.mem_cons, List.mem_append, ih,
        List.exists_mem_cons_iff, or_assoc]
      refine or_congr_right (or_congr_left ?_)
      cases combinesQueries key <;> simp

theorem mem_listedKeys_array_iff
    {items : List Json} {path : String}
    (h : items.all Json.isObject = true) :
    path ∈ listedKeys (.array items) ↔ ∃ query ∈ items, path ∈ queryKeys query := by
  rw [listedKeys, if_pos h]
  clear h
  induction items with
  | nil => simp [itemsKeys]
  | cons query items ih => rw [itemsKeys, List.mem_append, ih, List.exists_mem_cons_iff]

/-- Two contexts hold the same at each field among some keys, and no key holds an expression. -/
structure AlikeOn (keys : List String) (c d : Json) : Prop where
  without_expression : "$cel" ∉ keys
  fields : ∀ path ∈ keys, isOperatorKey path = false → resolve c path = resolve d path

theorem AlikeOn.mono
    {keys keys' : List String}
    {c d : Json}
    (h : AlikeOn keys c d)
    (hkeys : ∀ path ∈ keys', path ∈ keys) :
    AlikeOn keys' c d where
  without_expression hcel := h.without_expression (hkeys _ hcel)
  fields path hpath := h.fields path (hkeys path hpath)

section Languages

variable [Languages]

/-- A list of queries is looked into only if all of its items are objects. -/
theorem exists_array_of_checkQueries
    {operator : String} {v : Json}
    (h : checkQueries operator v = .ok ()) :
    ∃ items, v = .array items ∧ items.all Json.isObject = true := by
  obtain ⟨items, hitems, hall⟩ := exists_of_bind_eq_ok h
  refine ⟨items, listOperand_eq_ok_iff.1 hitems, ?_⟩
  by_contra hnot
  rw [if_neg hnot] at hall
  cases hall

/-- What a value says in two contexts that hold the same at the fields that it names, as a query
and as a list of queries. -/
structure SaysAlike (v c d : Json) : Prop where
  query : AlikeOn (queryKeys v) c d → matchesObject v c = matchesObject v d
  queries {operator : String} : AlikeOn (listedKeys v) c d → checkQueries operator v = .ok () →
    matchesAll v c = matchesAll v d ∧ matchesAny v c = matchesAny v d

/-- A key other than that of an expression hands the context to the queries that it combines. -/
theorem applyCombinator_of_saysAlike
    {key : String} {v c d : Json}
    (hkey : key ≠ "$cel")
    (halike : combinesQueries key = true → AlikeOn (listedKeys v) c d)
    (h : SaysAlike v c d) :
    applyCombinator key v c (matchesAll v) (matchesAny v) =
      applyCombinator key v d (matchesAll v) (matchesAny v) := by
  unfold applyCombinator
  -- `$and`, `$or`, `$nor`, an expression, and no operator at all
  split
  · exact bind_congr_of_ok fun _ hcheck => (h.queries (halike rfl) hcheck).1
  · exact bind_congr_of_ok fun _ hcheck => (h.queries (halike rfl) hcheck).2
  · refine bind_congr_of_ok fun _ hcheck => ?_
    rw [(h.queries (halike rfl) hcheck).2]
  · exact absurd rfl hkey
  · rfl

theorem matchesEntry_of_saysAlike
    {entries : Object}
    {e : String × Json}
    {c d : Json}
    (halike : AlikeOn (queryKeys (.object entries)) c d)
    (he : e ∈ entries)
    (h : SaysAlike e.2 c d) :
    matchesEntry c e = matchesEntry d e := by
  have hkey : e.1 ∈ queryKeys (.object entries) := mem_queryKeys_object_iff.2 ⟨e, he, .inl rfl⟩
  unfold matchesEntry
  split
  next =>
    refine applyCombinator_of_saysAlike ?_ ?_ h
    · intro hcel
      exact halike.without_expression (hcel ▸ hkey)
    · intro hcombines
      exact halike.mono fun path hpath =>
        mem_queryKeys_object_iff.2 ⟨e, he, .inr ⟨hcombines, hpath⟩⟩
  next hfield => rw [halike.fields e.1 hkey (Bool.eq_false_iff.2 hfield)]

theorem saysAlike_object
    {entries : Object}
    {c d : Json}
    (h : ∀ e ∈ entries, SaysAlike e.2 c d) :
    SaysAlike (.object entries) c d where
  query halike := by
    rw [matchesObject, matchesObject, matchesEntries_eq, matchesEntries_eq,
      List.map_congr_left fun e he => matchesEntry_of_saysAlike halike he (h e he)]
  queries _ _ := ⟨rfl, rfl⟩

theorem saysAlike_array
    {items : List Json}
    {c d : Json}
    (h : ∀ v ∈ items, SaysAlike v c d) :
    SaysAlike (.array items) c d where
  query _ := rfl
  queries halike hcheck := by
    obtain ⟨_, ⟨rfl⟩, hobjects⟩ := exists_array_of_checkQueries hcheck
    have hitems : ∀ v ∈ items, matchesObject v c = matchesObject v d := by
      intro v hv
      exact (h v hv).query
        (halike.mono fun path hpath => (mem_listedKeys_array_iff hobjects).2 ⟨v, hv, hpath⟩)
    rw [matchesAll, matchesAll, matchesAny, matchesAny, allItems_eq, allItems_eq, anyItem_eq,
      anyItem_eq, List.map_congr_left hitems]
    exact ⟨rfl, rfl⟩

theorem saysAlike
    (v c d : Json) :
    SaysAlike v c d := by
  induction v using Json.induction with
  | array items ih => exact saysAlike_array ih
  | object entries ih => exact saysAlike_object ih
  | _ => exact ⟨fun _ => rfl, fun _ _ => ⟨rfl, rfl⟩⟩

/-- Contexts that hold the same at the fields that a query names are the same to it, whatever else
they hold. -/
theorem matchesQuery_of_alikeOn
    {query : Object}
    {c d : Json}
    (h : AlikeOn (queryKeys (.object query)) c d) :
    matchesQuery query c = matchesQuery query d :=
  (saysAlike (.object query) c d).query h

end Languages

end Condition
end Warrant
