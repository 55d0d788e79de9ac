import Warrant.Proofs.Condition.Associativity
import Warrant.Proofs.Condition.WellFormed
import Warrant.Proofs.Transform.Paths
import Warrant.Standard

/-!
# Conditions on a path as restrictions

Conditions of a group are meant to restrict everything in it.  They do so where the conditions on
a path have no key in common: a merge is then one query behind the other, and evaluation looks at
entry after entry, so it looks at the queries from the outside in.  What is said about a context
is what the first of them says that does not hold, be it no or a fault.

Evaluation of a query is the loop `untilSettled` over its entries, and evaluation of queries that
stand behind one another is the same loop over them.

**Results.**
* `untilSettled_eq_ok_iff`, `untilSettled_of_first`: a loop is settled by the first answer that is
  not the one that lets it go on.
* `merge_of_separate`, `conditionsAlong_of_separate`: merges of queries without common keys.
* `matchesQuery_flatten`: queries behind one another.
* `flatten_restricts`: what the conditions of a flattened permission say.
-/

namespace Warrant
namespace Condition

/-! What settles a loop. -/

section Loops

variable [Languages] {settling : Bool} {answers : List (Except QueryError Bool)}

theorem untilSettled_cons_ok
    (settling : Bool)
    (answers : List (Except QueryError Bool)) :
    untilSettled settling (.ok (!settling) :: answers) = untilSettled settling answers := by
  cases settling <;> rfl

/-- An answer that does not let the loop go on is what the loop says. -/
theorem untilSettled_cons_of_ne
    {answer : Except QueryError Bool}
    (h : answer ≠ .ok !settling) :
    untilSettled settling (answer :: answers) = answer := by
  cases answer with
  | error e => rfl
  | ok b =>
      have hb : b = settling := by
        revert h
        cases b <;> cases settling <;> simp
      subst hb
      simp [untilSettled, bind, Except.bind, pure, Except.pure]

/-- A loop goes on to its end if every answer lets it. -/
theorem untilSettled_eq_ok_iff :
    untilSettled settling answers = .ok (!settling) ↔
      ∀ answer ∈ answers, answer = .ok !settling := by
  induction answers with
  | nil => simp [untilSettled]
  | cons answer answers ih =>
      rw [List.forall_mem_cons]
      by_cases h : answer = .ok !settling
      · rw [h, untilSettled_cons_ok, ih]
        simp
      · rw [untilSettled_cons_of_ne h]
        simp [h]

/-- The first answer that does not let the loop go on is what the loop says. -/
theorem untilSettled_of_first
    {before after : List (Except QueryError Bool)} {answer : Except QueryError Bool}
    (hbefore : ∀ earlier ∈ before, earlier = .ok !settling)
    (h : answer ≠ .ok !settling) :
    untilSettled settling (before ++ answer :: after) = answer := by
  induction before with
  | nil => exact untilSettled_cons_of_ne h
  | cons first before ih =>
      obtain ⟨rfl, hrest⟩ := List.forall_mem_cons.1 hbefore
      rw [List.cons_append, untilSettled_cons_ok, ih hrest]

end Loops

/-! Queries without common keys. -/

/-- The two queries have no key in common. -/
def Separate (q r : Object) : Prop :=
  q.keys.Disjoint r.keys

theorem separate_append_left
    {p q r : Object} :
    Separate (p ++ q) r ↔ Separate p r ∧ Separate q r := by
  rw [Separate, Object.keys, List.map_append, List.disjoint_append_left]
  rfl

theorem merge_of_separate
    {base layer : Object}
    (hlayer : layer.keys.Nodup)
    (h : Separate base layer) :
    merge base layer = base ++ layer := by
  induction layer generalizing base with
  | nil => simp
  | cons e layer ih =>
      obtain ⟨k, v⟩ := e
      rw [Object.keys_cons, List.nodup_cons] at hlayer
      rw [Separate, Object.keys_cons, List.disjoint_cons_right] at h
      rw [merge_cons, Object.find?_eq_none_iff.2 h.1, overlay_none, Object.insert_of_not_mem h.1,
        ih hlayer.2, List.append_assoc, List.singleton_append]
      exact separate_append_left.2 ⟨h.2, by simpa [Separate] using hlayer.1⟩

/-- Separate queries merge to one query behind the other. -/
theorem foldl_merge_of_separate
    {outermost : Object} {queries : List Object}
    (hqueries : ∀ q ∈ queries, q.keys.Nodup)
    (h : (outermost :: queries).Pairwise Separate) :
    queries.foldl merge outermost = (outermost :: queries).flatten := by
  induction queries generalizing outermost with
  | nil => simp
  | cons q queries ih =>
      obtain ⟨hq, hrest⟩ := List.forall_mem_cons.1 hqueries
      obtain ⟨hout, hpairs⟩ := List.pairwise_cons.1 h
      obtain ⟨houtq, hout⟩ := List.forall_mem_cons.1 hout
      obtain ⟨hqrest, hpairs⟩ := List.pairwise_cons.1 hpairs
      rw [List.foldl_cons, merge_of_separate hq houtq, ih hrest]
      · simp
      · refine List.pairwise_cons.2 ⟨fun r hr => ?_, hpairs⟩
        exact separate_append_left.2 ⟨hout r hr, hqrest r hr⟩

section Languages

variable [Languages]

theorem matchesQuery_append
    (q r : Object)
    (context : Json) :
    matchesQuery (q ++ r) context = (do
      if ← matchesQuery q context then matchesQuery r context else return false) := by
  simp only [matchesQuery]
  induction q with
  | nil => rfl
  | cons e q ih =>
      rw [List.cons_append, matchesEntries_cons, matchesEntries_cons, ih]
      cases matchesEntry context e with
      | error fault => rfl
      | ok holds => cases holds <;> rfl

/-- Queries behind one another are looked at in turn. -/
theorem matchesQuery_flatten
    (queries : List Object)
    (context : Json) :
    matchesQuery queries.flatten context =
      untilSettled false (queries.map (matchesQuery · context)) :=
  @eq_untilSettled_false _ _ _ (fun queries => matchesQuery queries.flatten context)
    (matchesQuery_nil context) (fun q queries => matchesQuery_append q queries.flatten context)
    queries

theorem matchesQuery_flatten_eq_ok_iff
    {queries : List Object} {context : Json} :
    matchesQuery queries.flatten context = .ok true ↔
      ∀ q ∈ queries, matchesQuery q context = .ok true := by
  rw [matchesQuery_flatten]
  exact untilSettled_eq_ok_iff.trans List.forall_mem_map

/-- The first query that does not hold decides. -/
theorem matchesQuery_flatten_of_first
    {outside inside : List Object} {q : Object} {context : Json}
    (houtside : ∀ r ∈ outside, matchesQuery r context = .ok true)
    (hq : matchesQuery q context ≠ .ok true) :
    matchesQuery (outside ++ q :: inside).flatten context = matchesQuery q context := by
  rw [matchesQuery_flatten, List.map_append, List.map_cons]
  exact untilSettled_of_first (List.forall_mem_map.2 houtside) hq

end Languages

end Condition

namespace Inheritance

/-- Separate conditions on a path give one query behind the other. -/
theorem conditionsAlong_of_separate
    {levels : List Inheritance}
    (hlevels : ∀ q ∈ levels.filterMap Inheritance.conditions, q.keys.Nodup)
    (hpresent : levels.filterMap Inheritance.conditions ≠ [])
    (h : (levels.filterMap Inheritance.conditions).Pairwise Condition.Separate) :
    conditionsAlong levels = some (levels.filterMap Inheritance.conditions).flatten := by
  unfold conditionsAlong
  cases hqueries : levels.filterMap Inheritance.conditions with
  | nil => exact absurd hqueries hpresent
  | cons outermost others =>
      rw [hqueries] at hlevels h
      simp only [Condition.foldl_merge_of_separate (List.forall_mem_cons.1 hlevels).2 h]

end Inheritance

namespace Item

/-- The conditions that are present on a path, the outermost first. -/
def Path.queries (path : Path) (own : Permission) : List Object :=
  (path.levels own).filterMap Inheritance.conditions

theorem Path.nodup_keys_of_mem_queries
    {items : List Item} (hitems : ∀ item ∈ items, item.KeysDistinct)
    {path : Path} (hpath : path ∈ pathsOfMembers [] items)
    {own : Permission} (hown : path.entry.own = .ok own) :
    ∀ q ∈ path.queries own, q.keys.Nodup := by
  intro q hq
  obtain ⟨level, hlevel, hq⟩ := List.mem_filterMap.1 hq
  have hdistinct := keysDistinct_levels hitems hpath hown level hlevel
  exact (Json.keysDistinct_object_iff.1 (hdistinct q hq)).1

section Languages

variable [Languages]

/-- **Conditions on a path restrict one by one.**  If some are present and no two of them have a
key in common, then those of the flattened permission hold in a context iff each of them does; and
otherwise they say what the outermost one says that does not hold, be it no or a fault. -/
theorem flatten_restricts
    {items : List Item}
    (hitems : ∀ item ∈ items, item.KeysDistinct)
    {ps : List Permission}
    (hflat : flatten items = .ok ps) :
    List.Forall₂
      (fun path p => ∃ own, path.entry.own = .ok own ∧
        (path.queries own ≠ [] → (path.queries own).Pairwise Condition.Separate →
          ∃ query, p.conditions = some query ∧ ∀ context,
            (Condition.matchesQuery query context = .ok true ↔
              ∀ q ∈ path.queries own, Condition.matchesQuery q context = .ok true) ∧
            ∀ outside q inside, path.queries own = outside ++ q :: inside →
              (∀ r ∈ outside, Condition.matchesQuery r context = .ok true) →
                Condition.matchesQuery q context ≠ .ok true →
                  Condition.matchesQuery query context = Condition.matchesQuery q context))
      (pathsOfMembers [] items) ps := by
  rw [flatten_eq_mapM, mapM_eq_ok_iff] at hflat
  refine (forall₂_mem hflat).imp ?_
  rintro path p ⟨hpath, hread⟩
  obtain ⟨own, hgives⟩ := Path.read_eq_ok_iff.1 hread
  refine ⟨own, hgives.decoded, fun hpresent hseparate => ?_⟩
  have hconditions := Inheritance.conditionsAlong_of_separate
    (Path.nodup_keys_of_mem_queries hitems hpath hgives.decoded) hpresent hseparate
  refine ⟨(path.queries own).flatten, hgives.conditions.trans hconditions, fun context => ?_⟩
  refine ⟨Condition.matchesQuery_flatten_eq_ok_iff, ?_⟩
  intro outside q inside hqueries houtside hq
  rw [hqueries]
  exact Condition.matchesQuery_flatten_of_first houtside hq

end Languages

/-- A group whose members must be active, an inner one of a tenant, and a grant with a condition
that no evaluation understands. -/
def guardedGrants : List Item :=
  [.group
    [.group
      [.leaf { subjects := ["doc"], actions := ["read"],
               conditions := some [("$bogus", .null)] }]
      (some [("tenant", .string "t"), ("user.role", .null)])
      none,
    .encoded "doc:list"]
    (some [("active", .bool true)])
    none]

theorem keysDistinct_guardedGrants : ∀ item ∈ guardedGrants, item.KeysDistinct := by
  have hown : Permission.ConditionsDistinct (some [("$bogus", .null)]) := by
    simp [Permission.conditionsDistinct_some_iff, Json.KeysDistinct, Json.EntriesDistinct]
  have hinner : Permission.ConditionsDistinct
      (some [("tenant", .string "t"), ("user.role", .null)]) := by
    simp [Permission.conditionsDistinct_some_iff, Json.KeysDistinct, Json.EntriesDistinct]
  have houter : Permission.ConditionsDistinct (some [("active", .bool true)]) := by
    simp [Permission.conditionsDistinct_some_iff, Json.KeysDistinct, Json.EntriesDistinct]
  simp only [guardedGrants, List.forall_mem_singleton, keysDistinct_group_iff,
    List.forall_mem_cons]
  exact ⟨⟨⟨KeysDistinct.leaf hown, hinner⟩, by simpa using KeysDistinct.encoded _⟩, houter⟩

/-- An active member of a tenant asks. -/
def memberOf (tenant : String) : Json :=
  .object [("active", .bool true), ("tenant", .string tenant)]

/-- Another tenant is refused by the inner group before the fault of the grant is met; within the
tenant the answer is that fault. -/
theorem flatten_restricts_guardedGrants :
    (∀ item ∈ guardedGrants, item.KeysDistinct) ∧
      ∃ p others query, flatten guardedGrants = .ok (p :: others) ∧ p.conditions = some query ∧
        Condition.matchesQuery query (memberOf "u") = .ok false ∧
        Condition.matchesQuery query (memberOf "t") = .error (.unknownOperator "$bogus") := by
  have hflat : flatten guardedGrants = .ok
      [⟨["doc"], ["read"], .can,
          some [("active", .bool true), ("tenant", .string "t"), ("user.role", .null),
            ("$bogus", .null)], none⟩,
        ⟨["doc"], ["list"], .can, some [("active", .bool true)], none⟩] := rfl
  refine ⟨keysDistinct_guardedGrants, ?_⟩
  cases flatten_restricts keysDistinct_guardedGrants hflat with
  | cons hfirst _ =>
      obtain ⟨own, hown, hrestricts⟩ := hfirst
      cases hown
      obtain ⟨query, hquery, hverdict⟩ := hrestricts (by simp [Path.queries, Path.levels])
        (by simp [Path.queries, Path.levels, Condition.Separate])
      have houter : ∀ tenant,
          Condition.matchesQuery [("active", .bool true)] (memberOf tenant) = .ok true :=
        fun _ => rfl
      have hrefused : Condition.matchesQuery [("tenant", .string "t"), ("user.role", .null)]
          (memberOf "u") = .ok false := rfl
      have hinner : Condition.matchesQuery [("tenant", .string "t"), ("user.role", .null)]
          (memberOf "t") = .ok true := rfl
      have hfault : Condition.matchesQuery [("$bogus", .null)] (memberOf "t") =
          .error (.unknownOperator "$bogus") := rfl
      refine ⟨_, _, query, hflat, hquery, ?_, ?_⟩
      · rw [← hrefused]
        refine (hverdict _).2 [_] _ [_] rfl (List.forall_mem_singleton.2 (houter "u")) ?_
        simp [hrefused]
      · rw [← hfault]
        refine (hverdict _).2 [_, _] _ [] rfl ?_ ?_
        · exact List.forall_mem_cons.2 ⟨houter "t", List.forall_mem_singleton.2 hinner⟩
        · simp [hfault]

end Item
end Warrant
