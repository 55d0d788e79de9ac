import Mathlib.Logic.ExistsUnique
import Warrant.Condition.Query
import Warrant.Standard

/-!
# Comparisons of fields

A condition may ask by an operator how the field at a path compares with a value: whether it is
equal to it, greater or less.  Equality and order are tested in two ways that know nothing of each
other, and for two numbers or two texts they agree: all five comparisons read the same outcome.  So
exactly one of less, equal and greater holds, the other two are the negations of less and greater,
and every comparison is transitive, whatever mixture of integers and binary64 numbers is compared.

A field that is a list compares like its items, save for those that are lists themselves: less,
greater and their negations hold of it exactly if they hold of such an item alone.

**Results.**
* `matchesQuery_query`: what a comparison says of the field.
* `accepts_trans`: every comparison is transitive wherever outcomes are.
* `test_of_comparable`: for two numbers or two texts, the comparisons read one outcome.
* `test_array_iff`: when a comparison holds of a list.
* `comparisons_agree`: the comparisons that a query may ask for agree with each other.
-/

namespace Warrant
namespace Condition

/-- The comparisons of a field with a value. -/
inductive Comparison where
  | eq
  | gt
  | gte
  | lt
  | lte
deriving DecidableEq

namespace Comparison

/-- The operator that asks for the comparison. -/
def operator : Comparison → String
  | .eq => "$eq"
  | .gt => "$gt"
  | .gte => "$gte"
  | .lt => "$lt"
  | .lte => "$lte"

/-- The outcome of the comparison for a field and an operand. -/
def test (c : Comparison) (actual : Option Json) (operand : Json) : Bool :=
  match c with
  | .eq => equalsField actual operand
  | .gt => compares actual operand (· == .gt)
  | .gte => compares actual operand (· != .lt)
  | .lt => compares actual operand (· == .lt)
  | .lte => compares actual operand (· != .gt)

/-- The query that asks for the comparison of a field with a value. -/
def query (c : Comparison) (field : String) (operand : Json) : Object :=
  [(field, .object [(c.operator, operand)])]

/-- The orders that a comparison allows. -/
def accepts : Comparison → Ordering → Bool
  | .eq, o => o == .eq
  | .gt, o => o == .gt
  | .gte, o => o != .lt
  | .lt, o => o == .lt
  | .lte, o => o != .gt

variable {c : Comparison}

theorem applyOperator_operator
    [Languages]
    (operand : Json)
    (actual : Option Json)
    (siblings : Object)
    (asField : Option Json → Except QueryError Bool)
    (asQuery : Json → Except QueryError Bool) :
    applyOperator c.operator operand actual siblings asField asQuery =
      .ok (c.test actual operand) := by
  cases c <;> rfl

theorem isOperatorObject_operator (operand : Json) :
    isOperatorObject [(c.operator, operand)] = true := by
  have hkey : isOperatorKey c.operator = true := by cases c <;> decide
  simp [isOperatorObject, hkey]

end Comparison

section Field

variable [Languages] {field : String} (hfield : isOperatorKey field = false)
include hfield

/-- A query about one field asks nothing else. -/
theorem matchesQuery_single (condition context : Json) :
    matchesQuery [(field, condition)] context = matchesField condition (resolve context field) := by
  rw [matchesQuery_cons, if_neg (by rw [hfield]; decide)]
  cases matchesField condition (resolve context field) with
  | error e => rfl
  | ok holds => cases holds <;> simp [bind, Except.bind, pure, Except.pure, matchesQuery_nil]

/-- What a comparison says of the field. -/
theorem Comparison.matchesQuery_query
    {c : Comparison} {operand context : Json} :
    matchesQuery (c.query field operand) context =
      .ok (c.test (resolve context field) operand) := by
  rw [query, matchesQuery_single hfield, matchesField, if_pos (isOperatorObject_operator _),
    matchesOperators, applyOperator_operator]
  cases c.test (resolve context field) operand <;>
    simp [bind, Except.bind, pure, Except.pure, matchesOperators]

end Field

/-- Two values that have an order: two numbers or two texts. -/
inductive Comparable : Json → Json → Prop
  | numbers (m n : Number) : Comparable (.number m) (.number n)
  | texts (s t : String) : Comparable (.string s) (.string t)

namespace Comparison

variable {c : Comparison}

/-! Outcomes. -/

/-- The comparison among less, equal and greater that allows an order. -/
def ofOrder : Ordering → Comparison
  | .lt => .lt
  | .eq => .eq
  | .gt => .gt

/-- Exactly one of less, equal and greater allows an order. -/
theorem existsUnique_accepts (o : Ordering) :
    ∃! c : Comparison, (c = .lt ∨ c = .eq ∨ c = .gt) ∧ c.accepts o = true := by
  have hiff : ∀ c : Comparison,
      (c = .lt ∨ c = .eq ∨ c = .gt) ∧ c.accepts o = true ↔ c = ofOrder o := by
    intro c
    cases c <;> cases o <;> simp [accepts, ofOrder]
  simp only [hiff]
  exact existsUnique_eq

theorem accepts_lte (o : Ordering) : lte.accepts o = !gt.accepts o := rfl

theorem accepts_gte (o : Ordering) : gte.accepts o = !lt.accepts o := rfl

/-- What holds from one value to the next and from there to a third, holds from the first to the
third. -/
theorem accepts_trans
    {α : Type} [Ord α] [Std.TransOrd α]
    {x y z : α}
    (hxy : c.accepts (compare x y) = true)
    (hyz : c.accepts (compare y z) = true) :
    c.accepts (compare x z) = true := by
  cases c with
  | eq =>
      rw [accepts, beq_iff_eq] at hxy hyz ⊢
      exact Std.TransCmp.eq_trans hxy hyz
  | gt =>
      rw [accepts, beq_iff_eq] at hxy hyz ⊢
      exact Std.TransCmp.gt_trans hxy hyz
  | gte =>
      rw [accepts, bne_iff_ne, ne_eq, ← Ordering.isGE_iff_ne_lt] at hxy hyz ⊢
      exact Std.TransCmp.isGE_trans hxy hyz
  | lt =>
      rw [accepts, beq_iff_eq] at hxy hyz ⊢
      exact Std.TransCmp.lt_trans hxy hyz
  | lte =>
      rw [accepts, bne_iff_ne, ne_eq, ← Ordering.isLE_iff_ne_gt] at hxy hyz ⊢
      exact Std.TransCmp.isLE_trans hxy hyz

/-! Values. -/

theorem test_of_ne_eq
    (hc : c ≠ .eq)
    (actual : Option Json)
    (operand : Json) :
    c.test actual operand = compares actual operand c.accepts := by
  cases c with
  | eq => exact absurd rfl hc
  | _ => rfl

/-- For numbers, also equality is read off the order of their values. -/
theorem test_number (m n : Number) :
    c.test (some (.number m)) (.number n) = c.accepts (compare m.value n.value) := by
  by_cases hc : c = .eq
  · rw [hc, Bool.eq_iff_iff, accepts, beq_iff_eq, Std.compare_eq_iff_eq]
    simp only [test, equalsField, equal, Bool.or_false, beq_iff_eq]
  · rw [test_of_ne_eq hc]
    rfl

/-- For texts, also equality is read off their order. -/
theorem test_string (s t : String) :
    c.test (some (.string s)) (.string t) = c.accepts (compare s t) := by
  by_cases hc : c = .eq
  · rw [hc, Bool.eq_iff_iff, accepts, beq_iff_eq, Std.compare_eq_iff_eq]
    simp only [test, equalsField, equal, Bool.or_false, beq_iff_eq]
  · rw [test_of_ne_eq hc]
    rfl

/-- For two numbers or two texts, all comparisons read one outcome. -/
theorem test_of_comparable
    {x y : Json}
    (h : Comparable x y) :
    ∃ o : Ordering, ∀ c : Comparison, c.test (some x) y = c.accepts o := by
  cases h with
  | numbers m n => exact ⟨_, fun c => test_number m n⟩
  | texts s t => exact ⟨_, fun c => test_string s t⟩

theorem test_trans
    {x y z : Json}
    (hxy : Comparable x y)
    (hyz : Comparable y z)
    (h : c.test (some x) y = true)
    (h' : c.test (some y) z = true) :
    c.test (some x) z = true := by
  cases hxy with
  | numbers m n =>
      cases hyz with
      | numbers n l =>
          rw [test_number] at h h' ⊢
          exact accepts_trans h h'
  | texts s t =>
      cases hyz with
      | texts t u =>
          rw [test_string] at h h' ⊢
          exact accepts_trans h h'

/-- An order holds of a list if it holds of an item that is no list. -/
theorem test_array_iff
    (hc : c ≠ .eq)
    {items : List Json} {operand : Json} :
    c.test (some (.array items)) operand = true ↔
      ∃ v ∈ items, v.asArray? = none ∧ c.test (some v) operand = true := by
  have hitem : ∀ v : Json, ((order? v operand).any c.accepts = true ↔
      v.asArray? = none ∧ c.test (some v) operand = true) := by
    intro v
    rw [test_of_ne_eq hc]
    cases v with
    | array items => simp [order?, Json.asArray?]
    | _ => simp [compares, anyElement, Json.asArray?]
  rw [test_of_ne_eq hc, compares, anyElement, List.any_eq_true]
  simp only [hitem]

end Comparison

/-! Contexts with one field. -/

/-- The context in which nothing stands but a value at the end of a path. -/
def alone (field : String) (v : Json) : Json :=
  (pathParts field).foldr (fun part inner => .object [(part, inner)]) v

theorem resolve_alone (field : String) (v : Json) : resolve (alone field v) field = some v := by
  rw [resolve, alone]
  induction pathParts field with
  | nil => rfl
  | cons part parts ih =>
      rw [List.foldr_cons, resolveParts, List.foldlM_cons, step, Object.find?_cons, if_pos rfl]
      exact ih

namespace Comparison

/-- **The comparisons that a query may ask for agree with each other.**  Where the field and the
operand are two numbers or two texts, exactly one of less, equal and greater holds; less or equal
holds if greater does not, and greater or equal if less does not; and all of them are transitive.
A field that is a list is less or greater than a value if an item that is no list is so as the
field of its own. -/
theorem comparisons_agree
    [Languages]
    {field : String}
    (hfield : isOperatorKey field = false) :
    (∀ (c : Comparison) (context y : Json), ∃ b, matchesQuery (c.query field y) context = .ok b) ∧
      (∀ context x y : Json, resolve context field = some x → Comparable x y →
        (∃! c : Comparison, (c = .lt ∨ c = .eq ∨ c = .gt) ∧
            matchesQuery (c.query field y) context = .ok true) ∧
          (matchesQuery (lte.query field y) context = .ok true ↔
            matchesQuery (gt.query field y) context = .ok false) ∧
          (matchesQuery (gte.query field y) context = .ok true ↔
            matchesQuery (lt.query field y) context = .ok false)) ∧
      (∀ (c : Comparison) (context context' x y z : Json),
        resolve context field = some x → resolve context' field = some y →
          Comparable x y → Comparable y z →
            matchesQuery (c.query field y) context = .ok true →
              matchesQuery (c.query field z) context' = .ok true →
                matchesQuery (c.query field z) context = .ok true) ∧
      (∀ (c : Comparison) (context y : Json) (items : List Json), c ≠ .eq →
        resolve context field = some (.array items) →
          (matchesQuery (c.query field y) context = .ok true ↔
            ∃ v ∈ items, v.asArray? = none ∧
              matchesQuery (c.query field y) (alone field v) = .ok true)) := by
  have hquery : ∀ (c : Comparison) (context y : Json) (b : Bool),
      matchesQuery (c.query field y) context = .ok b ↔
        c.test (resolve context field) y = b := by
    intro c context y b
    rw [matchesQuery_query hfield, Except.ok.injEq]
  refine ⟨?_, ?_, ?_, ?_⟩
  · intro c context y
    exact ⟨_, matchesQuery_query hfield⟩
  · intro context x y hx hxy
    obtain ⟨o, ho⟩ := test_of_comparable hxy
    simp only [hquery, hx, ho, accepts_lte, accepts_gte, Bool.not_eq_true', iff_self, and_true]
    exact existsUnique_accepts o
  · intro c context context' x y z hx hy hxy hyz h h'
    rw [hquery, hx] at h ⊢
    rw [hquery, hy] at h'
    exact test_trans hxy hyz h h'
  · intro c context y items hc hitems
    simp only [hquery, hitems, resolve_alone]
    exact test_array_iff hc

/-- A total that is less than nothing, one beyond `2 ^ 53`, and the greatest one. -/
def totals : Json × Json × Json :=
  (.number (.integer ⟨-1, by decide, by decide⟩), .ofNat 9007199254740993,
    .ofNat 18446744073709551615)

/-- The least total compares with the next one in one way, and is less than the greatest one by way
of it.  A list is greater than the one in the middle by the greatest one, which is its item. -/
theorem comparisons_agree_totals :
    (isOperatorKey "order.total" = false ∧ Comparable totals.1 totals.2.1 ∧
        Comparable totals.2.1 totals.2.2 ∧
        resolve (alone "order.total" totals.1) "order.total" = some totals.1) ∧
      (∃! c : Comparison, (c = .lt ∨ c = .eq ∨ c = .gt) ∧
        matchesQuery (c.query "order.total" totals.2.1) (alone "order.total" totals.1) = .ok true) ∧
      matchesQuery (lt.query "order.total" totals.2.2) (alone "order.total" totals.1) = .ok true ∧
      matchesQuery (gt.query "order.total" totals.2.1)
        (alone "order.total" (.array [totals.1, .array [totals.2.1], totals.2.2])) = .ok true := by
  have hfield : isOperatorKey "order.total" = false := by decide
  have htest : ∀ (c : Comparison) (v y : Json), c.test (some v) y = true →
      matchesQuery (c.query "order.total" y) (alone "order.total" v) = .ok true := by
    intro c v y h
    rw [matchesQuery_query hfield, resolve_alone, h]
  obtain ⟨-, hone, htrans, hlist⟩ := comparisons_agree hfield
  refine ⟨⟨hfield, .numbers _ _, .numbers _ _, resolve_alone _ _⟩, ?_, ?_, ?_⟩
  · exact (hone _ _ _ (resolve_alone _ _) (.numbers _ _)).1
  · refine htrans lt _ (alone "order.total" totals.2.1) totals.1 totals.2.1 totals.2.2
      (resolve_alone _ _) (resolve_alone _ _) (.numbers _ _) (.numbers _ _) ?_ ?_
    · exact htest _ _ _ (by decide +kernel)
    · exact htest _ _ _ (by decide +kernel)
  · refine (hlist gt _ _ _ (by decide) (resolve_alone _ _)).2 ⟨totals.2.2, by simp, rfl, ?_⟩
    exact htest _ _ _ (by decide +kernel)

end Comparison
end Condition
end Warrant
