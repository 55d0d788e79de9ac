import Warrant.Proofs.Ability.Splitting
import Warrant.Proofs.Condition.Comparison
import Warrant.Proofs.Number.Nearest

/-!
# Comparisons of integers

A condition may compare the field at a path with a number: the field is equal to it, greater or
less.  Integers are kept exactly where they are read, but two numbers are compared through the
binary64 numbers nearest to them.  So a comparison of integers says what it seems to say for all
pairs with different nearest numbers, hence whenever one of the two is below `2 ^ 53`; two different
integers with the same nearest number count as equal.

**Results.**
* `matchesQuery_of_asks`: what a comparison says of the field.
* `test_number_iff`: numbers are compared by their values.
* `covers_comparison_iff`: when a grant with a comparison of integers covers a request.
-/

namespace Warrant
namespace Condition
namespace Comparison

/-- Whether two integers compare like that. -/
def Holds : Comparison → Int → Int → Prop
  | .eq, a, b => a = b
  | .gt, a, b => b < a
  | .gte, a, b => b ≤ a
  | .lt, a, b => a < b
  | .lte, a, b => a ≤ b

instance (c : Comparison) (a b : Int) : Decidable (c.Holds a b) :=
  match c with
  | .eq => inferInstanceAs (Decidable (a = b))
  | .gt => inferInstanceAs (Decidable (b < a))
  | .gte => inferInstanceAs (Decidable (b ≤ a))
  | .lt => inferInstanceAs (Decidable (a < b))
  | .lte => inferInstanceAs (Decidable (a ≤ b))

/-- A query that asks for one comparison of a field with a number: by the operator, or, for
equality, by the number alone. -/
inductive Asks : Comparison → String → Number → Object → Prop
  | operator (c : Comparison) (field : String) (y : Number) :
      Asks c field y [(field, .object [(c.operator, .number y)])]
  | value (field : String) (y : Number) :
      Asks .eq field y [(field, .number y)]

variable {c : Comparison}

section Languages

variable [Languages]

/-- What a comparison says of the field. -/
theorem matchesQuery_of_asks
    {field : String} {y : Number} {query : Object} {context : Json}
    (hfield : isOperatorKey field = false)
    (h : c.Asks field y query) :
    matchesQuery query context = .ok (c.test (resolve context field) (.number y)) := by
  cases h with
  | operator => exact matchesQuery_query hfield
  | value =>
      rw [matchesQuery_single hfield, matchesField, test]
      intro entries hobject
      cases hobject

end Languages

/-- Numbers are compared by their values. -/
theorem test_number_iff {x y : Number} :
    c.test (some (.number x)) (.number y) = true ↔ c.Holds x.value y.value := by
  rw [test_number]
  cases c with
  | eq => rw [accepts, beq_iff_eq, Std.compare_eq_iff_eq, Holds]
  | gt => rw [accepts, beq_iff_eq, Int.compare_eq_gt, Holds]
  | gte => rw [accepts, bne_iff_ne, Int.compare_ne_lt, Holds]
  | lt => rw [accepts, beq_iff_eq, Int.compare_eq_lt, Holds]
  | lte => rw [accepts, bne_iff_ne, Int.compare_ne_gt, Holds]

theorem holds_self_iff {a b : Int} : c.Holds a a ↔ c.Holds b b := by
  cases c <;> simp [Holds]

/-- Integers compare like their nearest numbers, unless these are equal for different ones. -/
theorem holds_nearestUnits_iff
    {a b : Int}
    (h : Binary64.nearestUnits a = Binary64.nearestUnits b → a = b) :
    c.Holds (Binary64.nearestUnits a) (Binary64.nearestUnits b) ↔ c.Holds a b := by
  have hle : ∀ {a b : Int}, (Binary64.nearestUnits a = Binary64.nearestUnits b → a = b) →
      (Binary64.nearestUnits a ≤ Binary64.nearestUnits b ↔ a ≤ b) := by
    intro a b h
    constructor
    · intro hunits
      by_contra hlt
      have hback := Binary64.nearestUnits_mono (Int.le_of_not_le hlt)
      exact hlt (Int.le_of_eq (h (Int.le_antisymm hunits hback)))
    · exact Binary64.nearestUnits_mono
  have hab := hle h
  have hba := hle (fun heq => (h heq.symm).symm)
  cases c with
  | eq => exact ⟨h, congrArg _⟩
  | gt => rw [Holds, Holds, ← Int.not_le, ← Int.not_le, hab]
  | gte => exact hba
  | lt => rw [Holds, Holds, ← Int.not_le, ← Int.not_le, hba]
  | lte => exact hab

end Comparison

/-- The field of a context with nothing else in it. -/
theorem resolve_single
    {field : String}
    (hfield : pathSeparator ∉ field.toList)
    (v : Json) :
    resolve (.object [(field, v)]) field = some v := by
  have halone : alone field v = .object [(field, v)] := by
    rw [alone, pathParts, List.splitOn_eq_singleton hfield, List.map_singleton,
      String.ofList_toList]
    rfl
  rw [← halone, resolve_alone]

end Condition

namespace Permission

open Condition (Comparison isOperatorKey resolve)

section Languages

variable [Languages]

section Integers

variable {config : Config} {granted requested : Permission} {query : Object} {context : Json}
  {field : String} {c : Comparison} {m n : Integer}
  (hfield : isOperatorKey field = false)
  (hasks : c.Asks field (.integer m) query)
  (hconditions : granted.conditions = some query)
  (hother : covers config granted requested none = true)
  (hcontext : resolve context field = some (.number (.integer n)))

include hfield hasks hconditions hother hcontext

/-- A comparison of integers is one of their nearest numbers. -/
theorem covers_iff_nearestUnits :
    covers config granted requested (some context) = true ↔
      c.Holds (Binary64.nearestUnits n.val) (Binary64.nearestUnits m.val) := by
  obtain ⟨⟨hscope, -, hrequested⟩, hnames⟩ := covers_iff.1 hother
  have hholds : holdsIn granted.conditions (some context) =
      c.test (some (.number (.integer n))) (.number (.integer m)) := by
    rw [hconditions, ← hcontext, holdsIn, Comparison.matchesQuery_of_asks hfield hasks]
  rw [covers_iff, hholds, Comparison.test_number_iff]
  constructor
  · rintro ⟨⟨-, hcompared, -⟩, -⟩
    exact hcompared
  · intro hcompared
    exact ⟨⟨hscope, hcompared, hrequested⟩, hnames⟩

end Integers

/-- **A comparison of integers is exact for all pairs that rounding to binary64 does not bring
together.**  A grant that compares a field with an integer and covers a request otherwise covers it
in a context where the field is an integer exactly if the two compare like that, unless they are
different and have the same nearest number.  Those count as equal, and both are at least `2 ^ 53`
in size. -/
theorem covers_comparison_iff
    {config : Config} {granted requested : Permission} {query : Object} {context : Json}
    {field : String} {c : Comparison} {m n : Integer}
    (hfield : isOperatorKey field = false)
    (hasks : c.Asks field (.integer m) query)
    (hconditions : granted.conditions = some query)
    (hother : covers config granted requested none = true)
    (hcontext : resolve context field = some (.number (.integer n))) :
    ((Binary64.nearestUnits n.val = Binary64.nearestUnits m.val → n.val = m.val) →
        (covers config granted requested (some context) = true ↔ c.Holds n.val m.val)) ∧
      (Binary64.nearestUnits n.val = Binary64.nearestUnits m.val →
        (covers config granted requested (some context) = true ↔ c.Holds m.val m.val)) ∧
      (n.val.natAbs < 2 ^ 53 ∨ m.val.natAbs < 2 ^ 53 →
        (covers config granted requested (some context) = true ↔ c.Holds n.val m.val)) := by
  have hnearest := covers_iff_nearestUnits hfield hasks hconditions hother hcontext
  refine ⟨?_, ?_, ?_⟩
  · intro hapart
    rw [hnearest, Comparison.holds_nearestUnits_iff hapart]
  · intro htogether
    rw [hnearest, htogether, Comparison.holds_self_iff]
  · intro hsmall
    rw [hnearest, Comparison.holds_nearestUnits_iff (Binary64.eq_of_nearestUnits_eq hsmall)]

end Languages

/-- The number of a tenant, odd and beyond `2 ^ 53`. -/
def tenant : Integer :=
  ⟨9007199254740993, by decide, by decide⟩

/-- The number before it, `2 ^ 53`. -/
def previousTenant : Integer :=
  ⟨9007199254740992, by decide, by decide⟩

/-- The next odd number. -/
def laterTenant : Integer :=
  ⟨9007199254740995, by decide, by decide⟩

/-- A grant to read the documents of the tenant. -/
def readOfTenant : Permission :=
  { Permission.can ["read"] ["doc"] with
    conditions := some [("tenant", .number (.integer tenant))] }

/-- A grant to read the documents of all tenants with greater numbers. -/
def readAfterTenant : Permission :=
  { Permission.can ["read"] ["doc"] with
    conditions := some [("tenant", .object [("$gt", .number (.integer tenant))])] }

/-- A context with the number of a tenant. -/
def tenantContext (n : Integer) : Json :=
  .object [("tenant", .number (.integer n))]

theorem resolve_tenantContext (n : Integer) :
    resolve (tenantContext n) "tenant" = some (.number (.integer n)) :=
  Condition.resolve_single (by decide) _

/-- Beyond `2 ^ 53` there are still exact comparisons: those of numbers with different nearest
numbers. -/
theorem covers_comparison_iff_laterTenant :
    (covers {} readAfterTenant (Permission.can ["read"] ["doc"]) none = true ∧
      Binary64.nearestUnits laterTenant.val ≠ Binary64.nearestUnits tenant.val) ∧
      covers {} readAfterTenant (Permission.can ["read"] ["doc"])
        (some (tenantContext laterTenant)) = true := by
  have hother : covers {} readAfterTenant (Permission.can ["read"] ["doc"]) none = true := by
    decide
  have hapart : Binary64.nearestUnits laterTenant.val ≠ Binary64.nearestUnits tenant.val := by
    decide +kernel
  have hexact := (covers_comparison_iff (by decide) (Comparison.Asks.operator .gt "tenant" _) rfl
    hother (resolve_tenantContext laterTenant)).1 fun htogether => absurd htogether hapart
  exact ⟨⟨hother, hapart⟩, hexact.2 (by decide)⟩

/-- A grant for one tenant covers the request for the tenant with the number before. -/
theorem covers_previousTenant :
    covers {} readOfTenant (Permission.can ["read"] ["doc"]) none = true ∧
      covers {} readOfTenant (Permission.can ["read"] ["doc"])
          (some (tenantContext previousTenant)) = true ∧
        previousTenant.val ≠ tenant.val := by
  have hother : covers {} readOfTenant (Permission.can ["read"] ["doc"]) none = true := by
    decide
  refine ⟨hother, ?_, by decide⟩
  rw [covers_iff_nearestUnits (by decide) (Comparison.Asks.value "tenant" _) rfl hother
    (resolve_tenantContext previousTenant)]
  decide +kernel

end Permission
end Warrant
