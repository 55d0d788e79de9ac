import Warrant.Condition.Query
import Warrant.Proofs.Condition.Equality

/-!
# Operands of operators and the order of keys

What an operator says about a field does not depend on the order in which the keys of its operand
and of its siblings were written.  Two readings of the operand, as a condition on a field and as a
query, are parameters; where one of them answers, the reading that is put in its place must give
the same answer.

**Results.**
* `equalsField_congr`, `compares_congr`, `hasAll_congr`: tests of a field against operands that
  are the same.
* `applyOperator_of_within`, `applyCombinator_of_within`: an operator and a combinator.
-/

namespace Warrant
namespace Condition

/-- Where the first function answers, the second one gives the same answer. -/
def Within [Languages] {α : Type} (f g : α → Except QueryError Bool) : Prop :=
  ∀ a b, f a = .ok b → g a = .ok b

section Tests

variable {v w : Json} {xs ys : List Json}

theorem equalsField_congr
    (actual : Option Json)
    (hv : v.KeysDistinct)
    (hw : w.KeysDistinct)
    (hsame : v.same w = true) :
    equalsField actual v = equalsField actual w := by
  have heq : ∀ u, equal u v = equal u w := fun u => equal_congr_right u hv hw hsame
  unfold equalsField
  simp only [heq]

theorem order?_congr
    (u : Json)
    (hsame : v.same w = true) :
    order? u v = order? u w := by
  cases v with
  | number m =>
      cases w with
      | number n =>
          rw [Json.same] at hsame
          cases u with
          | number l => rw [order?, order?, Number.value_eq_of_same hsame]
          | _ => rfl
      | _ => simp [Json.same] at hsame
  | string s =>
      cases w with
      | string t =>
          rw [Json.same, beq_iff_eq] at hsame
          rw [hsame]
      | _ => simp [Json.same] at hsame
  | _ =>
      cases w with
      | number n => simp [Json.same] at hsame
      | string t => simp [Json.same] at hsame
      | _ => cases u <;> rfl

theorem compares_congr
    (actual : Option Json)
    (accept : Ordering → Bool)
    (hsame : v.same w = true) :
    compares actual v accept = compares actual w accept := by
  have heq : ∀ u, order? u v = order? u w := fun u => order?_congr u hsame
  unfold compares
  simp only [heq]

theorem any_congr_of_forall₂
    {f g : Json → Bool}
    (h : List.Forall₂ (fun v w => f v = g w) xs ys) :
    xs.any f = ys.any g := by
  induction h with
  | nil => rfl
  | cons hvw _ ih => rw [List.any_cons, List.any_cons, hvw, ih]

theorem all_congr_of_forall₂
    {f g : Json → Bool}
    (h : List.Forall₂ (fun v w => f v = g w) xs ys) :
    xs.all f = ys.all g := by
  induction h with
  | nil => rfl
  | cons hvw _ ih => rw [List.all_cons, List.all_cons, hvw, ih]

/-- Lists that are the same have items that are compared alike. -/
theorem forall₂_of_same_array
    {f : Json → Bool}
    (hv : (Json.array xs).KeysDistinct)
    (hw : (Json.array ys).KeysDistinct)
    (hsame : (Json.array xs).same (.array ys) = true)
    (hf : ∀ v w, v.KeysDistinct → w.KeysDistinct → v.same w = true → f v = f w) :
    List.Forall₂ (fun v w => f v = f w) xs ys := by
  rw [Json.same_array_iff, List.forall₂_iff_get] at hsame
  rw [Json.keysDistinct_array_iff] at hv hw
  refine List.forall₂_iff_get.2 ⟨hsame.1, ?_⟩
  intro i hi hi'
  exact hf _ _ (hv _ (List.get_mem _ _)) (hw _ (List.get_mem _ _)) (hsame.2 i hi hi')

theorem hasAll_congr
    (actual : Option Json)
    (hv : (Json.array xs).KeysDistinct)
    (hw : (Json.array ys).KeysDistinct)
    (hsame : (Json.array xs).same (.array ys) = true) :
    hasAll actual xs = hasAll actual ys := by
  unfold hasAll
  split
  next items =>
    refine all_congr_of_forall₂ (forall₂_of_same_array hv hw hsame ?_)
    intro v w hv hw hvw
    have heq : ∀ u, equal u v = equal u w := fun u => equal_congr_right u hv hw hvw
    simp only [heq]
  next => rfl

theorem any_equalsField_congr
    (actual : Option Json)
    (hv : (Json.array xs).KeysDistinct)
    (hw : (Json.array ys).KeysDistinct)
    (hsame : (Json.array xs).same (.array ys) = true) :
    xs.any (equalsField actual) = ys.any (equalsField actual) :=
  any_congr_of_forall₂
    (forall₂_of_same_array hv hw hsame fun _ _ hv hw hvw => equalsField_congr actual hv hw hvw)

theorem asCount?_congr
    (hsame : v.same w = true) :
    v.asCount? = w.asCount? := by
  cases v with
  | number m =>
      cases w with
      | number n =>
          rw [Json.same] at hsame
          cases m with
          | integer m =>
              cases n with
              | integer n =>
                  rw [Number.same, beq_iff_eq] at hsame
                  rw [hsame]
              | float y => simp [Number.same] at hsame
          | float x =>
              cases n with
              | integer n => simp [Number.same] at hsame
              | float y => rfl
      | _ => simp [Json.same] at hsame
  | _ =>
      cases w with
      | number n => simp [Json.same] at hsame
      | _ => rfl

theorem asString?_congr
    (hsame : v.same w = true) :
    v.asString? = w.asString? := by
  cases v with
  | string s =>
      cases w with
      | string t =>
          rw [Json.same, beq_iff_eq] at hsame
          rw [hsame]
      | _ => simp [Json.same] at hsame
  | _ =>
      cases w with
      | string t => simp [Json.same] at hsame
      | _ => rfl

theorem isObject_congr
    (hsame : v.same w = true) :
    v.isObject = w.isObject := by
  cases v <;> cases w <;> first | rfl | simp [Json.same] at hsame

theorem exists_array_of_same
    {items : List Json} {w : Json}
    (hsame : (Json.array items).same w = true) :
    ∃ others, w = .array others := by
  cases w with
  | array others => exact ⟨others, rfl⟩
  | _ => simp [Json.same] at hsame

end Tests

/-! Objects that hold the same under every key. -/

section Alike

variable {a b : Object}

theorem isOperatorObject_congr
    (ha : a.keys.Nodup)
    (hb : b.keys.Nodup)
    (hsame : a.same b = true) :
    isOperatorObject a = isOperatorObject b := by
  have hlen : a.length = b.length := ((Json.same_object_iff a b).1 hsame).1
  have halike := (Json.same_object_iff_alike ha hb).1 hsame
  have hkeys : ∀ k, k ∈ a.keys ↔ k ∈ b.keys := by
    intro k
    have hk := halike k
    rw [Object.mem_keys_iff, Object.mem_keys_iff]
    generalize a.find? k = x, b.find? k = y at hk
    cases hk <;> simp
  have hempty : a.isEmpty = b.isEmpty := by
    cases a <;> cases b <;> simp_all
  have hall : ∀ o : Object, (o.all fun e => isOperatorKey e.1) = true ↔
      ∀ k ∈ o.keys, isOperatorKey k = true := by
    intro o
    simp [Object.keys]
  have hboth : (a.all fun e => isOperatorKey e.1) = (b.all fun e => isOperatorKey e.1) := by
    rw [Bool.eq_iff_iff, hall, hall]
    exact forall_congr' fun k => imp_congr_left (hkeys k)
  rw [isOperatorObject, isOperatorObject, hempty, hboth]

/-- Only the options count among the siblings of a pattern. -/
theorem ignoresCase_congr
    (h : Option.Rel (fun v w => v.same w = true) (a.find? "$options") (b.find? "$options")) :
    ignoresCase a = ignoresCase b := by
  unfold ignoresCase
  generalize a.find? "$options" = x, b.find? "$options" = y at h
  cases h with
  | none => rfl
  | @some v w hvw =>
      cases v with
      | string s =>
          cases w with
          | string t =>
              rw [Json.same, beq_iff_eq] at hvw
              rw [hvw]
          | _ => simp [Json.same] at hvw
      | _ =>
          cases w with
          | string t => simp [Json.same] at hvw
          | _ => rfl

theorem patternOperand_congr
    [Languages]
    (operator : String)
    {v w : Json}
    (hsame : v.same w = true)
    (h : ignoresCase a = ignoresCase b) :
    patternOperand operator v a = patternOperand operator w b := by
  unfold patternOperand
  rw [h]
  cases v with
  | string s =>
      cases w with
      | string t =>
          rw [Json.same, beq_iff_eq] at hsame
          rw [hsame]
      | _ => simp [Json.same] at hsame
  | _ =>
      cases w with
      | string t => simp [Json.same] at hsame
      | _ => rfl

end Alike

/-! Operators and combinators. -/

section Languages

variable [Languages]

theorem anyHolds_of_within
    {test test' : Json → Except QueryError Bool}
    (htest : Within test test') :
    Within (anyHolds test) (anyHolds test') := by
  intro items b h
  induction items with
  | nil => exact h
  | cons v items ih =>
      rw [anyHolds] at h ⊢
      cases hv : test v with
      | error e => rw [hv] at h; cases h
      | ok x =>
          rw [hv] at h
          rw [htest v x hv]
          cases x with
          | true => exact h
          | false => exact ih h

theorem listOperand_eq_ok_iff
    {operator : String}
    {operand : Json}
    {items : List Json} :
    listOperand operator operand = .ok items ↔ operand = .array items := by
  unfold listOperand
  split
  next items' =>
    rw [Except.ok.injEq, Json.array.injEq]
  next hne =>
    constructor
    · rintro ⟨⟩
    · intro h
      exact absurd h (hne items)

section Operators

variable {operand operand' : Json} {siblings siblings' : Object} {actual : Option Json}
  {asField asField' : Option Json → Except QueryError Bool}
  {asQuery asQuery' : Json → Except QueryError Bool}

/-- An operator that takes a list answers alike for lists that are the same. -/
theorem listOperand_congr
    {operator : String} {answer : List Json → Bool} {b : Bool}
    (hsame : operand.same operand' = true)
    (hanswer : ∀ items others, (Json.array items).KeysDistinct → (Json.array others).KeysDistinct →
      (Json.array items).same (.array others) = true → answer items = answer others)
    (hv : operand.KeysDistinct)
    (hw : operand'.KeysDistinct)
    (h : (do let items ← listOperand operator operand; return answer items) = .ok b) :
    (do let items ← listOperand operator operand'; return answer items) = Except.ok b := by
  obtain ⟨items, hitems, hb⟩ := exists_of_bind_eq_ok h
  obtain rfl := listOperand_eq_ok_iff.1 hitems
  obtain ⟨others, rfl⟩ := exists_array_of_same hsame
  have hothers : listOperand operator (.array others) = .ok others := listOperand_eq_ok_iff.2 rfl
  rw [hothers, ← hb]
  exact congrArg Except.ok (hanswer items others hv hw hsame).symm

/-- What is asked of the elements of a list by queries that are the same. -/
theorem elementTest_of_within
    {query query' : Object}
    (hv : (Json.object query).KeysDistinct)
    (hw : (Json.object query').KeysDistinct)
    (hsame : (Json.object query).same (.object query') = true)
    (hfield : Within asField asField')
    (hquery : Within asQuery asQuery') :
    Within
      (fun item => if isOperatorObject query then asField (some item) else asQuery item)
      (fun item => if isOperatorObject query' then asField' (some item) else asQuery' item) := by
  have hobject : isOperatorObject query = isOperatorObject query' :=
    isOperatorObject_congr (Json.keysDistinct_object_iff.1 hv).1
      (Json.keysDistinct_object_iff.1 hw).1 hsame
  intro item x hx
  rw [← hobject]
  dsimp only at hx ⊢
  split
  next hop =>
    rw [if_pos hop] at hx
    exact hfield _ x hx
  next hop =>
    rw [if_neg hop] at hx
    exact hquery _ x hx

theorem applyOperator_of_within
    {operator : String} {b : Bool}
    (hv : operand.KeysDistinct)
    (hw : operand'.KeysDistinct)
    (hsame : operand.same operand' = true)
    (hcase : ignoresCase siblings = ignoresCase siblings')
    (hfield : Within asField asField')
    (hquery : Within asQuery asQuery')
    (h : applyOperator operator operand actual siblings asField asQuery = .ok b) :
    applyOperator operator operand' actual siblings' asField' asQuery' = .ok b := by
  unfold applyOperator at h
  split at h
  · rw [equalsField_congr actual hv hw hsame] at h
    exact h
  · rw [equalsField_congr actual hv hw hsame] at h
    exact h
  · rw [compares_congr actual _ hsame] at h
    exact h
  · rw [compares_congr actual _ hsame] at h
    exact h
  · rw [compares_congr actual _ hsame] at h
    exact h
  · rw [compares_congr actual _ hsame] at h
    exact h
  · exact listOperand_congr hsame (fun _ _ => any_equalsField_congr actual) hv hw h
  · have hnone : ∀ items others, (Json.array items).KeysDistinct →
        (Json.array others).KeysDistinct → (Json.array items).same (.array others) = true →
          (!items.any (equalsField actual)) = !others.any (equalsField actual) :=
      fun _ _ hi ho hio => congrArg (! ·) (any_equalsField_congr actual hi ho hio)
    exact listOperand_congr hsame hnone hv hw h
  · split at h
    next expected =>
      cases operand' with
      | bool expected' =>
          rw [Json.same, beq_iff_eq] at hsame
          subst hsame
          exact h
      | _ => simp [Json.same] at hsame
    next => cases h
  · rw [patternOperand_congr "$regex" hsame hcase] at h
    exact h
  · exact h
  · rw [asCount?_congr hsame] at h
    exact h
  · exact listOperand_congr hsame (fun _ _ => hasAll_congr actual) hv hw h
  · split at h
    next query =>
      cases operand' with
      | object query' =>
          exact anyHolds_of_within (elementTest_of_within hv hw hsame hfield hquery) _ b h
      | _ => simp [Json.same] at hsame
    next => cases h
  · cases hanswer : asField actual with
    | error e => rw [hanswer] at h; cases h
    | ok x =>
        rw [hanswer] at h
        have hanswer' := hfield actual x hanswer
        unfold applyOperator
        simp only [hanswer']
        exact h
  · cases h

end Operators

theorem checkQueries_congr
    (operator : String)
    {v w : Json}
    (hv : v.KeysDistinct)
    (hw : w.KeysDistinct)
    (hsame : v.same w = true) :
    checkQueries operator v = checkQueries operator w := by
  cases v with
  | array items =>
      obtain ⟨others, rfl⟩ := exists_array_of_same hsame
      have hall : items.all Json.isObject = others.all Json.isObject :=
        all_congr_of_forall₂
          (forall₂_of_same_array hv hw hsame fun _ _ _ _ hvw => isObject_congr hvw)
      simp only [checkQueries, listOperand, bind, Except.bind, hall]
  | _ =>
      cases w with
      | array others => simp [Json.same] at hsame
      | _ => rfl

/-- What is asked after lists of queries were checked is asked after checking lists that are the
same. -/
theorem checkQueries_of_within
    {operator : String} {v w : Json} {asked asked' : Except QueryError Bool} {b : Bool}
    (hv : v.KeysDistinct)
    (hw : w.KeysDistinct)
    (hsame : v.same w = true)
    (hasked : asked = .ok b → asked' = .ok b)
    (h : (do checkQueries operator v; asked) = .ok b) :
    (do checkQueries operator w; asked') = .ok b := by
  rw [checkQueries_congr operator hv hw hsame] at h
  obtain ⟨_, hcheck, hb⟩ := exists_of_bind_eq_ok h
  rw [hcheck]
  exact hasked hb

theorem applyCombinator_of_within
    {key : String} {v w context : Json} {b : Bool}
    {all all' any any' : Json → Except QueryError Bool}
    (hv : v.KeysDistinct)
    (hw : w.KeysDistinct)
    (hsame : v.same w = true)
    (hall : Within all all')
    (hany : Within any any')
    (h : applyCombinator key v context all any = .ok b) :
    applyCombinator key w context all' any' = .ok b := by
  unfold applyCombinator at h
  split at h
  · exact checkQueries_of_within hv hw hsame (hall context b) h
  · exact checkQueries_of_within hv hw hsame (hany context b) h
  · refine checkQueries_of_within hv hw hsame ?_ h
    intro hnot
    obtain ⟨x, hx, hb⟩ := exists_of_bind_eq_ok hnot
    rw [hany context x hx]
    exact hb
  · split at h
    next text =>
      cases w with
      | string text' =>
          rw [Json.same, beq_iff_eq] at hsame
          subst hsame
          exact h
      | _ => simp [Json.same] at hsame
    next => cases h
  · cases h

end Languages

end Condition
end Warrant
