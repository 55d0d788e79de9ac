import Warrant.Condition.Equality
import Warrant.Proofs.Json.Sameness

/-!
# Equality of condition values and the order of keys

Equality of values as conditions compare them does not see in which order the keys of an object
were written: values that are the same are equal, and equality is transitive.

**Results.**
* `equal_congr_right`: a value may be replaced by one that is the same.
* `subset_congr_left`, `subset_congr_right`: so may an object that is within another, or that
  another one is within.
-/

namespace Warrant

theorem Number.value_eq_of_same
    {m n : Number}
    (h : m.same n = true) :
    m.value = n.value := by
  cases m with
  | integer m =>
      cases n with
      | integer n =>
          rw [same, beq_iff_eq] at h
          rw [h]
      | float y => simp [same] at h
  | float x =>
      cases n with
      | integer n => simp [same] at h
      | float y =>
          rw [same, beq_iff_eq] at h
          exact h

namespace Condition

theorem equalItems_iff
    {xs ys : List Json} :
    equalItems xs ys = true ↔ List.Forall₂ (fun v w => equal v w = true) xs ys := by
  induction xs generalizing ys with
  | nil => cases ys <;> simp [equalItems]
  | cons x xs ih =>
      cases ys with
      | nil => simp [equalItems]
      | cons y ys => rw [equalItems, Bool.and_eq_true, ih, List.forall₂_cons]

/-- Values that are the same are equal. -/
theorem equal_of_same
    {v w : Json}
    (h : v.same w = true) :
    equal v w = true := by
  induction v using Json.induction generalizing w with
  | null => cases w <;> simp_all [Json.same, equal]
  | bool b => cases w <;> simp_all [Json.same, equal]
  | string s => cases w <;> simp_all [Json.same, equal]
  | number m =>
      cases w with
      | number n =>
          rw [Json.same] at h
          rw [equal, beq_iff_eq]
          exact Number.value_eq_of_same h
      | _ => simp [Json.same] at h
  | array items ih =>
      cases w with
      | array others =>
          rw [Json.same_array_iff] at h
          rw [equal, equalItems_iff]
          exact (forall₂_mem h).imp fun x y hxy => ih x hxy.1 hxy.2
      | _ => simp [Json.same] at h
  | object a ih =>
      cases w with
      | object b =>
          obtain ⟨hlen, hab⟩ := (Json.same_object_iff a b).1 h
          rw [equal, Bool.and_eq_true, beq_iff_eq, subset_iff]
          refine ⟨hlen, ?_⟩
          intro e he
          obtain ⟨y, hy, hey⟩ := hab e he
          exact ⟨y, hy, ih e he hey⟩
      | _ => simp [Json.same] at h

theorem equal_trans
    {u v w : Json}
    (huv : equal u v = true)
    (hvw : equal v w = true) :
    equal u w = true := by
  induction v using Json.induction generalizing u w with
  | null => cases u <;> cases w <;> simp_all [equal]
  | bool b => cases u <;> cases w <;> simp_all [equal]
  | string s => cases u <;> cases w <;> simp_all [equal]
  | number n => cases u <;> cases w <;> simp_all [equal]
  | array items ih =>
      cases u with
      | array xs =>
          cases w with
          | array ys =>
              rw [equal, equalItems_iff, List.forall₂_iff_get] at huv hvw ⊢
              refine ⟨huv.1.trans hvw.1, ?_⟩
              intro i hi hi'
              have hj : i < items.length := huv.1 ▸ hi
              exact ih _ (List.get_mem _ _) (huv.2 i hi hj) (hvw.2 i hj hi')
          | _ => simp [equal] at hvw
      | _ => simp [equal] at huv
  | object b ih =>
      cases u with
      | object a =>
          cases w with
          | object c =>
              rw [equal, Bool.and_eq_true, beq_iff_eq, subset_iff] at huv hvw ⊢
              refine ⟨huv.1.trans hvw.1, ?_⟩
              intro e he
              obtain ⟨x, hx, hex⟩ := huv.2 e he
              obtain ⟨y, hy, hxy⟩ := hvw.2 _ (Object.mem_of_find? hx)
              exact ⟨y, hy, ih _ (Object.mem_of_find? hx) hex hxy⟩
          | _ => simp [equal] at hvw
      | _ => simp [equal] at huv

theorem subset_trans
    {a b c : Object}
    (hab : subset a b = true)
    (hbc : subset b c = true) :
    subset a c = true := by
  rw [subset_iff] at hab hbc ⊢
  intro e he
  obtain ⟨x, hx, hex⟩ := hab e he
  obtain ⟨y, hy, hxy⟩ := hbc _ (Object.mem_of_find? hx)
  exact ⟨y, hy, equal_trans hex hxy⟩

theorem subset_of_same
    {a b : Object}
    (h : a.same b = true) :
    subset a b = true := by
  have hequal : equal (.object a) (.object b) = true := equal_of_same h
  rw [equal, Bool.and_eq_true] at hequal
  exact hequal.2

theorem equal_congr_right
    (u : Json)
    {v w : Json}
    (hv : v.KeysDistinct)
    (hw : w.KeysDistinct)
    (hsame : v.same w = true) :
    equal u v = equal u w := by
  have hsame' := Json.same_symm hv hw hsame
  rw [Bool.eq_iff_iff]
  exact ⟨fun h => equal_trans h (equal_of_same hsame),
    fun h => equal_trans h (equal_of_same hsame')⟩

section Objects

variable {a b : Object}

theorem subset_congr_right
    (xs : Object)
    (ha : (Json.object a).KeysDistinct)
    (hb : (Json.object b).KeysDistinct)
    (hsame : a.same b = true) :
    subset xs a = subset xs b := by
  have hsame' := Json.same_symm ha hb hsame
  rw [Bool.eq_iff_iff]
  exact ⟨fun h => subset_trans h (subset_of_same hsame),
    fun h => subset_trans h (subset_of_same hsame')⟩

theorem subset_congr_left
    (other : Object)
    (ha : (Json.object a).KeysDistinct)
    (hb : (Json.object b).KeysDistinct)
    (hsame : a.same b = true) :
    subset a other = subset b other := by
  have hsame' := Json.same_symm ha hb hsame
  rw [Bool.eq_iff_iff]
  exact ⟨fun h => subset_trans (subset_of_same hsame') h,
    fun h => subset_trans (subset_of_same hsame) h⟩

end Objects

end Condition
end Warrant
