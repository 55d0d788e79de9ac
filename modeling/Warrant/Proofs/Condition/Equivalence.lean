import Warrant.Proofs.Condition.Reordering

/-!
# Equality of condition values as an equivalence

Equality of condition values is an equivalence wherever no key stands twice in an object, and being
within an object is a preorder that goes with it.  Equality of objects looks at the entries of the
first one only, and at the number of entries.  It is symmetric because keys are distinct: an
object with as many keys as another one, all of which the other one has, has all keys of the other
one.

**Results.**
* `equal_object_iff`: objects are equal if they hold equal values under every key.
* `equal_refl`, `equal_symm`, `equal_equivalence`: equality is an equivalence.
* `same_of_reordered`: it does not see the order of keys, at any depth.
* `subset_congr`: objects within each other may be replaced by equal ones.
* `subset_both_iff`: objects within each other are equal.
* `equal_equivalence_and_subset_preorder`: all of this.
-/

namespace Warrant
namespace Condition

/-- Objects with distinct keys are equal if they hold equal values under every key. -/
theorem equal_object_iff
    {a b : Object}
    (ha : a.keys.Nodup)
    (hb : b.keys.Nodup) :
    equal (.object a) (.object b) = true ↔
      ∀ k, Option.Rel (fun v w => equal v w = true) (a.find? k) (b.find? k) := by
  rw [equal, Bool.and_eq_true, beq_iff_eq, subset_iff, Object.rel_find?_iff _ ha hb]

theorem equal_refl
    {v : Json}
    (hv : v.KeysDistinct) :
    equal v v = true :=
  equal_of_same (Json.same_refl hv)

theorem equal_symm
    {v w : Json}
    (hv : v.KeysDistinct)
    (hw : w.KeysDistinct)
    (h : equal v w = true) :
    equal w v = true := by
  induction v using Json.induction generalizing w with
  | null => cases w <;> simp_all [equal]
  | bool b => cases w <;> simp_all [equal]
  | string s => cases w <;> simp_all [equal]
  | number n => cases w <;> simp_all [equal]
  | array xs ih =>
      cases w with
      | array ys =>
          rw [Json.keysDistinct_array_iff] at hv hw
          rw [equal, equalItems_iff, List.forall₂_iff_get] at h ⊢
          refine ⟨h.1.symm, ?_⟩
          intro i hi hi'
          have hget := h.2 i hi' hi
          exact ih _ (List.get_mem _ _) (hv _ (List.get_mem _ _)) (hw _ (List.get_mem _ _)) hget
      | _ => simp [equal] at h
  | object a ih =>
      cases w with
      | object b =>
          have ha := (Json.keysDistinct_object_iff.1 hv).1
          have hb := (Json.keysDistinct_object_iff.1 hw).1
          rw [equal_object_iff hb ha]
          refine Object.rel_find?_flip ((equal_object_iff ha hb).1 h) ?_
          intro k x y hx hy hxy
          exact ih _ (Object.mem_of_find? hx) (Json.keysDistinct_of_find? hv hx)
            (Json.keysDistinct_of_find? hw hy) hxy
      | _ => simp [equal] at h

/-- **Equality is an equivalence on all values with distinct keys.** -/
theorem equal_equivalence :
    Equivalence fun v w : {v : Json // v.KeysDistinct} => equal v.1 w.1 = true where
  refl v := equal_refl v.2
  symm {v w} h := equal_symm v.2 w.2 h
  trans huv hvw := equal_trans huv hvw

section Reordered

variable {v w : Json} (hv : v.KeysDistinct) (h : Reordered .literal v w)
include hv h

theorem same_of_reordered : w.KeysDistinct ∧ v.same w = true := by
  -- a literal is not asked anything in either language, so those of this library will do
  have hexchangeable := exchangeable_of_reordered h hv (wellFormed_literal v)
  exact ⟨hexchangeable.keysDistinct, hexchangeable.agree⟩

/-- A value may be replaced by a reordering of it on either side. -/
theorem equal_congr_of_reordered (u : Json) :
    equal u v = equal u w ∧ equal v u = equal w u := by
  obtain ⟨hw, hsame⟩ := same_of_reordered hv h
  have hsame' := Json.same_symm hv hw hsame
  refine ⟨equal_congr_right u hv hw hsame, ?_⟩
  rw [Bool.eq_iff_iff]
  exact ⟨fun hequal => equal_trans (equal_of_same hsame') hequal,
    fun hequal => equal_trans (equal_of_same hsame) hequal⟩

end Reordered

section Objects

variable {a b a' b' : Object}

theorem subset_of_equal (h : equal (.object a) (.object b) = true) : subset a b = true := by
  rw [equal, Bool.and_eq_true] at h
  exact h.2

theorem subset_refl (ha : (Json.object a).KeysDistinct) : subset a a = true :=
  subset_of_equal (equal_refl ha)

theorem keys_subset_of_subset (h : subset a b = true) : a.keys ⊆ b.keys := by
  intro k hk
  obtain ⟨v, hv⟩ := Object.mem_keys_iff.1 hk
  obtain ⟨w, hw, -⟩ := (subset_iff a b).1 h _ (Object.mem_of_find? hv)
  exact Object.mem_keys_iff.2 ⟨w, hw⟩

theorem length_le_of_subset
    (ha : a.keys.Nodup)
    (h : subset a b = true) :
    a.length ≤ b.length := by
  have hlength := (List.subperm_of_subset ha (keys_subset_of_subset h)).length_le
  simpa [Object.keys] using hlength

/-- Objects that are within each other are equal. -/
theorem subset_both_iff
    (ha : (Json.object a).KeysDistinct)
    (hb : (Json.object b).KeysDistinct) :
    subset a b = true ∧ subset b a = true ↔ equal (.object a) (.object b) = true := by
  constructor
  · rintro ⟨hab, hba⟩
    have hle := length_le_of_subset (Json.keysDistinct_object_iff.1 ha).1 hab
    have hge := length_le_of_subset (Json.keysDistinct_object_iff.1 hb).1 hba
    rw [equal, Bool.and_eq_true, beq_iff_eq]
    exact ⟨Nat.le_antisymm hle hge, hab⟩
  · intro h
    exact ⟨subset_of_equal h, subset_of_equal (equal_symm ha hb h)⟩

/-- Both objects may be replaced by equal ones. -/
theorem subset_congr
    (ha : (Json.object a).KeysDistinct)
    (ha' : (Json.object a').KeysDistinct)
    (hb : (Json.object b).KeysDistinct)
    (hb' : (Json.object b').KeysDistinct)
    (haa' : equal (.object a) (.object a') = true)
    (hbb' : equal (.object b) (.object b') = true) :
    subset a b = subset a' b' := by
  have hleft := (subset_both_iff ha ha').2 haa'
  have hright := (subset_both_iff hb hb').2 hbb'
  rw [Bool.eq_iff_iff]
  constructor
  · intro h
    exact subset_trans hleft.2 (subset_trans h hright.1)
  · intro h
    exact subset_trans hleft.1 (subset_trans h hright.2)

end Objects

/-- **Equality of condition values is an equivalence, and being within an object is a preorder
that goes with it.**  Equality does not see the order of keys, and exact equality is finer.
Objects that are within each other are those that are equal, and equal objects may stand for each
other on both sides. -/
theorem equal_equivalence_and_subset_preorder :
    (Equivalence fun v w : {v : Json // v.KeysDistinct} => equal v.1 w.1 = true) ∧
      (∀ u v w : Json, v.KeysDistinct → Reordered .literal v w →
        equal u v = equal u w ∧ equal v u = equal w u) ∧
      (∀ v w : Json, v.same w = true → equal v w = true) ∧
      (∀ a : Object, (Json.object a).KeysDistinct → subset a a = true) ∧
      (∀ a b c : Object, subset a b = true → subset b c = true → subset a c = true) ∧
      (∀ a a' b b' : Object, (Json.object a).KeysDistinct → (Json.object a').KeysDistinct →
        (Json.object b).KeysDistinct → (Json.object b').KeysDistinct →
        equal (.object a) (.object a') = true → equal (.object b) (.object b') = true →
          subset a b = subset a' b') ∧
      (∀ a b : Object, (Json.object a).KeysDistinct → (Json.object b).KeysDistinct →
        (subset a b = true ∧ subset b a = true ↔ equal (.object a) (.object b) = true)) := by
  refine ⟨equal_equivalence, ?_, ?_, ?_, ?_, ?_, ?_⟩
  · intro u v w hv h
    exact equal_congr_of_reordered hv h u
  · intro v w h
    exact equal_of_same h
  · intro a ha
    exact subset_refl ha
  · intro a b c hab hbc
    exact subset_trans hab hbc
  · intro a a' b b' ha ha' hb hb' haa' hbb'
    exact subset_congr ha ha' hb hb' haa' hbb'
  · intro a b ha hb
    exact subset_both_iff ha hb

/-- The number one as binary64 holds it. -/
def floatOne : Json :=
  .number (.float ⟨false, unitsPerOne, by decide +kernel⟩)

/-- A plan with its limits. -/
def plan : Object :=
  [("seats", .ofNat 1), ("limits", .object [("users", .ofNat 1), ("rooms", .array [.ofNat 2])])]

/-- The plan in another order, with some of its numbers as binary64. -/
def rewrittenPlan : Object :=
  [("limits", .object [("rooms", .array [.ofNat 2]), ("users", floatOne)]), ("seats", floatOne)]

/-- A part of the plan. -/
def partOfPlan : Object :=
  [("limits", .object [("users", floatOne), ("rooms", .array [.ofNat 2])])]

/-- A plan and its rewriting are within each other, and have the same parts. -/
theorem equal_equivalence_and_subset_preorder_plan :
    ((Json.object plan).KeysDistinct ∧ (Json.object rewrittenPlan).KeysDistinct ∧
        (Json.object partOfPlan).KeysDistinct ∧
        equal (.object plan) (.object rewrittenPlan) = true) ∧
      (subset plan rewrittenPlan = true ∧ subset rewrittenPlan plan = true) ∧
        subset partOfPlan plan = true ∧ subset partOfPlan rewrittenPlan = true := by
  have hplan : (Json.object plan).KeysDistinct := by
    simp [plan, Json.KeysDistinct, Json.ItemsDistinct, Json.EntriesDistinct, Object.keys, Json.ofNat]
  have hrewritten : (Json.object rewrittenPlan).KeysDistinct := by
    simp [rewrittenPlan, floatOne, Json.KeysDistinct, Json.ItemsDistinct, Json.EntriesDistinct,
      Object.keys, Json.ofNat]
  have hpart : (Json.object partOfPlan).KeysDistinct := by
    simp [partOfPlan, floatOne, Json.KeysDistinct, Json.ItemsDistinct, Json.EntriesDistinct,
      Object.keys, Json.ofNat]
  have hequal : equal (.object plan) (.object rewrittenPlan) = true := by
    decide +kernel
  have hsubset : subset partOfPlan plan = true := by
    decide +kernel
  obtain ⟨hequivalence, -, -, -, -, hcongr, hboth⟩ := equal_equivalence_and_subset_preorder
  have hcongr := hcongr _ _ _ _ hpart hpart hplan hrewritten (hequivalence.refl ⟨_, hpart⟩) hequal
  exact ⟨⟨hplan, hrewritten, hpart, hequal⟩, (hboth _ _ hplan hrewritten).2 hequal, hsubset,
    hcongr ▸ hsubset⟩

end Condition
end Warrant
