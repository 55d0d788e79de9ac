import Mathlib.Data.List.Perm.Subperm
import Warrant.Json.Equality
import Warrant.Proofs.Outcome

/-!
# Exact equality up to the order of keys

If no key stands twice in an object, the object is its map from keys to values, and exact
equality compares these maps key by key.  It is then an equivalence, which is what grouping by
keys and dropping of repeated members rely on.

**Results.**
* `rel_find?_iff`: a relation of objects, entry by entry or key by key.
* `same_object_iff_alike`: objects are the same if they hold the same under every key.
* `same_refl`, `same_symm`, `same_trans`: exact equality is an equivalence.
-/

namespace Warrant

/-! An object by its keys. -/

namespace Object

theorem mem_of_find?
    {o : Object} {k : String} {v : Json}
    (h : o.find? k = some v) :
    (k, v) ∈ o := by
  obtain ⟨l₁, l₂, rfl, -⟩ := List.lookup_eq_some_iff.1 h
  simp

theorem find?_of_mem
    {o : Object} (ho : o.keys.Nodup)
    {k : String} {v : Json}
    (h : (k, v) ∈ o) :
    o.find? k = some v := by
  induction o with
  | nil => simp at h
  | cons e o ih =>
      obtain ⟨k', v'⟩ := e
      simp only [keys, List.map_cons, List.nodup_cons] at ho
      rw [find?_cons]
      rcases List.mem_cons.1 h with heq | hmem
      · obtain ⟨rfl, rfl⟩ := Prod.mk.inj heq
        simp
      · have hne : k ≠ k' := by
          rintro rfl
          exact ho.1 (List.mem_map.2 ⟨(k, v), hmem, rfl⟩)
        rw [if_neg hne]
        exact ih ho.2 hmem

theorem mem_keys_iff
    {o : Object} {k : String} :
    k ∈ o.keys ↔ ∃ v, o.find? k = some v := by
  induction o with
  | nil => simp [keys]
  | cons e o ih =>
      obtain ⟨k', v'⟩ := e
      simp only [keys, List.map_cons, List.mem_cons, find?_cons]
      by_cases hk : k = k'
      · simp [hk]
      · simp only [hk, false_or, if_false]
        exact ih

theorem find?_eq_none_iff
    {o : Object} {k : String} :
    o.find? k = none ↔ k ∉ o.keys := by
  rw [mem_keys_iff, Option.eq_none_iff_forall_ne_some]
  simp

theorem nodup_keys_insert
    {o : Object} (ho : o.keys.Nodup)
    (k : String) (v : Json) :
    (o.insert k v).keys.Nodup := by
  rw [keys_insert]
  split
  · exact ho
  next hk =>
    refine List.nodup_append.2 ⟨ho, by simp, ?_⟩
    intro a ha b hb hab
    rw [List.mem_singleton] at hb
    exact hk (hb ▸ hab ▸ ha)

theorem insert_of_not_mem
    {o : Object} {k : String}
    (hk : k ∉ o.keys)
    (v : Json) :
    o.insert k v = o ++ [(k, v)] := by
  induction o with
  | nil => rfl
  | cons e o ih =>
      obtain ⟨k', v'⟩ := e
      simp only [keys, List.map_cons, List.mem_cons, not_or] at hk
      rw [insert, if_neg (fun h => hk.1 h.symm), ih hk.2]
      rfl

theorem not_mem_keys_of_nodup
    {before after : Object} {k : String} {v : Json}
    (h : (keys (before ++ (k, v) :: after)).Nodup) :
    k ∉ keys before := by
  intro hk
  rw [keys, List.map_append, List.map_cons, List.nodup_append] at h
  exact h.2.2 k hk k List.mem_cons_self rfl

/-- Objects with distinct keys are related under every key if they have as many entries and every
entry of the first one is related to one of the second. -/
theorem rel_find?_iff
    (R : Json → Json → Prop)
    {a b : Object}
    (ha : a.keys.Nodup)
    (hb : b.keys.Nodup) :
    (∀ k, Option.Rel R (a.find? k) (b.find? k)) ↔
      a.length = b.length ∧ ∀ e ∈ a, ∃ w, b.find? e.1 = some w ∧ R e.2 w := by
  constructor
  · intro h
    have hperm : a.keys.Perm b.keys := by
      rw [List.perm_ext_iff_of_nodup ha hb]
      intro k
      have hk := h k
      rw [mem_keys_iff, mem_keys_iff]
      generalize a.find? k = x, b.find? k = y at hk
      cases hk <;> simp
    refine ⟨by simpa [keys] using hperm.length_eq, ?_⟩
    rintro ⟨k, v⟩ he
    have hk := h k
    rw [find?_of_mem ha he] at hk
    generalize b.find? k = y at hk
    cases hk with
    | some hvw => exact ⟨_, rfl, hvw⟩
  · rintro ⟨hlen, hab⟩ k
    have hsub : a.keys ⊆ b.keys := by
      intro k hk
      obtain ⟨v, hv⟩ := mem_keys_iff.1 hk
      obtain ⟨w, hw, -⟩ := hab _ (mem_of_find? hv)
      exact mem_keys_iff.2 ⟨w, hw⟩
    -- as many keys as there are in `b`, so none of those is missing in `a`
    have hperm : a.keys.Perm b.keys :=
      (List.subperm_of_subset ha hsub).perm_of_length_le (by simp [keys, hlen])
    cases hv : a.find? k with
    | some v =>
        obtain ⟨w, hw, hvw⟩ := hab _ (mem_of_find? hv)
        rw [hw]
        exact Option.Rel.some hvw
    | none =>
        have hk : k ∉ b.keys := by
          rw [← hperm.mem_iff]
          exact find?_eq_none_iff.1 hv
        rw [find?_eq_none_iff.2 hk]
        exact Option.Rel.none

/-- A relation that holds under every key may be turned round under every key. -/
theorem rel_find?_flip
    {R S : Json → Json → Prop}
    {a b : Object}
    (h : ∀ k, Option.Rel R (a.find? k) (b.find? k))
    (hflip : ∀ k v w, a.find? k = some v → b.find? k = some w → R v w → S w v) :
    ∀ k, Option.Rel S (b.find? k) (a.find? k) := by
  intro k
  have hk := h k
  have hvalues := hflip k
  generalize a.find? k = x, b.find? k = y at hk hvalues ⊢
  cases hk with
  | none => exact Option.Rel.none
  | some hvw => exact Option.Rel.some (hvalues _ _ rfl rfl hvw)

end Object

namespace Json

/-- Induction over data values that gives the hypothesis for every item and every entry. -/
theorem induction
    {P : Json → Prop}
    (null : P .null)
    (bool : ∀ b, P (.bool b))
    (number : ∀ n, P (.number n))
    (string : ∀ s, P (.string s))
    (array : ∀ items, (∀ v ∈ items, P v) → P (.array items))
    (object : ∀ entries : Object, (∀ e ∈ entries, P e.2) → P (.object entries)) :
    ∀ v, P v
  | .null => null
  | .bool b => bool b
  | .number n => number n
  | .string s => string s
  | .array items =>
      array items fun v _ => induction null bool number string array object v
  | .object entries =>
      object entries fun e _ => induction null bool number string array object e.2
termination_by v => sizeOf v
decreasing_by
  · have := List.sizeOf_lt_of_mem ‹v ∈ items›
    simp only [Json.array.sizeOf_spec]
    omega
  · have := List.sizeOf_lt_of_mem ‹e ∈ entries›
    obtain ⟨k, v⟩ := e
    simp only [Json.object.sizeOf_spec, Prod.mk.sizeOf_spec] at this ⊢
    omega

theorem keysDistinct_array_iff
    {items : List Json} :
    KeysDistinct (.array items) ↔ ∀ v ∈ items, KeysDistinct v := by
  rw [KeysDistinct]
  induction items with
  | nil => simp [ItemsDistinct]
  | cons v items ih =>
      rw [ItemsDistinct, List.forall_mem_cons, ih]

theorem entriesDistinct_iff
    {entries : Object} :
    EntriesDistinct entries ↔ ∀ e ∈ entries, KeysDistinct e.2 := by
  induction entries with
  | nil => simp [EntriesDistinct]
  | cons e entries ih =>
      obtain ⟨k, v⟩ := e
      rw [EntriesDistinct, List.forall_mem_cons, ih]

theorem keysDistinct_object_iff
    {o : Object} :
    KeysDistinct (.object o) ↔ o.keys.Nodup ∧ ∀ e ∈ o, KeysDistinct e.2 := by
  rw [KeysDistinct, entriesDistinct_iff]

theorem keysDistinct_of_find?
    {o : Object} (ho : KeysDistinct (.object o))
    {k : String} {v : Json}
    (h : o.find? k = some v) :
    KeysDistinct v :=
  (keysDistinct_object_iff.1 ho).2 _ (Object.mem_of_find? h)

theorem keysDistinct_insert
    {o : Object} {v : Json}
    (ho : KeysDistinct (.object o))
    (hv : KeysDistinct v)
    (k : String) :
    KeysDistinct (.object (Object.insert o k v)) := by
  obtain ⟨hkeys, hvals⟩ := keysDistinct_object_iff.1 ho
  have hnodup := Object.nodup_keys_insert hkeys k v
  rw [keysDistinct_object_iff]
  refine ⟨hnodup, ?_⟩
  rintro ⟨k', w⟩ hw
  have hfind := Object.find?_of_mem hnodup hw
  rw [Object.find?_insert] at hfind
  split at hfind
  · cases hfind
    exact hv
  · exact hvals _ (Object.mem_of_find? hfind)

theorem same_array_iff
    {xs ys : List Json} :
    same (.array xs) (.array ys) = true ↔ List.Forall₂ (fun v w => same v w = true) xs ys := by
  induction xs generalizing ys with
  | nil =>
      cases ys <;> simp [same, sameItems]
  | cons x xs ih =>
      cases ys with
      | nil => simp [same, sameItems]
      | cons y ys =>
          rw [same_array_cons, Bool.and_eq_true, ih, List.forall₂_cons]

end Json

/-- Two objects hold the same under every key. -/
def Object.Alike (a b : Object) : Prop :=
  ∀ k, Option.Rel (fun v w => Json.same v w = true) (a.find? k) (b.find? k)

namespace Object

theorem Alike.exists_of_find?
    {a b : Object} (h : a.Alike b)
    {k : String} {v : Json}
    (hv : a.find? k = some v) :
    ∃ w, b.find? k = some w ∧ Json.same v w = true := by
  have hr := h k
  rw [hv] at hr
  generalize b.find? k = found at hr
  cases hr with
  | some hvw => exact ⟨_, rfl, hvw⟩

theorem Alike.exists_of_find?_right
    {a b : Object} (h : a.Alike b)
    {k : String} {w : Json}
    (hw : b.find? k = some w) :
    ∃ v, a.find? k = some v ∧ Json.same v w = true := by
  have hr := h k
  rw [hw] at hr
  generalize a.find? k = found at hr
  cases hr with
  | some hvw => exact ⟨_, rfl, hvw⟩

theorem Alike.find?_eq_none
    {a b : Object} (h : a.Alike b)
    {k : String}
    (hv : a.find? k = none) :
    b.find? k = none := by
  have hr := h k
  rw [hv] at hr
  generalize b.find? k = found at hr ⊢
  cases hr
  rfl

end Object

namespace Json

/-- Objects with distinct keys are the same if they hold the same under every key. -/
theorem same_object_iff_alike
    {a b : Object}
    (ha : a.keys.Nodup)
    (hb : b.keys.Nodup) :
    same (.object a) (.object b) = true ↔ a.Alike b := by
  rw [same_object_iff]
  exact (Object.rel_find?_iff (fun v w => same v w = true) ha hb).symm

end Json

/-! Exact equality is an equivalence. -/

namespace Number

theorem same_refl (m : Number) : m.same m = true := by
  cases m <;> simp [same]

theorem same_symm
    {m n : Number}
    (h : m.same n = true) :
    n.same m = true := by
  cases m <;> cases n <;> simp_all [same]

theorem same_trans
    {l m n : Number}
    (h₁ : l.same m = true)
    (h₂ : m.same n = true) :
    l.same n = true := by
  cases l <;> cases m <;> cases n <;> simp_all [same]

end Number

namespace Json

theorem same_refl
    {v : Json} (hv : KeysDistinct v) :
    same v v = true := by
  induction v using Json.induction with
  | null => simp [same]
  | bool b => simp [same]
  | number n => simp [same, Number.same_refl]
  | string s => simp [same]
  | array items ih =>
      rw [same_array_iff, List.forall₂_same]
      intro v hv'
      exact ih v hv' (keysDistinct_array_iff.1 hv v hv')
  | object o ih =>
      obtain ⟨hkeys, hvals⟩ := keysDistinct_object_iff.1 hv
      rw [same_object_iff]
      refine ⟨rfl, ?_⟩
      rintro ⟨k, v⟩ he
      exact ⟨v, Object.find?_of_mem hkeys he, ih _ he (hvals _ he)⟩

theorem same_symm
    {v w : Json}
    (hv : KeysDistinct v)
    (hw : KeysDistinct w)
    (h : same v w = true) :
    same w v = true := by
  induction v using Json.induction generalizing w with
  | null => cases w <;> simp_all [same]
  | bool b => cases w <;> simp_all [same]
  | number n =>
      cases w with
      | number m =>
          rw [same] at h ⊢
          exact Number.same_symm h
      | _ => simp [same] at h
  | string s => cases w <;> simp_all [same]
  | array items ih =>
      cases w with
      | array others =>
          rw [same_array_iff] at h ⊢
          rw [keysDistinct_array_iff] at hv hw
          refine List.Forall₂.flip (List.forall₂_iff_get.2 ⟨h.length_eq, ?_⟩)
          intro i hi hi'
          have hget := (List.forall₂_iff_get.1 h).2 i hi hi'
          exact ih _ (List.get_mem _ _) (hv _ (List.get_mem _ _)) (hw _ (List.get_mem _ _)) hget
      | _ => simp [same] at h
  | object a ih =>
      cases w with
      | object b =>
          have ha := (keysDistinct_object_iff.1 hv).1
          have hb := (keysDistinct_object_iff.1 hw).1
          rw [same_object_iff_alike hb ha]
          refine Object.rel_find?_flip ((same_object_iff_alike ha hb).1 h) ?_
          intro k x y hx hy hxy
          exact ih _ (Object.mem_of_find? hx) (keysDistinct_of_find? hv hx)
            (keysDistinct_of_find? hw hy) hxy
      | _ => simp [same] at h

theorem same_trans
    {u v w : Json}
    (hu : KeysDistinct u)
    (hv : KeysDistinct v)
    (hw : KeysDistinct w)
    (huv : same u v = true)
    (hvw : same v w = true) :
    same u w = true := by
  induction u using Json.induction generalizing v w with
  | null => cases v <;> cases w <;> simp_all [same]
  | bool b => cases v <;> cases w <;> simp_all [same]
  | number n =>
      cases v with
      | number m =>
          cases w with
          | number l =>
              rw [same] at huv hvw ⊢
              exact Number.same_trans huv hvw
          | _ => simp [same] at hvw
      | _ => simp [same] at huv
  | string s => cases v <;> cases w <;> simp_all [same]
  | array xs ih =>
      cases v with
      | array ys =>
          cases w with
          | array zs =>
              rw [same_array_iff, List.forall₂_iff_get] at huv hvw ⊢
              rw [keysDistinct_array_iff] at hu hv hw
              refine ⟨huv.1.trans hvw.1, ?_⟩
              intro i hi hi'
              have hj : i < ys.length := huv.1 ▸ hi
              exact ih _ (List.get_mem _ _) (hu _ (List.get_mem _ _)) (hv _ (List.get_mem _ _))
                (hw _ (List.get_mem _ _)) (huv.2 i hi hj) (hvw.2 i hj hi')
          | _ => simp [same] at hvw
      | _ => simp [same] at huv
  | object a ih =>
      cases v with
      | object b =>
          cases w with
          | object c =>
              rw [same_object_iff] at huv hvw ⊢
              refine ⟨huv.1.trans hvw.1, ?_⟩
              intro e he
              obtain ⟨y, hy, hxy⟩ := huv.2 e he
              obtain ⟨z, hz, hyz⟩ := hvw.2 _ (Object.mem_of_find? hy)
              exact ⟨z, hz, ih e he ((keysDistinct_object_iff.1 hu).2 e he)
                (keysDistinct_of_find? hv hy) (keysDistinct_of_find? hw hz) hxy hyz⟩
          | _ => simp [same] at hvw
      | _ => simp [same] at huv

end Json
end Warrant
