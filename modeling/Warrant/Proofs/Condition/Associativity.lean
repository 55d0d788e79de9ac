import Warrant.Proofs.Condition.Merge

/-!
# Merging of three layers

Layers of conditions may be merged in any grouping, unless the middle one replaces an object by
another value and the last one puts an object there again.  From the left, the last object then
stands alone; from the right, it is merged into the first one.  Where no path of keys carries such
values, both groupings give the same, down to the order of keys at every depth.  A layer that is
put on a second time changes nothing at all.

An object with distinct keys is given by its keys in order and by what it holds under each.  The
keys of a merge are those of the first query and behind them the new ones of the second.  What it
holds under a key is followed into the objects there, by induction on the last layer.

**Results.**
* `Object.eq_of_find?`: objects by their keys and what they hold.
* `keys_merge`: the keys of a merge, in order.
* `reinstated_object_iff`: where a last layer puts an object back.
* `overlay_assoc`, `merge_assoc`: the two groupings.
* `overlay_absorb`, `merge_absorb`: a layer that is put on twice.
-/

namespace Warrant

namespace Object

@[simp] theorem keys_nil : keys [] = [] := rfl

@[simp] theorem keys_cons
    (e : String × Json)
    (o : Object) :
    keys (e :: o) = e.1 :: keys o := rfl

/-- Objects with distinct keys are given by their keys in order and by what they hold. -/
theorem eq_of_find?
    {a b : Object} (ha : a.keys.Nodup)
    (hkeys : a.keys = b.keys)
    (hfind : ∀ k, a.find? k = b.find? k) :
    a = b := by
  induction a generalizing b with
  | nil =>
      cases b with
      | nil => rfl
      | cons e b => simp at hkeys
  | cons e a ih =>
      cases b with
      | nil => simp at hkeys
      | cons e' b =>
          obtain ⟨k, v⟩ := e
          obtain ⟨k', w⟩ := e'
          rw [keys_cons, keys_cons, List.cons.injEq] at hkeys
          obtain ⟨rfl, hrest⟩ := hkeys
          rw [keys_cons, List.nodup_cons] at ha
          have hvalue : v = w := by simpa [find?_cons] using hfind k
          rw [hvalue, ih ha.2 hrest]
          intro key
          by_cases hkey : key = k
          · -- the first key does not come again on either side
            rw [hkey, find?_eq_none_iff.2 ha.1, find?_eq_none_iff.2 (hrest ▸ ha.1)]
          · have hother := hfind key
            rwa [find?_cons, find?_cons, if_neg hkey, if_neg hkey] at hother

end Object

/-! Values at the end of paths of keys. -/

namespace Json

/-- The value at the end of a path of keys. -/
def atPath? : Json → List String → Option Json
  | v, [] => some v
  | .object entries, k :: path => (Object.find? entries k).bind (atPath? · path)
  | _, _ :: _ => none

/-- The path leads to an object. -/
def CarriesObject (v : Json) (path : List String) : Prop :=
  ∃ w, v.atPath? path = some w ∧ w.isObject = true

/-- The path leads to a value that is no object. -/
def CarriesPlain (v : Json) (path : List String) : Prop :=
  ∃ w, v.atPath? path = some w ∧ w.isObject = false

variable {v : Json} {o : Object} {k : String} {path : List String}

theorem isObject_iff : v.isObject = true ↔ ∃ o, v = .object o := by
  cases v <;> simp [isObject, asObject?]

theorem isObject_eq_false_iff : v.isObject = false ↔ ∀ o, v ≠ .object o := by
  cases v <;> simp [isObject, asObject?]

theorem carriesObject_cons_iff :
    CarriesObject (.object o) (k :: path) ↔ ∃ w, o.find? k = some w ∧ w.CarriesObject path := by
  simp only [CarriesObject, atPath?, Option.bind_eq_some_iff]
  tauto

theorem carriesPlain_cons_iff :
    CarriesPlain (.object o) (k :: path) ↔ ∃ w, o.find? k = some w ∧ w.CarriesPlain path := by
  simp only [CarriesPlain, atPath?, Option.bind_eq_some_iff]
  tauto

end Json

namespace Condition

/-- The last value has an object where the middle one replaces an object of the first one. -/
def Reinstated (first middle last : Json) : Prop :=
  ∃ path, first.CarriesObject path ∧ middle.CarriesPlain path ∧ last.CarriesObject path

/-- A last layer puts an object back under one of its keys. -/
theorem reinstated_object_iff
    {a b c : Object} :
    Reinstated (.object a) (.object b) (.object c) ↔
      ∃ k x y z, a.find? k = some x ∧ b.find? k = some y ∧ c.find? k = some z ∧
        Reinstated x y z := by
  constructor
  · rintro ⟨path, ha, hb, hc⟩
    cases path with
    | nil =>
        obtain ⟨w, ⟨⟩, hw⟩ := hb
        simp [Json.isObject, Json.asObject?] at hw
    | cons k path =>
        obtain ⟨x, hx, hax⟩ := Json.carriesObject_cons_iff.1 ha
        obtain ⟨y, hy, hby⟩ := Json.carriesPlain_cons_iff.1 hb
        obtain ⟨z, hz, hcz⟩ := Json.carriesObject_cons_iff.1 hc
        exact ⟨k, x, y, z, hx, hy, hz, path, hax, hby, hcz⟩
  · rintro ⟨k, x, y, z, hx, hy, hz, path, hax, hby, hcz⟩
    exact ⟨k :: path, Json.carriesObject_cons_iff.2 ⟨x, hx, hax⟩,
      Json.carriesPlain_cons_iff.2 ⟨y, hy, hby⟩, Json.carriesObject_cons_iff.2 ⟨z, hz, hcz⟩⟩

/-! What a merge holds, in order. -/

theorem keys_merge
    {layer : Object} (hl : layer.keys.Nodup)
    (base : Object) :
    (merge base layer).keys = base.keys ++ layer.keys.filter (· ∉ base.keys) := by
  induction layer generalizing base with
  | nil => simp
  | cons e layer ih =>
      obtain ⟨k, v⟩ := e
      rw [Object.keys_cons, List.nodup_cons] at hl
      rw [merge_cons, ih hl.2, Object.keys_insert, Object.keys_cons]
      by_cases hk : k ∈ base.keys
      · rw [if_pos hk, List.filter_cons_of_neg (by simpa using hk)]
      · rw [if_neg hk, List.filter_cons_of_pos (by simpa using hk), List.append_assoc,
          List.singleton_append]
        congr 2
        refine List.filter_congr fun key hkey => ?_
        have hne : key ≠ k := fun h => hl.1 (h ▸ hkey)
        simp [hne]

theorem nil_merge
    {layer : Object} (hl : layer.keys.Nodup) :
    merge [] layer = layer := by
  refine Object.eq_of_find? (nodup_keys_merge (by simp) layer) ?_ ?_
  · simp [keys_merge hl]
  · intro k
    rw [find?_merge hl]
    cases layer.find? k with
    | none => rfl
    | some v => cases v <;> rfl

/-- The object that a layer is merged into where a value stood. -/
def ground : Option Json → Object
  | some (.object base) => base
  | _ => []

theorem keysDistinct_ground
    {old : Option Json}
    (hold : ∀ w, old = some w → w.KeysDistinct) :
    (Json.object (ground old)).KeysDistinct := by
  unfold ground
  split
  · exact hold _ rfl
  · simp [Json.keysDistinct_object_iff]

/-- An object is merged into the object that stood there, or else into the empty one. -/
theorem overlay_object_eq
    (old : Option Json)
    {entries : Object} (hentries : entries.keys.Nodup) :
    overlay old (.object entries) = .object (merge (ground old) entries) := by
  unfold ground
  split
  · rfl
  next hold =>
    rw [nil_merge hentries, overlay_eq]
    rintro base _ rfl
    exact absurd rfl (hold base)

@[simp] theorem overlay_none (v : Json) : overlay none v = v := by
  cases v <;> rfl

/-! The two groupings of three layers. -/

theorem merge_assoc_of_values
    {a b c : Object}
    (ha : a.keys.Nodup)
    (hb : b.keys.Nodup)
    (hc : c.keys.Nodup)
    (hvalues : ∀ k y z, b.find? k = some y → c.find? k = some z →
      overlay (some (overlay (a.find? k) y)) z = overlay (a.find? k) (overlay (some y) z)) :
    merge (merge a b) c = merge a (merge b c) := by
  have hbc := nodup_keys_merge hb c
  refine Object.eq_of_find? (nodup_keys_merge (nodup_keys_merge ha b) c) ?_ ?_
  · rw [keys_merge hc, keys_merge hb, keys_merge hbc, keys_merge hc, List.filter_append,
      List.filter_filter, List.append_assoc]
    congr 2
    refine List.filter_congr fun k _ => ?_
    simp only [List.mem_append, List.mem_filter]
    by_cases hk : k ∈ a.keys <;> simp [hk]
  · intro k
    rw [find?_merge hc, find?_merge hb, find?_merge hbc, find?_merge hc]
    cases hz : c.find? k with
    | none => rfl
    | some z =>
        cases hy : b.find? k with
        | none => simp
        | some y => simp [hvalues k y z hy hz]

/-- Where a layer finds something to be merged with, an object stood. -/
theorem eq_some_ground
    {old : Option Json} {k : String} {v : Json}
    (h : (ground old).find? k = some v) :
    old = some (.object (ground old)) := by
  unfold ground at h ⊢
  split at h
  · rfl
  · simp at h

/-- Three values stand over one another alike in both groupings. -/
theorem overlay_assoc
    {x : Option Json} {y z : Json}
    (hx : ∀ w, x = some w → w.KeysDistinct)
    (hy : y.KeysDistinct)
    (hz : z.KeysDistinct)
    (hfree : ∀ w, x = some w → ¬ Reinstated w y z) :
    overlay (some (overlay x y)) z = overlay x (overlay (some y) z) := by
  induction z using Json.induction generalizing x y with
  | object zs ih =>
      cases hobject : y.isObject with
      | true =>
          obtain ⟨ys, rfl⟩ := Json.isObject_iff.1 hobject
          have hground := keysDistinct_ground hx
          have hxkeys := (Json.keysDistinct_object_iff.1 hground).1
          have hykeys := (Json.keysDistinct_object_iff.1 hy).1
          have hzkeys := (Json.keysDistinct_object_iff.1 hz).1
          rw [overlay_object_eq x hykeys, overlay_object, overlay_object,
            overlay_object_eq x (nodup_keys_merge hykeys zs),
            merge_assoc_of_values hxkeys hykeys hzkeys]
          intro k v w hv hw
          refine ih _ (Object.mem_of_find? hw) ?_ ?_ ?_ ?_
          · exact fun u hu => Json.keysDistinct_of_find? hground hu
          · exact Json.keysDistinct_of_find? hy hv
          · exact Json.keysDistinct_of_find? hz hw
          · intro u hu hback
            exact hfree _ (eq_some_ground hu)
              (reinstated_object_iff.2 ⟨k, u, v, w, hu, hv, hw, hback⟩)
      | false =>
          have hplain := Json.isObject_eq_false_iff.1 hobject
          rw [overlay_of_not_object hplain, overlay_eq fun _ entries _ => hplain entries,
            overlay_of_not_object hplain, overlay_eq]
          rintro base _ rfl -
          -- the last layer would put an object back in place of `base`
          exact hfree _ rfl ⟨[], ⟨_, rfl, rfl⟩, ⟨y, rfl, hobject⟩, ⟨_, rfl, rfl⟩⟩
  | _ => rfl

/-- Without an object that is put back, layers may be merged in any grouping. -/
theorem merge_assoc
    {a b c : Object}
    (ha : (Json.object a).KeysDistinct)
    (hb : (Json.object b).KeysDistinct)
    (hc : (Json.object c).KeysDistinct)
    (hfree : ¬ Reinstated (.object a) (.object b) (.object c)) :
    merge (merge a b) c = merge a (merge b c) := by
  refine merge_assoc_of_values (Json.keysDistinct_object_iff.1 ha).1
    (Json.keysDistinct_object_iff.1 hb).1 (Json.keysDistinct_object_iff.1 hc).1 ?_
  intro k y z hy hz
  refine overlay_assoc ?_ (Json.keysDistinct_of_find? hb hy) (Json.keysDistinct_of_find? hc hz) ?_
  · exact fun x hx => Json.keysDistinct_of_find? ha hx
  · intro x hx hback
    exact hfree (reinstated_object_iff.2 ⟨k, x, y, z, hx, hy, hz, hback⟩)

/-! A layer that is put on twice. -/

theorem merge_absorb_of_values
    {a b : Object}
    (ha : a.keys.Nodup)
    (hb : b.keys.Nodup)
    (hvalues : ∀ k y, b.find? k = some y →
      overlay (some (overlay (a.find? k) y)) y = overlay (a.find? k) y) :
    merge (merge a b) b = merge a b := by
  have hab := nodup_keys_merge ha b
  refine Object.eq_of_find? (nodup_keys_merge hab b) ?_ ?_
  · rw [keys_merge hb, List.append_right_eq_self, List.filter_eq_nil_iff, keys_merge hb]
    intro k hk
    by_cases hmem : k ∈ a.keys <;> simp [hk, hmem]
  · intro k
    rw [find?_merge hb, find?_merge hb]
    cases hy : b.find? k with
    | none => rfl
    | some y => simp [hvalues k y hy]

theorem overlay_absorb
    {x : Option Json} {y : Json}
    (hx : ∀ w, x = some w → w.KeysDistinct)
    (hy : y.KeysDistinct) :
    overlay (some (overlay x y)) y = overlay x y := by
  induction y using Json.induction generalizing x with
  | object ys ih =>
      have hground := keysDistinct_ground hx
      have hykeys := (Json.keysDistinct_object_iff.1 hy).1
      rw [overlay_object_eq x hykeys, overlay_object,
        merge_absorb_of_values (Json.keysDistinct_object_iff.1 hground).1 hykeys]
      intro k v hv
      refine ih _ (Object.mem_of_find? hv) ?_ (Json.keysDistinct_of_find? hy hv)
      exact fun u hu => Json.keysDistinct_of_find? hground hu
  | _ => rfl

theorem merge_absorb
    {a b : Object}
    (ha : (Json.object a).KeysDistinct)
    (hb : (Json.object b).KeysDistinct) :
    merge (merge a b) b = merge a b := by
  refine merge_absorb_of_values (Json.keysDistinct_object_iff.1 ha).1
    (Json.keysDistinct_object_iff.1 hb).1 ?_
  intro k y hy
  refine overlay_absorb ?_ (Json.keysDistinct_of_find? hb hy)
  exact fun x hx => Json.keysDistinct_of_find? ha hx

/-- **Layers may be merged in any grouping, and a layer only counts once.**  The grouping does not
matter if no path of keys leads to an object in the first layer, to another value in the middle
one and to an object in the last one. -/
theorem merge_grouped_and_repeated :
    (∀ a b c : Object,
      (Json.object a).KeysDistinct → (Json.object b).KeysDistinct → (Json.object c).KeysDistinct →
        ¬ Reinstated (.object a) (.object b) (.object c) →
          merge (merge a b) c = merge a (merge b c)) ∧
      ∀ a b : Object, (Json.object a).KeysDistinct → (Json.object b).KeysDistinct →
        merge (merge a b) b = merge a b :=
  ⟨fun _ _ _ => merge_assoc, fun _ _ => merge_absorb⟩

/-- A window of hours. -/
def officeHours : Object :=
  [("hours", .object [("from", .ofNat 8), ("to", .ofNat 18)])]

/-- One owner, and later hours in no zone. -/
def ownerHours : Object :=
  [("owner", .string "u1"), ("hours", .object [("to", .ofNat 20), ("zone", .null)])]

/-- A team, and hours in a zone. -/
def zonedHours : Object :=
  [("team", .object []), ("hours", .object [("zone", .object [("utc", .bool true)])])]

/-- The zone is an object in the last layer only, so nothing is put back. -/
theorem merge_grouped_and_repeated_hours :
    ¬ Reinstated (.object officeHours) (.object ownerHours) (.object zonedHours) ∧
      merge (merge officeHours ownerHours) zonedHours =
        merge officeHours (merge ownerHours zonedHours) ∧
      merge (merge officeHours ownerHours) ownerHours = merge officeHours ownerHours := by
  have hoffice : (Json.object officeHours).KeysDistinct := by
    simp [officeHours, Json.KeysDistinct, Json.EntriesDistinct, Json.ofNat]
  have howner : (Json.object ownerHours).KeysDistinct := by
    simp [ownerHours, Json.KeysDistinct, Json.EntriesDistinct, Json.ofNat]
  have hzoned : (Json.object zonedHours).KeysDistinct := by
    simp [zonedHours, Json.KeysDistinct, Json.EntriesDistinct]
  have hfree : ¬ Reinstated (.object officeHours) (.object ownerHours) (.object zonedHours) := by
    simp only [reinstated_object_iff, officeHours, ownerHours, zonedHours, Object.find?_cons]
    rintro ⟨k, x, y, z, hx, hy, hz, hback⟩
    by_cases hk : k = "hours"
    · subst hk
      simp at hx hy hz
      subst hx hy hz
      -- no key is in the hours of all three layers
      obtain ⟨k, x, y, z, hx, -, hz, -⟩ := reinstated_object_iff.1 hback
      simp [Object.find?_cons] at hx hz
      obtain ⟨rfl, -⟩ := hz
      simp at hx
    · simp [hk] at hx
  exact ⟨hfree, merge_grouped_and_repeated.1 _ _ _ hoffice howner hzoned hfree,
    merge_grouped_and_repeated.2 _ _ hoffice howner⟩

/-- Where an object is put back, the grouping matters. -/
example :
    merge (merge [("owner", .object [("a", .null)])] [("owner", .null)])
        [("owner", .object [("b", .null)])] = [("owner", .object [("b", .null)])] ∧
      merge [("owner", .object [("a", .null)])]
        (merge [("owner", .null)] [("owner", .object [("b", .null)])]) =
          [("owner", .object [("a", .null), ("b", .null)])] :=
  ⟨rfl, rfl⟩

end Condition
end Warrant
