import Warrant.Permission.Decode
import Warrant.Proofs.Transform.Leaves

/-!
# Decoded items hold no key twice

A data value that comes straight from a text may hold a key twice.  Conditions are settled when
they are decoded, by inserting their entries one after the other, so whatever item a value
describes, no conditions within it hold a key twice.

**Results.**
* `keysDistinct_settle`: a settled value holds no key twice.
* `settle_of_keysDistinct`: a value that holds no key twice is settled.
* `keysDistinct_ofArray`, `keysDistinct_ofObject`: a decoded permission holds no key twice.
* `keysDistinct_ofJson`, `keysDistinct_ofJsonList`: neither does a decoded item or list of items.
-/

namespace Warrant

/-! Settled values. -/

theorem Object.foldl_insert_of_nodup
    {entries before : Object}
    (h : (Object.keys (before ++ entries)).Nodup) :
    entries.foldl (fun o e => o.insert e.1 e.2) before = before ++ entries := by
  induction entries generalizing before with
  | nil => simp
  | cons e entries ih =>
      have hnew := Object.not_mem_keys_of_nodup h
      have hsplit : before ++ e :: entries = before.insert e.1 e.2 ++ entries := by
        rw [Object.insert_of_not_mem hnew e.2, List.append_assoc]
        rfl
      rw [hsplit] at h ⊢
      exact ih h

theorem Object.ofEntries_of_nodup
    {entries : Object}
    (h : entries.keys.Nodup) :
    Object.ofEntries entries = entries :=
  Object.foldl_insert_of_nodup h

namespace Json

theorem settleItems_eq_map (items : List Json) : settleItems items = items.map settle := by
  induction items with
  | nil => rfl
  | cons v items ih => rw [settleItems, ih, List.map_cons]

theorem settleEntries_eq_map
    (entries : Object) :
    settleEntries entries = entries.map fun e => (e.1, e.2.settle) := by
  induction entries with
  | nil => rfl
  | cons e entries ih =>
      obtain ⟨k, v⟩ := e
      rw [settleEntries, ih, List.map_cons]

theorem keysDistinct_foldl_insert
    {entries o : Object}
    (ho : (Json.object o).KeysDistinct)
    (hentries : ∀ e ∈ entries, e.2.KeysDistinct) :
    (Json.object (entries.foldl (fun o e => Object.insert o e.1 e.2) o)).KeysDistinct := by
  induction entries generalizing o with
  | nil => exact ho
  | cons e entries ih =>
      rw [List.foldl_cons]
      have he := hentries e List.mem_cons_self
      exact ih (keysDistinct_insert ho he e.1) fun f hf => hentries f (List.mem_cons_of_mem e hf)

/-- A settled value holds no key twice. -/
theorem keysDistinct_settle (v : Json) : v.settle.KeysDistinct := by
  induction v using Json.induction with
  | null => trivial
  | bool b => trivial
  | number n => trivial
  | string s => trivial
  | array items ih =>
      rw [settle, settleItems_eq_map, keysDistinct_array_iff]
      intro w hw
      obtain ⟨v, hv, rfl⟩ := List.mem_map.1 hw
      exact ih v hv
  | object entries ih =>
      rw [settle, settleEntries_eq_map]
      have hempty : (Json.object []).KeysDistinct :=
        keysDistinct_object_iff.2 ⟨List.nodup_nil, by simp⟩
      apply keysDistinct_foldl_insert hempty
      intro f hf
      obtain ⟨e, he, rfl⟩ := List.mem_map.1 hf
      exact ih e he

/-- A value in which no object has a key twice is settled. -/
theorem settle_of_keysDistinct
    {v : Json}
    (h : v.KeysDistinct) :
    v.settle = v := by
  induction v using Json.induction with
  | null => rfl
  | bool b => rfl
  | number n => rfl
  | string s => rfl
  | array items ih =>
      have hitems : items.map settle = items.map id :=
        List.map_congr_left fun v hv => ih v hv (keysDistinct_array_iff.1 h v hv)
      rw [settle, settleItems_eq_map, hitems, List.map_id]
  | object entries ih =>
      obtain ⟨hkeys, hvalues⟩ := keysDistinct_object_iff.1 h
      have hentries : entries.map (fun e => (e.1, e.2.settle)) = entries.map id :=
        List.map_congr_left fun e he => by rw [ih e he (hvalues e he), id]
      rw [settle, settleEntries_eq_map, hentries, List.map_id, Object.ofEntries_of_nodup hkeys]

end Json

/-! Fields. -/

section Fields

variable {α : Type} {decode : Json → Except DecodeError α}

theorem Json.decodeOptional_eq_ok
    {v : Json} {content : Option α}
    (h : v.decodeOptional decode = .ok content) :
    ∀ a ∈ content, decode v = .ok a := by
  intro a ha
  rw [Option.mem_def] at ha
  subst ha
  unfold decodeOptional at h
  split at h
  · cases h
  · cases hdecode : decode v with
    | error e =>
        rw [hdecode] at h
        cases h
    | ok b =>
        rw [hdecode] at h
        cases h
        rfl

theorem fillField_eq_ok
    {name : String}
    {slot filled : Option α}
    {decoded : Except DecodeError α}
    (h : fillField name slot decoded = .ok filled) :
    ∃ a, filled = some a ∧ decoded = .ok a := by
  cases slot with
  | some a => cases h
  | none =>
      cases decoded with
      | error e => cases h
      | ok a =>
          cases h
          exact ⟨a, rfl, rfl⟩

end Fields

namespace Permission

theorem keysDistinct_decodeConditions
    {v : Json} {query : Object}
    (h : decodeConditions v = .ok query) :
    (Json.object query).KeysDistinct := by
  have hsettled := v.keysDistinct_settle
  unfold decodeConditions at h
  split at h
  next settled hv =>
    cases h
    rwa [hv] at hsettled
  next => cases h

theorem conditionsDistinct_decodeOptional
    {v : Json} {conditions : Option Object}
    (h : v.decodeOptional decodeConditions = .ok conditions) :
    ConditionsDistinct conditions := by
  intro query hquery
  exact keysDistinct_decodeConditions (Json.decodeOptional_eq_ok h query hquery)

/-- No conditions that were found hold a key twice. -/
def Fields.Distinct (f : Fields) : Prop :=
  ∀ conditions, f.conditions = some conditions → ConditionsDistinct conditions

theorem Fields.distinct_add
    {f f' : Fields} {name : String} {v : Json}
    (hf : f.Distinct)
    (h : f.add name v = .ok f') :
    f'.Distinct := by
  unfold add at h
  split at h
  · obtain ⟨slot, -, hslot⟩ := exists_of_bind_eq_ok h
    cases hslot
    exact hf
  · split at h
    · obtain ⟨slot, -, hslot⟩ := exists_of_bind_eq_ok h
      cases hslot
      exact hf
    · split at h
      · obtain ⟨slot, -, hslot⟩ := exists_of_bind_eq_ok h
        cases hslot
        exact hf
      · split at h
        · obtain ⟨slot, hfill, hslot⟩ := exists_of_bind_eq_ok h
          cases hslot
          obtain ⟨conditions, rfl, hdecoded⟩ := fillField_eq_ok hfill
          rintro _ ⟨⟩
          exact conditionsDistinct_decodeOptional hdecoded
        · split at h
          · obtain ⟨slot, -, hslot⟩ := exists_of_bind_eq_ok h
            cases hslot
            exact hf
          · cases h
            exact hf

theorem Fields.distinct_foldlM
    {entries : List (String × Json)} {f f' : Fields}
    (hf : f.Distinct)
    (h : entries.foldlM (fun f e => f.add e.1 e.2) f = .ok f') :
    f'.Distinct := by
  induction entries generalizing f with
  | nil =>
      cases h
      exact hf
  | cons e entries ih =>
      rw [List.foldlM_cons] at h
      obtain ⟨next, hadd, hrest⟩ := exists_of_bind_eq_ok h
      exact ih (distinct_add hf hadd) hrest

theorem Fields.distinct_empty : ({} : Fields).Distinct := by
  rintro _ ⟨⟩

theorem Fields.keysDistinct_toPermission
    {f : Fields} {p : Permission}
    (hf : f.Distinct)
    (h : f.toPermission = .ok p) :
    p.KeysDistinct := by
  unfold toPermission at h
  obtain ⟨subjects, -, h⟩ := exists_of_bind_eq_ok h
  obtain ⟨actions, -, h⟩ := exists_of_bind_eq_ok h
  cases h
  rw [KeysDistinct]
  cases hconditions : f.conditions with
  | none => exact conditionsDistinct_none
  | some conditions => exact hf conditions hconditions

/-- The conditions of a permission that is decoded from an object hold no key twice. -/
theorem keysDistinct_ofObject
    {o : Object} {p : Permission}
    (h : ofObject o = .ok p) :
    p.KeysDistinct := by
  obtain ⟨f, hfields, hpermission⟩ := exists_of_bind_eq_ok h
  exact Fields.keysDistinct_toPermission (Fields.distinct_foldlM Fields.distinct_empty hfields)
    hpermission

/-- The conditions of a permission that is decoded from a list of fields hold no key twice. -/
theorem keysDistinct_ofArray
    {items : List Json} {p : Permission}
    (h : ofArray items = .ok p) :
    p.KeysDistinct := by
  obtain ⟨f, hfields, hrest⟩ := exists_of_bind_eq_ok h
  refine Fields.keysDistinct_toPermission
    (Fields.distinct_foldlM Fields.distinct_empty hfields) ?_
  by_cases hshort : items.length < 2
  · rw [if_pos hshort] at hrest
    cases hrest
  · by_cases hlong : 5 < items.length
    · rw [if_neg hshort, if_pos hlong] at hrest
      cases hrest
    · rw [if_neg hshort, if_neg hlong] at hrest
      exact hrest

end Permission

/-! Items. -/

namespace Group

/-- No item and no conditions that were found hold a key twice. -/
structure Fields.Distinct (f : Fields) : Prop where
  members : ∀ members, f.members = some members → ∀ m ∈ members, m.KeysDistinct
  conditions : ∀ conditions, f.conditions = some conditions →
    Permission.ConditionsDistinct conditions

theorem Fields.distinct_empty : ({} : Fields).Distinct := by
  constructor
  · rintro _ ⟨⟩
  · rintro _ ⟨⟩

theorem fill?_eq_some
    {α : Type}
    {slot decoded filled : Option α}
    (h : fill? slot decoded = some filled) :
    filled = decoded := by
  cases slot with
  | some a => cases h
  | none =>
      cases decoded with
      | none => cases h
      | some a =>
          cases h
          rfl

theorem Fields.distinct_add?
    {f f' : Fields} {name : String} {v : Json} {members : Option (List Item)}
    (hf : f.Distinct)
    (hmembers : ∀ ms, members = some ms → ∀ m ∈ ms, m.KeysDistinct)
    (h : f.add? name v members = some f') :
    f'.Distinct := by
  unfold add? at h
  split at h
  · obtain ⟨slot, hfill, rfl⟩ := Option.map_eq_some_iff.1 h
    rw [fill?_eq_some hfill]
    exact ⟨hmembers, hf.conditions⟩
  · split at h
    · obtain ⟨slot, hfill, rfl⟩ := Option.map_eq_some_iff.1 h
      refine ⟨hf.members, ?_⟩
      intro conditions hconditions
      rw [fill?_eq_some hfill] at hconditions
      cases hdecoded : v.decodeOptional Permission.decodeConditions with
      | error e =>
          rw [hdecoded] at hconditions
          cases hconditions
      | ok decoded =>
          rw [hdecoded] at hconditions
          cases hconditions
          exact Permission.conditionsDistinct_decodeOptional hdecoded
    · split at h
      · obtain ⟨slot, -, rfl⟩ := Option.map_eq_some_iff.1 h
        exact ⟨hf.members, hf.conditions⟩
      · cases h
        exact hf

theorem Fields.keysDistinct_toItem?
    {f : Fields} {item : Item}
    (hf : f.Distinct)
    (h : f.toItem? = some item) :
    item.KeysDistinct := by
  obtain ⟨members, hmembers, rfl⟩ := Option.map_eq_some_iff.1 h
  refine Item.KeysDistinct.group _ (hf.members members hmembers) ?_
  cases hconditions : f.conditions with
  | none => exact Permission.conditionsDistinct_none
  | some conditions => exact hf.conditions conditions hconditions

end Group

namespace Item

theorem keysDistinct_leaf_of_toOption
    {decoded : Except DecodeError Permission} {item : Item}
    (hdecoded : ∀ p, decoded = .ok p → p.KeysDistinct)
    (h : decoded.toOption.map Item.leaf = some item) :
    item.KeysDistinct := by
  cases decoded with
  | error e => cases h
  | ok p =>
      cases h
      exact KeysDistinct.leaf (hdecoded p rfl)

mutual

theorem keysDistinct_ofJson? :
    ∀ {v : Json} {item : Item}, ofJson? v = some item → item.KeysDistinct
  | .string s, item, h => by
      rw [ofJson?] at h
      cases h
      exact KeysDistinct.encoded s
  | .array items, item, h => by
      rw [ofJson?] at h
      split at h
      next g hg =>
        cases h
        obtain ⟨f, hf, hitem⟩ := Option.bind_eq_some_iff.1 hg
        have hfields := distinct_listFields Group.Fields.distinct_empty hf
        exact Group.Fields.keysDistinct_toItem? hfields hitem
      next =>
        exact keysDistinct_leaf_of_toOption (fun p hp => Permission.keysDistinct_ofArray hp) h
  | .object entries, item, h => by
      rw [ofJson?] at h
      split at h
      next g hg =>
        cases h
        obtain ⟨f, hf, hitem⟩ := Option.bind_eq_some_iff.1 hg
        have hfields := distinct_objectFields Group.Fields.distinct_empty hf
        exact Group.Fields.keysDistinct_toItem? hfields hitem
      next =>
        exact keysDistinct_leaf_of_toOption (fun p hp => Permission.keysDistinct_ofObject hp) h
  | .null, item, h => by cases h
  | .bool b, item, h => by cases h
  | .number n, item, h => by cases h

theorem keysDistinct_membersOf? :
    ∀ {v : Json} {items : List Item}, membersOf? v = some items → ∀ m ∈ items, m.KeysDistinct
  | .array vs, items, h => by
      rw [membersOf?] at h
      exact keysDistinct_ofItems? h
  | .object _, items, h => by cases h
  | .string _, items, h => by cases h
  | .null, items, h => by cases h
  | .bool b, items, h => by cases h
  | .number n, items, h => by cases h

theorem keysDistinct_ofItems? :
    ∀ {vs : List Json} {items : List Item}, ofItems? vs = some items → ∀ m ∈ items, m.KeysDistinct
  | [], items, h => by
      cases h
      simp
  | v :: vs, items, h => by
      rw [ofItems?] at h
      split at h
      next item rest hv hvs =>
        cases h
        exact List.forall_mem_cons.2 ⟨keysDistinct_ofJson? hv, keysDistinct_ofItems? hvs⟩
      next => cases h

theorem distinct_objectFields :
    ∀ {entries : List (String × Json)} {f f' : Group.Fields}, f.Distinct →
      objectFields f entries = some f' → f'.Distinct
  | [], f, f', hf, h => by
      cases h
      exact hf
  | (name, v) :: entries, f, f', hf, h => by
      rw [objectFields] at h
      split at h
      next next hadd =>
        have hmembers : ∀ ms, membersOf? v = some ms → ∀ m ∈ ms, m.KeysDistinct :=
          fun ms hms => keysDistinct_membersOf? hms
        exact distinct_objectFields (Group.Fields.distinct_add? hf hmembers hadd) h
      next => cases h

theorem distinct_listFields :
    ∀ {names : List String} {vs : List Json} {f f' : Group.Fields}, f.Distinct →
      listFields f names vs = some f' → f'.Distinct
  | _, [], f, f', hf, h => by
      rw [listFields] at h
      cases h
      exact hf
  | [], _ :: _, f, f', hf, h => by
      rw [listFields] at h
      cases h
  | name :: names, v :: vs, f, f', hf, h => by
      rw [listFields] at h
      split at h
      next next hadd =>
        have hmembers : ∀ ms, membersOf? v = some ms → ∀ m ∈ ms, m.KeysDistinct :=
          fun ms hms => keysDistinct_membersOf? hms
        exact distinct_listFields (Group.Fields.distinct_add? hf hmembers hadd) h
      next => cases h

end

/-- No conditions within a decoded item hold a key twice. -/
theorem keysDistinct_ofJson
    {v : Json} {item : Item}
    (h : ofJson v = .ok item) :
    item.KeysDistinct := by
  unfold ofJson at h
  split at h
  next found hfound =>
    cases h
    exact keysDistinct_ofJson? hfound
  next => cases h

/-- No conditions within a decoded list of items hold a key twice. -/
theorem keysDistinct_ofJsonList
    {vs : List Json} {items : List Item}
    (h : ofJsonList vs = .ok items) :
    ∀ item ∈ items, item.KeysDistinct := by
  intro item hitem
  obtain ⟨v, -, hv⟩ := exists_left_of_forall₂ (mapM_eq_ok_iff.1 h) hitem
  exact keysDistinct_ofJson hv

end Item
end Warrant
