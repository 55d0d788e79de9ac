import Warrant.Condition.Merge
import Warrant.Proofs.Json.Sameness

/-!
# Merging of condition queries, key by key

Under a key of the second query a merge holds what that query puts over the first one, and under
every other key what the first query holds.  So a merge depends on its two queries only up to the
order of their keys.

**Results.**
* `find?_merge`: what a merge holds under a key.
* `keysDistinct_merge`: merging makes no key occur twice.
* `same_merge`: queries that are the same merge to queries that are the same.
-/

namespace Warrant

namespace Condition

theorem find?_merge
    {layer : Object} (hl : layer.keys.Nodup)
    (base : Object) (k : String) :
    (merge base layer).find? k =
      match layer.find? k with
      | some v => some (overlay (base.find? k) v)
      | none => base.find? k := by
  induction layer generalizing base with
  | nil => simp
  | cons e layer ih =>
      obtain ⟨k', v⟩ := e
      simp only [Object.keys, List.map_cons, List.nodup_cons] at hl
      rw [merge_cons, ih hl.2, Object.find?_insert, Object.find?_cons]
      by_cases hk : k = k'
      · subst hk
        -- the key does not come again in the rest of the layer
        rw [Object.find?_eq_none_iff.2 hl.1]
        simp
      · rw [if_neg hk, if_neg hk]

theorem nodup_keys_merge
    {base : Object} (hb : base.keys.Nodup)
    (layer : Object) :
    (merge base layer).keys.Nodup := by
  induction layer generalizing base with
  | nil => rwa [merge_nil]
  | cons e layer ih =>
      obtain ⟨k, v⟩ := e
      rw [merge_cons]
      exact ih (Object.nodup_keys_insert hb _ _)

/-- What is put over nothing, or over a value that is no object, stays as it is. -/
theorem overlay_eq
    {old : Option Json} {v : Json}
    (h : ∀ base entries, old = some (.object base) → v ≠ .object entries) :
    overlay old v = v := by
  cases v with
  | object entries =>
      cases old with
      | none => rfl
      | some w =>
          cases w with
          | object base => exact absurd rfl (h base entries rfl)
          | _ => rfl
  | _ => rfl

theorem overlay_object
    (base entries : Object) :
    overlay (some (.object base)) (.object entries) = .object (merge base entries) := rfl

/-! No key occurs twice. -/

theorem keysDistinct_overlay
    {old : Option Json} {v : Json}
    (hold : ∀ w, old = some w → w.KeysDistinct)
    (hv : v.KeysDistinct) :
    (overlay old v).KeysDistinct := by
  induction v using Json.induction generalizing old with
  | object entries ih =>
      by_cases h : ∃ base, old = some (.object base)
      · obtain ⟨base, rfl⟩ := h
        obtain ⟨hbase, hbase'⟩ := Json.keysDistinct_object_iff.1 (hold _ rfl)
        obtain ⟨hentries, hentries'⟩ := Json.keysDistinct_object_iff.1 hv
        have hmerge := nodup_keys_merge hbase entries
        rw [overlay_object, Json.keysDistinct_object_iff]
        refine ⟨hmerge, ?_⟩
        rintro ⟨k, w⟩ hw
        have hfind := Object.find?_of_mem hmerge hw
        rw [find?_merge hentries] at hfind
        cases hk : Object.find? entries k with
        | none =>
            rw [hk] at hfind
            exact hbase' _ (Object.mem_of_find? hfind)
        | some v =>
            rw [hk] at hfind
            obtain rfl := Option.some.inj hfind
            have hmem := Object.mem_of_find? hk
            refine ih _ hmem ?_ (hentries' _ hmem)
            intro u hu
            exact hbase' _ (Object.mem_of_find? hu)
      · rw [overlay_eq]
        · exact hv
        · intro base _ hbase
          exact absurd ⟨base, hbase⟩ h
  | _ => exact hv

theorem keysDistinct_merge
    {base layer : Object}
    (hb : (Json.object base).KeysDistinct)
    (hl : (Json.object layer).KeysDistinct) :
    (Json.object (merge base layer)).KeysDistinct := by
  rw [← overlay_object]
  refine keysDistinct_overlay ?_ hl
  rintro w ⟨⟩
  exact hb

/-! Merging does not see the order of keys. -/

/-- Objects that are the same stay so under layers that are the same, if the values that the
layers put over their own do. -/
theorem same_merge_of_values
    {base base' layer layer' : Object}
    (hb : (Json.object base).KeysDistinct)
    (hb' : (Json.object base').KeysDistinct)
    (hl : (Json.object layer).KeysDistinct)
    (hl' : (Json.object layer').KeysDistinct)
    (hbase : (Json.object base).same (.object base') = true)
    (hlayer : (Json.object layer).same (.object layer') = true)
    (hvalues : ∀ k x y, layer.find? k = some x → layer'.find? k = some y → x.same y = true →
      Option.Rel (fun v w => Json.same v w = true) (base.find? k) (base'.find? k) →
        (overlay (base.find? k) x).same (overlay (base'.find? k) y) = true) :
    (Json.object (merge base layer)).same (.object (merge base' layer')) = true := by
  obtain ⟨hbkeys, -⟩ := Json.keysDistinct_object_iff.1 hb
  obtain ⟨hbkeys', -⟩ := Json.keysDistinct_object_iff.1 hb'
  obtain ⟨hlkeys, -⟩ := Json.keysDistinct_object_iff.1 hl
  obtain ⟨hlkeys', -⟩ := Json.keysDistinct_object_iff.1 hl'
  obtain ⟨hmkeys, -⟩ := Json.keysDistinct_object_iff.1 (keysDistinct_merge hb hl)
  obtain ⟨hmkeys', -⟩ := Json.keysDistinct_object_iff.1 (keysDistinct_merge hb' hl')
  have hbases := (Json.same_object_iff_alike hbkeys hbkeys').1 hbase
  have hlayers := (Json.same_object_iff_alike hlkeys hlkeys').1 hlayer
  rw [Json.same_object_iff_alike hmkeys hmkeys']
  intro k
  rw [find?_merge hlkeys, find?_merge hlkeys']
  cases hx : layer.find? k with
  | none =>
      rw [hlayers.find?_eq_none hx]
      exact hbases k
  | some x =>
      obtain ⟨y, hy, hxy⟩ := hlayers.exists_of_find? hx
      rw [hy]
      exact Option.Rel.some (hvalues k x y hx hy hxy (hbases k))

/-- Over a value that is no object a value stands as it is. -/
theorem overlay_of_not_object
    {w : Json}
    (hw : ∀ base, w ≠ .object base)
    (v : Json) :
    overlay (some w) v = v := by
  refine overlay_eq ?_
  rintro base _ ⟨⟩
  exact absurd rfl (hw base)

theorem same_overlay
    {old old' : Option Json} {v v' : Json}
    (hold : ∀ w, old = some w → w.KeysDistinct)
    (hold' : ∀ w, old' = some w → w.KeysDistinct)
    (hv : v.KeysDistinct)
    (hv' : v'.KeysDistinct)
    (hrel : Option.Rel (fun v w => Json.same v w = true) old old')
    (hsame : Json.same v v' = true) :
    Json.same (overlay old v) (overlay old' v') = true := by
  induction v using Json.induction generalizing old old' v' with
  | object entries ih =>
      cases v' with
      | object entries' =>
          cases hrel with
          | none => exact hsame
          | @some w w' hw =>
              by_cases h : ∃ base, w = .object base
              · obtain ⟨base, rfl⟩ := h
                cases w' with
                | object base' =>
                    have hb := hold _ rfl
                    have hb' := hold' _ rfl
                    rw [overlay_object, overlay_object]
                    refine same_merge_of_values hb hb' hv hv' hw hsame ?_
                    intro k x y hx hy hxy hunder
                    refine ih _ (Object.mem_of_find? hx) ?_ ?_ ?_ ?_ hunder hxy
                    · exact fun u hu => Json.keysDistinct_of_find? hb hu
                    · exact fun u hu => Json.keysDistinct_of_find? hb' hu
                    · exact Json.keysDistinct_of_find? hv hx
                    · exact Json.keysDistinct_of_find? hv' hy
                | _ => simp [Json.same] at hw
              · have hplain : ∀ base, w ≠ .object base := fun base hbase => h ⟨base, hbase⟩
                have hplain' : ∀ base, w' ≠ .object base := by
                  rintro base rfl
                  cases w with
                  | object base => exact h ⟨base, rfl⟩
                  | _ => simp [Json.same] at hw
                rw [overlay_of_not_object hplain, overlay_of_not_object hplain']
                exact hsame
      | _ => simp [Json.same] at hsame
  | _ =>
      have hkeep : overlay old' v' = v' := by
        refine overlay_eq ?_
        rintro base entries - rfl
        simp [Json.same] at hsame
      rw [hkeep, overlay_eq]
      · exact hsame
      · rintro base entries - ⟨⟩

theorem same_merge
    {base base' layer layer' : Object}
    (hb : (Json.object base).KeysDistinct)
    (hb' : (Json.object base').KeysDistinct)
    (hl : (Json.object layer).KeysDistinct)
    (hl' : (Json.object layer').KeysDistinct)
    (hbase : base.same base' = true)
    (hlayer : layer.same layer' = true) :
    (merge base layer).same (merge base' layer') = true := by
  rw [Object.same, ← overlay_object, ← overlay_object]
  refine same_overlay ?_ ?_ hl hl' (Option.Rel.some hbase) hlayer
  · rintro w ⟨⟩
    exact hb
  · rintro w ⟨⟩
    exact hb'

end Condition
end Warrant
