import Warrant.Proofs.Condition.WellFormed
import Warrant.Standard

/-!
# Reordering of well-formed queries

The keys of any object in a query, and the queries of any list that is combined, may be put in
another order, at any depth; lists that fields are compared with stay as they are.  Where the
query is well formed, this changes no answer: each step leaves a part that may stand in the place
of the other one, and so does every sequence of steps.

**Results.**
* `exchangeable_object`: objects whose entries may be exchanged may be exchanged.
* `exchangeable_of_reordered`: a reordered part may stand in the place of a well-formed one.
* `matchesQuery_of_wellFormed`: a well-formed query has an answer in every context, and every
  reordering of it has the same answer.
-/

namespace Warrant
namespace Condition

/-- In a role, the second value is the first one with the keys of objects and the queries of
combined lists in another order, at any depth.  The items of all other lists keep their order. -/
inductive Reordered : Role → Json → Json → Prop
  | refl (role : Role) (v : Json) : Reordered role v v
  | trans {role : Role} {u v w : Json} :
      Reordered role u v → Reordered role v w → Reordered role u w
  | keys (role : Role) {a b : Object} : a.Perm b → Reordered role (.object a) (.object b)
  | queries {xs ys : List Json} : xs.Perm ys → Reordered .queries (.array xs) (.array ys)
  | entry {role : Role} {before after : Object} {key : String} {v w : Json} :
      Reordered (role.ofEntry (before ++ (key, v) :: after) (key, v)) v w →
      Reordered role (.object (before ++ (key, v) :: after))
        (.object (before ++ (key, w) :: after))
  | item {role : Role} {before after : List Json} {v w : Json} :
      Reordered role.ofItem v w →
      Reordered role (.array (before ++ v :: after)) (.array (before ++ w :: after))

theorem isOperatorObject_of_keys_perm
    {a b : Object}
    (hkeys : a.keys.Perm b.keys) :
    isOperatorObject b = isOperatorObject a := by
  have hall : ∀ o : Object, isOperatorObject o = (!o.keys.isEmpty && o.keys.all isOperatorKey) := by
    intro o
    simp [isOperatorObject, Object.keys, Function.comp_def]
  rw [hall, hall, hkeys.isEmpty_eq, hkeys.all_eq]

theorem same_of_item
    {before after : List Json} {v w : Json}
    (hdistinct : (Json.array (before ++ v :: after)).KeysDistinct)
    (hsame : v.same w = true) :
    (Json.array (before ++ v :: after)).same (.array (before ++ w :: after)) = true := by
  rw [Json.keysDistinct_array_iff, List.forall_mem_append, List.forall_mem_cons] at hdistinct
  obtain ⟨hbefore, -, hafter⟩ := hdistinct
  have hrefl : ∀ items : List Json, (∀ u ∈ items, u.KeysDistinct) →
      List.Forall₂ (fun v w => v.same w = true) items items := fun _ hitems =>
    List.forall₂_same.2 fun u hu => Json.same_refl (hitems u hu)
  exact Json.same_array_iff.2
    (List.rel_append (hrefl before hbefore) (.cons hsame (hrefl after hafter)))

section Languages

variable [Languages]

/-- Two values say the same in a role. -/
def Role.Agree : Role → Json → Json → Prop
  | .query, v, w => ∀ context, matchesObject v context = matchesObject w context
  | .queries, v, w => ∀ context,
      matchesAll v context = matchesAll w context ∧ matchesAny v context = matchesAny w context
  | .condition, v, w => ∀ actual, matchesField v actual = matchesField w actual
  | .literal, v, w => v.same w = true

/-- The second value may stand in the place of the first one, which stands for something. -/
structure Exchangeable (role : Role) (v w : Json) : Prop where
  keysDistinct : w.KeysDistinct
  wellFormed : wellFormed role w = true
  isOperators : isOperators w = isOperators v
  agree : role.Agree v w

namespace Exchangeable

variable {role : Role} {u v w : Json}

theorem refl
    (hv : v.KeysDistinct)
    (hwf : Condition.wellFormed role v = true) :
    Exchangeable role v v := by
  refine ⟨hv, hwf, rfl, ?_⟩
  cases role with
  | query => exact fun _ => rfl
  | queries => exact fun _ => ⟨rfl, rfl⟩
  | condition => exact fun _ => rfl
  | literal => exact Json.same_refl hv

theorem trans
    (hu : u.KeysDistinct)
    (huv : Exchangeable role u v)
    (hvw : Exchangeable role v w) :
    Exchangeable role u w := by
  refine ⟨hvw.keysDistinct, hvw.wellFormed, hvw.isOperators.trans huv.isOperators, ?_⟩
  have hagree := huv.agree
  have hagree' := hvw.agree
  cases role with
  | query => exact fun context => (hagree context).trans (hagree' context)
  | queries =>
      exact fun context =>
        ⟨(hagree context).1.trans (hagree' context).1, (hagree context).2.trans (hagree' context).2⟩
  | condition => exact fun actual => (hagree actual).trans (hagree' actual)
  | literal => exact Json.same_trans hu huv.keysDistinct hvw.keysDistinct hagree hagree'

end Exchangeable

/-! Entries. -/

theorem matchesEntry_of_exchangeable
    {context : Json}
    {siblings : Object}
    {key : String} {v w : Json}
    (hadmits : Role.query.admits siblings (key, v) = true)
    (hwf : wellFormed (Role.query.ofEntry siblings (key, v)) v = true)
    (h : Exchangeable (Role.query.ofEntry siblings (key, v)) v w) :
    matchesEntry context (key, v) = matchesEntry context (key, w) := by
  have hwf' := h.wellFormed
  have hagree := h.agree
  unfold Role.ofEntry at hwf hwf' hagree
  unfold matchesEntry
  dsimp only at hwf hwf' hagree ⊢
  split
  next hkey =>
    rw [if_pos hkey] at hwf hwf' hagree
    have hcombines : combinesQueries key = true := by simpa [Role.admits, hkey] using hadmits
    rw [applyCombinator_of_wellFormed hcombines hwf, applyCombinator_of_wellFormed hcombines hwf',
      (hagree context).1, (hagree context).2]
  next hkey =>
    rw [if_neg hkey] at hagree
    exact hagree _

section Operators

variable {siblings siblings' : Object} {operator : String} {v w : Json}

/-- Operators whose operand is compared with ask it for nothing else. -/
theorem applyOperator_of_literal
    {operand : Json}
    {actual : Option Json}
    {asField asField' : Option Json → Except QueryError Bool}
    {asQuery asQuery' : Json → Except QueryError Bool}
    (hrole : Role.ofOperand operator operand = .literal) :
    applyOperator operator operand actual siblings asField asQuery =
      applyOperator operator operand actual siblings asField' asQuery' := by
  unfold Role.ofOperand at hrole
  split at hrole
  · cases hrole
  · split at hrole <;> cases hrole
  next hnot helem =>
    unfold applyOperator
    split <;> first | rfl | contradiction

theorem isObject_of_elemMatch
    (hfits : operandFits siblings "$elemMatch" v = true) :
    v.isObject = true := by
  obtain ⟨shape, hop, hshape⟩ := operandFits_iff.1 hfits
  cases shape with
  | element => exact hshape
  | _ => simp [Shape.operators] at hop

theorem exists_object_of_elemMatch
    (hfits : operandFits siblings "$elemMatch" v = true)
    (h : Exchangeable (Role.ofOperand "$elemMatch" v) v w) :
    ∃ query query', v = .object query ∧ w = .object query' ∧
      isOperatorObject query' = isOperatorObject query := by
  have hv := isObject_of_elemMatch hfits
  cases v with
  | object query =>
      have hops := h.isOperators
      have hwf := h.wellFormed
      rw [Role.ofOperand_elemMatch] at hwf
      cases w with
      | object query' => exact ⟨query, query', rfl, rfl, hops⟩
      | _ =>
          -- what is neither an object of operators nor a query stands in no such place
          have hnone : isOperatorObject query = false := hops.symm
          simp [hnone, wellFormed] at hwf
  | _ => simp [Json.isObject, Json.asObject?] at hv

/-- Values that are the same have the same shapes. -/
theorem Shape.fits_congr
    (shape : Shape)
    (hsame : v.same w = true)
    (hcase : ignoresCase siblings = ignoresCase siblings') :
    shape.fits siblings v = shape.fits siblings' w := by
  cases shape with
  | anything => rfl
  | condition => rfl
  | list => cases v <;> cases w <;> first | rfl | simp [Json.same] at hsame
  | boolean => cases v <;> cases w <;> first | rfl | simp [Json.same] at hsame
  | count => rw [fits, fits, asCount?_congr hsame]
  | pattern => rw [fits, fits, asString?_congr hsame, hcase]
  | element => exact isObject_congr hsame

theorem operandFits_of_exchangeable
    (hcase : ignoresCase siblings = ignoresCase siblings')
    (hfits : operandFits siblings operator v = true)
    (h : Exchangeable (Role.ofOperand operator v) v w) :
    operandFits siblings' operator w = true := by
  obtain ⟨shape, hop, hshape⟩ := operandFits_iff.1 hfits
  refine operandFits_iff.2 ⟨shape, hop, ?_⟩
  cases shape with
  | condition => rfl
  | element =>
      obtain rfl := List.mem_singleton.1 hop
      obtain ⟨_, _, -, rfl, -⟩ := exists_object_of_elemMatch hfits h
      rfl
  | anything | list | boolean | count | pattern =>
      have hagree := h.agree
      rw [Role.ofOperand_of_shape (by decide) (by decide) hop] at hagree
      rwa [← Shape.fits_congr _ hagree hcase]

theorem matchesOperator_of_exchangeable
    {actual : Option Json}
    (hv : v.KeysDistinct)
    (hcase : ignoresCase siblings = ignoresCase siblings')
    (hfits : operandFits siblings operator v = true)
    (h : Exchangeable (Role.ofOperand operator v) v w) :
    matchesOperator siblings actual (operator, v) =
      matchesOperator siblings' actual (operator, w) := by
  have hagree := h.agree
  by_cases hnot : operator = "$not"
  · subst hnot
    have hfield : matchesField v actual = matchesField w actual := hagree actual
    simp only [matchesOperator, applyOperator, hfield]
  by_cases helem : operator = "$elemMatch"
  · subst helem
    obtain ⟨query, query', rfl, rfl, hops⟩ := exists_object_of_elemMatch hfits h
    rw [Role.ofOperand_elemMatch] at hagree
    unfold matchesOperator
    refine congrArg (anyHolds · (itemsOf actual)) (funext fun item => ?_)
    rw [hops]
    dsimp only
    split
    next hop =>
      rw [if_pos hop] at hagree
      exact hagree (some item)
    next hop =>
      rw [if_neg hop] at hagree
      exact hagree item
  -- every other operator only compares its operand, whatever that says as a query or a condition
  have hrole : ∀ u, Role.ofOperand operator u = .literal := Role.ofOperand_of_ne hnot helem
  have hsame : v.same w = true := by
    rw [hrole] at hagree
    exact hagree
  have hanswered : (Role.ofOperand operator v).Answered v := by
    rw [hrole]
    trivial
  have hok : ∃ b, matchesOperator siblings actual (operator, v) = .ok b :=
    matchesOperator_of_answered hfits hanswered
  obtain ⟨b, hb⟩ := hok
  rw [hb]
  unfold matchesOperator at hb ⊢
  rw [applyOperator_of_literal (hrole v)] at hb
  exact (applyOperator_of_within hv h.keysDistinct hsame hcase (fun _ _ h => h) (fun _ _ h => h)
    hb).symm

end Operators

/-! Objects. -/

section Objects

variable {role : Role} {a b : Object}

theorem exchangeable_entry
    (ha : (Json.object a).KeysDistinct)
    (hwf : wellFormed role (.object a) = true)
    {e : String × Json}
    (he : e ∈ a) :
    Exchangeable (role.ofEntry a e) e.2 e.2 :=
  Exchangeable.refl ((Json.keysDistinct_object_iff.1 ha).2 e he)
    ((wellFormed_object_iff.1 hwf).2 e he).2

/-- The entries of two objects correspond to each other: under each key, the value of the second
object may stand in the place of that of the first one. -/
structure Corresponding (role : Role) (a b : Object) : Prop where
  keys : a.keys.Perm b.keys
  left : ∀ e ∈ a, ∃ w, (e.1, w) ∈ b ∧ Exchangeable (role.ofEntry a e) e.2 w
  right : ∀ e ∈ b, ∃ v, (e.1, v) ∈ a ∧ Exchangeable (role.ofEntry a (e.1, v)) v e.2

theorem corresponding_of_perm
    (ha : (Json.object a).KeysDistinct)
    (hwf : wellFormed role (.object a) = true)
    (hperm : a.Perm b) :
    Corresponding role a b where
  keys := hperm.map Prod.fst
  left e he := ⟨e.2, hperm.mem_iff.1 he, exchangeable_entry ha hwf he⟩
  right e he := ⟨e.2, hperm.mem_iff.2 he, exchangeable_entry ha hwf (hperm.mem_iff.2 he)⟩

theorem corresponding_of_entry
    {before after : Object} {key : String} {v w : Json}
    (ha : (Json.object (before ++ (key, v) :: after)).KeysDistinct)
    (hwf : wellFormed role (.object (before ++ (key, v) :: after)) = true)
    (h : Exchangeable (role.ofEntry (before ++ (key, v) :: after) (key, v)) v w) :
    Corresponding role (before ++ (key, v) :: after) (before ++ (key, w) :: after) := by
  have hmem : ∀ x e : String × Json, e ∈ before ++ x :: after ↔ e = x ∨ e ∈ before ++ after :=
    fun _ _ => List.perm_middle.mem_iff.trans List.mem_cons
  have hkeys : Object.keys (before ++ (key, v) :: after) =
      Object.keys (before ++ (key, w) :: after) := by
    simp [Object.keys]
  refine ⟨hkeys ▸ List.Perm.refl _, ?_, ?_⟩
  · intro e he
    rcases (hmem _ e).1 he with rfl | hother
    · exact ⟨w, (hmem _ _).2 (.inl rfl), h⟩
    · exact ⟨e.2, (hmem _ e).2 (.inr hother), exchangeable_entry ha hwf he⟩
  · intro e he
    rcases (hmem _ e).1 he with rfl | hother
    · exact ⟨v, (hmem _ _).2 (.inl rfl), h⟩
    · have he' := (hmem (key, v) e).2 (.inr hother)
      exact ⟨e.2, he', exchangeable_entry ha hwf he'⟩

namespace Corresponding

variable (h : Corresponding role a b)

include h

theorem isOperatorObject : Condition.isOperatorObject b = Condition.isOperatorObject a :=
  isOperatorObject_of_keys_perm h.keys

theorem keysDistinct
    (ha : (Json.object a).KeysDistinct) :
    (Json.object b).KeysDistinct := by
  refine Json.keysDistinct_object_iff.2
    ⟨h.keys.nodup_iff.1 (Json.keysDistinct_object_iff.1 ha).1, ?_⟩
  intro e he
  obtain ⟨v, -, hvw⟩ := h.right e he
  exact hvw.keysDistinct

theorem ofEntry
    {key : String} {v w : Json}
    (hops : isOperators w = isOperators v) :
    role.ofEntry b (key, w) = role.ofEntry a (key, v) := by
  cases role with
  | condition =>
      unfold Role.ofEntry Role.ofOperand
      rw [h.isOperatorObject, hops]
  | _ => rfl

/-- Objects of literals that correspond to each other are the same. -/
theorem same_of_literal
    (ha : (Json.object a).KeysDistinct)
    (hrole : ∀ e ∈ a, role.ofEntry a e = .literal) :
    (Json.object a).same (.object b) = true := by
  refine (Json.same_object_iff a b).2 ⟨by simpa [Object.keys] using h.keys.length_eq, ?_⟩
  intro e he
  obtain ⟨w, hw, hvw⟩ := h.left e he
  have hagree := hvw.agree
  rw [hrole e he] at hagree
  have hkeys := (Json.keysDistinct_object_iff.1 (h.keysDistinct ha)).1
  exact ⟨w, Object.find?_of_mem hkeys hw, hagree⟩

end Corresponding

theorem ignoresCase_of_corresponding
    (ha : (Json.object a).KeysDistinct)
    (hop : isOperatorObject a = true)
    (h : Corresponding .condition a b) :
    ignoresCase a = ignoresCase b := by
  have hakeys := (Json.keysDistinct_object_iff.1 ha).1
  have hbkeys := (Json.keysDistinct_object_iff.1 (h.keysDistinct ha)).1
  refine ignoresCase_congr ?_
  cases hv : a.find? "$options" with
  | none =>
      rw [Object.find?_eq_none_iff, h.keys.mem_iff, ← Object.find?_eq_none_iff] at hv
      rw [hv]
      exact Option.Rel.none
  | some v =>
      obtain ⟨w, hw, hvw⟩ := h.left _ (Object.mem_of_find? hv)
      have hrole : Role.condition.ofEntry a ("$options", v) = .literal := if_pos hop
      have hagree := hvw.agree
      rw [hrole] at hagree
      rw [Object.find?_of_mem hbkeys hw]
      exact Option.Rel.some hagree

theorem admits_of_corresponding
    {key : String} {v w : Json}
    (ha : (Json.object a).KeysDistinct)
    (h : Corresponding role a b)
    (hadmits : role.admits a (key, v) = true)
    (hvw : Exchangeable (role.ofEntry a (key, v)) v w) :
    role.admits b (key, w) = true := by
  cases role with
  | condition =>
      unfold Role.admits at hadmits ⊢
      rw [h.isOperatorObject]
      cases hop : isOperatorObject a with
      | false => rfl
      | true =>
          rw [hop] at hadmits
          have hrole : Role.condition.ofEntry a (key, v) = Role.ofOperand key v := if_pos hop
          rw [hrole] at hvw
          exact operandFits_of_exchangeable (ignoresCase_of_corresponding ha hop h) hadmits hvw
  | _ => exact hadmits

theorem wellFormed_of_corresponding
    (ha : (Json.object a).KeysDistinct)
    (hwf : wellFormed role (.object a) = true)
    (h : Corresponding role a b) :
    wellFormed role (.object b) = true := by
  obtain ⟨hrole, hentries⟩ := wellFormed_object_iff.1 hwf
  refine wellFormed_object_iff.2 ⟨hrole, ?_⟩
  rintro ⟨key, w⟩ he
  obtain ⟨v, hv, hvw⟩ := h.right _ he
  refine ⟨admits_of_corresponding ha h (hentries _ hv).1 hvw, ?_⟩
  rw [h.ofEntry hvw.isOperators]
  exact hvw.wellFormed

theorem matchesEntries_of_corresponding
    (hwf : wellFormed .query (.object a) = true)
    (h : Corresponding .query a b)
    (context : Json) :
    matchesEntries a context = matchesEntries b context := by
  have hentries := (wellFormed_object_iff.1 hwf).2
  rw [matchesEntries_eq, matchesEntries_eq]
  refine untilSettled_map_congr false ?_ ?_ ?_
  · intro e he
    exact matchesEntry_of_answered (hentries e he).1 (hentries e he).2
      (answered_of_wellFormed (hentries e he).2)
  · rintro ⟨key, v⟩ he
    obtain ⟨w, hw, hvw⟩ := h.left _ he
    exact ⟨(key, w), hw, matchesEntry_of_exchangeable (hentries _ he).1 (hentries _ he).2 hvw⟩
  · rintro ⟨key, w⟩ he
    obtain ⟨v, hv, hvw⟩ := h.right _ he
    exact ⟨(key, v), hv, matchesEntry_of_exchangeable (hentries _ hv).1 (hentries _ hv).2 hvw⟩

theorem matchesOperators_of_corresponding
    (ha : (Json.object a).KeysDistinct)
    (hwf : wellFormed .condition (.object a) = true)
    (hop : isOperatorObject a = true)
    (h : Corresponding .condition a b)
    (actual : Option Json) :
    matchesOperators a a actual = matchesOperators b b actual := by
  have hentries := wellFormed_condition_object_iff.1 hwf hop
  have hcase := ignoresCase_of_corresponding ha hop h
  have hdistinct := (Json.keysDistinct_object_iff.1 ha).2
  have hrole : ∀ e, Role.condition.ofEntry a e = Role.ofOperand e.1 e.2 := fun _ => if_pos hop
  rw [matchesOperators_eq, matchesOperators_eq]
  refine untilSettled_map_congr false ?_ ?_ ?_
  · intro e he
    exact matchesOperator_of_answered (hentries e he).1 (answered_of_wellFormed (hentries e he).2)
  · rintro ⟨operator, v⟩ he
    obtain ⟨w, hw, hvw⟩ := h.left _ he
    rw [hrole] at hvw
    exact ⟨(operator, w), hw,
      matchesOperator_of_exchangeable (hdistinct _ he) hcase (hentries _ he).1 hvw⟩
  · rintro ⟨operator, w⟩ he
    obtain ⟨v, hv, hvw⟩ := h.right _ he
    rw [hrole] at hvw
    exact ⟨(operator, v), hv,
      matchesOperator_of_exchangeable (hdistinct _ hv) hcase (hentries _ hv).1 hvw⟩

/-- Objects whose entries may be exchanged may be exchanged. -/
theorem exchangeable_object
    (ha : (Json.object a).KeysDistinct)
    (hwf : wellFormed role (.object a) = true)
    (h : Corresponding role a b) :
    Exchangeable role (.object a) (.object b) := by
  refine ⟨h.keysDistinct ha, wellFormed_of_corresponding ha hwf h, h.isOperatorObject, ?_⟩
  cases role with
  | query =>
      intro context
      rw [matchesObject, matchesObject]
      exact matchesEntries_of_corresponding hwf h context
  | queries => exact absurd rfl (wellFormed_object_iff.1 hwf).1
  | condition =>
      intro actual
      rw [matchesField, matchesField, h.isOperatorObject]
      split
      next hop => exact matchesOperators_of_corresponding ha hwf hop h actual
      next hop =>
        have hsame := h.same_of_literal ha fun e _ => if_neg hop
        rw [equalsField_congr actual ha (h.keysDistinct ha) hsame]
  | literal => exact h.same_of_literal ha fun _ _ => rfl

end Objects

/-! Lists. -/

section Lists

variable {role : Role} {xs ys : List Json}

theorem exchangeable_queries
    (hxs : (Json.array xs).KeysDistinct)
    (hwf : wellFormed .queries (.array xs) = true)
    (hperm : xs.Perm ys) :
    Exchangeable .queries (.array xs) (.array ys) := by
  have hitems := (wellFormed_array_iff.1 hwf).2
  refine ⟨?_, ?_, rfl, ?_⟩
  · rw [Json.keysDistinct_array_iff] at hxs ⊢
    exact fun v hv => hxs v (hperm.mem_iff.2 hv)
  · exact wellFormed_array_iff.2 ⟨by simp, fun v hv => hitems v (hperm.mem_iff.2 hv)⟩
  · intro context
    have hok : ∀ v ∈ xs, ∃ b, matchesObject v context = .ok b := fun v hv =>
      answered_of_wellFormed (hitems v hv) context
    have hcongr : ∀ settling, untilSettled settling (xs.map (matchesObject · context)) =
        untilSettled settling (ys.map (matchesObject · context)) := fun settling =>
      untilSettled_map_congr settling hok (fun v hv => ⟨v, hperm.mem_iff.1 hv, rfl⟩)
        fun v hv => ⟨v, hperm.mem_iff.2 hv, rfl⟩
    simp only [matchesAll, matchesAny, allItems_eq, anyItem_eq, hcongr, and_self]

theorem exchangeable_item
    {before after : List Json} {v w : Json}
    (hdistinct : (Json.array (before ++ v :: after)).KeysDistinct)
    (hwf : wellFormed role (.array (before ++ v :: after)) = true)
    (h : Exchangeable role.ofItem v w) :
    Exchangeable role (.array (before ++ v :: after)) (.array (before ++ w :: after)) := by
  have hdistinct' : (Json.array (before ++ w :: after)).KeysDistinct := by
    rw [Json.keysDistinct_array_iff, List.forall_mem_append, List.forall_mem_cons] at hdistinct ⊢
    exact ⟨hdistinct.1, h.keysDistinct, hdistinct.2.2⟩
  refine ⟨hdistinct', ?_, rfl, ?_⟩
  · rw [wellFormed_array_iff, List.forall_mem_append, List.forall_mem_cons] at hwf ⊢
    exact ⟨hwf.1, hwf.2.1, h.wellFormed, hwf.2.2.2⟩
  · have hagree := h.agree
    cases role with
    | query => exact absurd rfl (wellFormed_array_iff.1 hwf).1
    | queries =>
        intro context
        have hquery : matchesObject v context = matchesObject w context := hagree context
        simp only [matchesAll, matchesAny, allItems_eq, anyItem_eq, List.map_append, List.map_cons,
          hquery, and_self]
    | condition =>
        intro actual
        have heq := equalsField_congr actual hdistinct hdistinct' (same_of_item hdistinct hagree)
        simp [matchesField, heq]
    | literal => exact same_of_item hdistinct hagree

end Lists

/-- A reordered part may stand in the place of a well-formed one. -/
theorem exchangeable_of_reordered
    {role : Role} {v w : Json}
    (h : Reordered role v w)
    (hv : v.KeysDistinct)
    (hwf : wellFormed role v = true) :
    Exchangeable role v w := by
  induction h with
  | refl role v => exact Exchangeable.refl hv hwf
  | trans _ _ ih₁ ih₂ =>
      have huv := ih₁ hv hwf
      exact huv.trans hv (ih₂ huv.keysDistinct huv.wellFormed)
  | keys role hperm => exact exchangeable_object hv hwf (corresponding_of_perm hv hwf hperm)
  | queries hperm => exact exchangeable_queries hv hwf hperm
  | @entry role before after key v w _ ih =>
      have he : (key, v) ∈ before ++ (key, v) :: after := by simp
      have hvalue := ih ((Json.keysDistinct_object_iff.1 hv).2 _ he)
        ((wellFormed_object_iff.1 hwf).2 _ he).2
      exact exchangeable_object hv hwf (corresponding_of_entry hv hwf hvalue)
  | @item role before after v w _ ih =>
      have he : v ∈ before ++ v :: after := by simp
      exact exchangeable_item hv hwf
        (ih (Json.keysDistinct_array_iff.1 hv _ he) ((wellFormed_array_iff.1 hwf).2 _ he))

/-- **A well-formed query has an answer in every context.**  Every reordering of it has the same
answer. -/
theorem matchesQuery_of_wellFormed
    {query : Object}
    (hkeys : (Json.object query).KeysDistinct)
    (hwf : wellFormed .query (.object query) = true)
    (context : Json) :
    ∃ b, matchesQuery query context = .ok b ∧
      ∀ other : Object, Reordered .query (.object query) (.object other) →
        matchesQuery other context = .ok b := by
  obtain ⟨b, hb⟩ := answered_of_wellFormed hwf context
  rw [matchesObject] at hb
  refine ⟨b, hb, ?_⟩
  intro other hother
  have hagree := (exchangeable_of_reordered hother hkeys hwf).agree context
  rw [matchesObject, matchesObject, hb] at hagree
  exact hagree.symm

end Languages

/-- Titles that begin with an a in either case, or what is tagged and has at most two pages. -/
def titledOrTagged : Object :=
  [("$or", .array [
    .object [("title", .object [("$regex", .string "^a"), ("$options", .string "i")])],
    .object [("tags", .object [("$elemMatch", .object [("$eq", .string "x")])]),
      ("pages", .object [("$not", .object [("$gt", .ofNat 2)])])]])]

/-- The same question, asked the other way round. -/
def taggedOrTitled : Object :=
  [("$or", .array [
    .object [("pages", .object [("$not", .object [("$gt", .ofNat 2)])]),
      ("tags", .object [("$elemMatch", .object [("$eq", .string "x")])])],
    .object [("title", .object [("$options", .string "i"), ("$regex", .string "^a")])]])]

theorem reordered_titledOrTagged :
    Reordered .query (.object titledOrTagged) (.object taggedOrTitled) := by
  refine @Reordered.entry .query [] [] "$or" _ _ (.trans ?_ (.queries (List.Perm.swap _ _ _)))
  refine .trans ?_ (@Reordered.item .queries [_] [] _ _ (.keys .query (List.Perm.swap _ _ _)))
  exact @Reordered.item .queries [] [_] _ _
    (@Reordered.entry .query [] [] "title" _ _ (.keys .condition (List.Perm.swap _ _ _)))

theorem matchesQuery_of_wellFormed_titledOrTagged :
    (Json.object titledOrTagged).KeysDistinct ∧
      wellFormed .query (.object titledOrTagged) = true ∧
      matchesQuery titledOrTagged (.object [("title", .string "About")]) = .ok true ∧
      matchesQuery taggedOrTitled (.object [("title", .string "About")]) = .ok true := by
  have hkeys : (Json.object titledOrTagged).KeysDistinct := by
    simp [titledOrTagged, Json.KeysDistinct, Json.ItemsDistinct, Json.EntriesDistinct, Object.keys,
      Json.ofNat]
  have hwf : wellFormed .query (.object titledOrTagged) = true := by
    decide +kernel
  obtain ⟨b, hb, hother⟩ :=
    matchesQuery_of_wellFormed hkeys hwf (.object [("title", .string "About")])
  have hanswer := hother taggedOrTitled reordered_titledOrTagged
  have htrue : matchesQuery titledOrTagged (.object [("title", .string "About")]) = .ok true :=
    toOption_eq_some_iff.1 (by decide +kernel)
  rw [htrue] at hb
  cases hb
  exact ⟨hkeys, hwf, htrue, hanswer⟩

end Condition
end Warrant
