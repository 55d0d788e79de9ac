import Warrant.Permission.Encode
import Warrant.Proofs.Permission.Decoding
import Warrant.Proofs.Permission.Everywhere
import Warrant.Proofs.Scope.Obtainable

/-!
# Items read back from their data values

An item is written as a data value without a mark of its kind, and reading tries a text, a group
and a permission in turn.  No kind is mistaken for another, since the data of a permission has no
members and the data of a group no subjects.  What is read is the item itself but for the scopes:
they stand as texts, and a text is read as a scope that may have other subjects, though never as
the global scope if it was another one.  An item with a permission that names no subject or no
action is not read at all.

**Results.**
* `ofJson?_toJson_eq_some_iff`: which items are read from the data of an item.
* `ofJson_toJson`: which items are read from their own data.
-/

namespace Warrant

/-! What is inherited. -/

namespace Scope

/-- The text of the one scope is read as the other. -/
def RereadAs (s t : Scope) : Prop :=
  ofText s.text = .ok t

/-- What the text of a scope is read as, where there is a scope. -/
def reread? : Option Scope → Option (Option Scope)
  | none => some none
  | some s => (ofText s.text).toOption.map some

theorem reread?_eq_some_iff
    {scope scope' : Option Scope} :
    reread? scope = some scope' ↔ Option.Rel RereadAs scope scope' := by
  cases scope with
  | none =>
      constructor
      · rintro ⟨⟩
        exact Option.Rel.none
      · rintro ⟨⟩
        rfl
  | some s =>
      rw [reread?]
      constructor
      · intro h
        cases hread : ofText s.text with
        | error e =>
            rw [hread] at h
            cases h
        | ok t =>
            rw [hread] at h
            cases h
            exact Option.Rel.some hread
      · rintro ⟨ht⟩
        rw [RereadAs] at ht
        rw [ht]
        rfl

end Scope

namespace Permission

theorem decodeOptional_conditions
    {query : Object}
    (h : (Json.object query).KeysDistinct) :
    (Json.object query).decodeOptional decodeConditions = .ok (some query) := by
  rw [Json.decodeOptional, decodeConditions, Json.settle_of_keysDistinct h]
  · rfl
  · nofun

theorem decodeOptional_scope (s : Scope) :
    (Json.string s.text).decodeOptional decodeScope =
      ((Scope.ofText s.text).mapError fun e => .refused e.message).map some := rfl

end Permission

/-! Permissions. -/

namespace Permission

theorem decodeTexts_map_string (names : List String) :
    decodeTexts (names.map .string) = some names := by
  induction names with
  | nil => rfl
  | cons name names ih =>
      rw [List.map_cons, decodeTexts, ih]
      rfl

theorem decodeNames_encodeNames (names : List String) :
    decodeNames (encodeNames names) = if names = [] then .error .noNames else .ok names := by
  match names with
  | [] => rfl
  | [name] => rfl
  | name :: second :: rest =>
      rw [encodeNames, decodeNames, decodeTexts_map_string]
      · rfl
      · nofun

theorem decodeEffect_word (effect : Effect) : decodeEffect (.string effect.word) = .ok effect := by
  cases effect <;> rfl

/-- The permission names a subject and an action. -/
def Named (p : Permission) : Prop :=
  p.subjects ≠ [] ∧ p.actions ≠ []

/-- The entries that stand in the data of every permission. -/
def namedEntries (p : Permission) : Object :=
  [("subject", encodeNames p.subjects), ("action", encodeNames p.actions),
    ("type", .string p.effect.word)]

/-- Takes the entries of an object as fields. -/
def Fields.addAll (f : Fields) (entries : Object) : Except DecodeError Fields :=
  entries.foldlM (fun f e => f.add e.1 e.2) f

theorem Fields.addAll_append_eq_ok_iff
    {f f' : Fields} {entries more : Object} :
    f.addAll (entries ++ more) = .ok f' ↔
      ∃ next, f.addAll entries = .ok next ∧ next.addAll more = .ok f' := by
  rw [addAll, List.foldlM_append]
  exact bind_eq_ok_iff

theorem addAll_namedEntries_eq_ok_iff
    {p : Permission} {f : Fields} :
    Fields.addAll {} p.namedEntries = .ok f ↔
      p.Named ∧
        f = { subjects := some p.subjects, actions := some p.actions, effect := some p.effect } := by
  rw [namedEntries, Named]
  simp only [Fields.addAll, List.foldlM_cons, List.foldlM_nil, Fields.add, fillField,
    decodeNames_encodeNames, decodeEffect_word]
  by_cases hsubjects : p.subjects = []
  · simp [hsubjects, Except.map, bind, Except.bind]
  · by_cases hactions : p.actions = []
    · simp [hsubjects, hactions, Except.map, bind, Except.bind, pure, Except.pure]
    · simp [hsubjects, hactions, Except.map, bind, Except.bind, eq_comm, pure, Except.pure]

theorem addAll_encodeInherited
    {subjects actions : Option (List String)} {effect : Option Effect}
    {conditions : Option Object}
    (hconditions : ConditionsDistinct conditions)
    (scope : Option Scope) :
    (Fields.addAll ⟨subjects, actions, effect, none, none⟩
      (encodeInherited conditions scope)).toOption =
      (Scope.reread? scope).map fun scope' =>
        ⟨subjects, actions, effect, conditions.map some, scope'.map some⟩ := by
  have hadd : Fields.addAll ⟨subjects, actions, effect, none, none⟩
      (conditions.map fun query => ("conditions", Json.object query)).toList =
        .ok ⟨subjects, actions, effect, conditions.map some, none⟩ := by
    cases conditions with
    | none => rfl
    | some query =>
        have hquery := decodeOptional_conditions (hconditions query rfl)
        simp [Fields.addAll, Fields.add, fillField, hquery, Except.map]
  rw [encodeInherited, Fields.addAll, List.foldlM_append]
  rw [Fields.addAll] at hadd
  rw [hadd]
  cases scope with
  | none => rfl
  | some s =>
      rw [Scope.reread?]
      cases hread : Scope.ofText s.text <;>
        simp [Fields.add, fillField, decodeOptional_scope, hread, Except.map,
          Except.mapError, Except.toOption, bind, Except.bind, pure, Except.pure]

theorem addAll_encodeInherited_eq_ok_iff
    {subjects actions : Option (List String)} {effect : Option Effect} {f : Fields}
    {conditions : Option Object} {scope : Option Scope}
    (hconditions : ConditionsDistinct conditions) :
    Fields.addAll ⟨subjects, actions, effect, none, none⟩ (encodeInherited conditions scope) =
        .ok f ↔
      ∃ scope', Option.Rel Scope.RereadAs scope scope' ∧
        f = ⟨subjects, actions, effect, conditions.map some, scope'.map some⟩ := by
  rw [← toOption_eq_some_iff, addAll_encodeInherited hconditions, Option.map_eq_some_iff]
  simp only [Scope.reread?_eq_some_iff]
  exact exists_congr fun _ => and_congr_right fun _ => eq_comm

theorem toPermission_filled
    (p : Permission)
    (scope : Option Scope) :
    Fields.toPermission ⟨some p.subjects, some p.actions, some p.effect, p.conditions.map some,
      scope.map some⟩ = .ok { p with scope } := by
  obtain ⟨subjects, actions, effect, conditions, _⟩ := p
  cases conditions <;> cases scope <;> rfl

/-- A permission that names a subject and an action is read from its data, but for the scope. -/
theorem ofObject_encoded_eq_ok_iff
    {p q : Permission}
    (hp : p.KeysDistinct) :
    ofObject (p.namedEntries ++ encodeInherited p.conditions p.scope) = .ok q ↔
      p.Named ∧ ∃ scope, Option.Rel Scope.RereadAs p.scope scope ∧ q = { p with scope } := by
  change (do let f ← Fields.addAll {} _; f.toPermission) = .ok q ↔ _
  rw [bind_eq_ok_iff]
  simp only [Fields.addAll_append_eq_ok_iff, addAll_namedEntries_eq_ok_iff]
  constructor
  · rintro ⟨f, ⟨_, ⟨hnamed, rfl⟩, hinherited⟩, hq⟩
    obtain ⟨scope, hscope, rfl⟩ := (addAll_encodeInherited_eq_ok_iff hp).1 hinherited
    rw [toPermission_filled] at hq
    exact ⟨hnamed, scope, hscope, (Except.ok.inj hq).symm⟩
  · rintro ⟨hnamed, scope, hscope, rfl⟩
    refine ⟨_, ⟨_, ⟨hnamed, rfl⟩, ?_⟩, toPermission_filled p scope⟩
    exact (addAll_encodeInherited_eq_ok_iff hp).2 ⟨scope, hscope, rfl⟩

/-- The data of a group names no subjects and is not read as a permission. -/
theorem ofObject_group_ne_ok
    {conditions : Option Object}
    (hconditions : ConditionsDistinct conditions)
    (scope : Option Scope)
    (v : Json)
    (p : Permission) :
    ofObject (("permissions", v) :: encodeInherited conditions scope) ≠ .ok p := by
  intro h
  obtain ⟨f, hf, hp⟩ := exists_of_bind_eq_ok h
  obtain ⟨scope', -, rfl⟩ := (addAll_encodeInherited_eq_ok_iff hconditions).1 hf
  cases hp

end Permission

/-! Groups. -/

namespace Item

open Permission (encodeInherited ConditionsDistinct)

theorem objectFields_append
    (f : Group.Fields)
    (entries more : Object) :
    objectFields f (entries ++ more) =
      (objectFields f entries).bind fun next => objectFields next more := by
  induction entries generalizing f with
  | nil => simp [objectFields]
  | cons e entries ih =>
      obtain ⟨name, v⟩ := e
      rw [List.cons_append, objectFields, objectFields]
      split
      · exact ih _
      · rfl

theorem objectFields_encodeInherited
    {members : Option (List Item)} {conditions : Option Object}
    (hconditions : ConditionsDistinct conditions)
    (scope : Option Scope) :
    objectFields ⟨members, none, none⟩ (encodeInherited conditions scope) =
      (Scope.reread? scope).map fun scope' =>
        ⟨members, conditions.map some, scope'.map some⟩ := by
  have hadd : objectFields ⟨members, none, none⟩
      (conditions.map fun query => ("conditions", Json.object query)).toList =
        some ⟨members, conditions.map some, none⟩ := by
    cases conditions with
    | none => simp [objectFields]
    | some query =>
        have hquery := Permission.decodeOptional_conditions (hconditions query rfl)
        simp [objectFields, Group.Fields.add?, Group.fill?, hquery, Except.toOption]
  rw [encodeInherited, objectFields_append, hadd, Option.bind_some]
  cases scope with
  | none => simp [objectFields, Scope.reread?]
  | some s =>
      rw [Scope.reread?]
      cases hread : Scope.ofText s.text <;>
        simp [objectFields, Group.Fields.add?, Group.fill?, Permission.decodeOptional_scope, hread,
          Except.map, Except.mapError, Except.toOption]

/-- The data of a permission has no members and is not read as a group. -/
theorem objectFields_permission
    {p : Permission}
    (hp : p.KeysDistinct) :
    (objectFields {} (p.namedEntries ++ encodeInherited p.conditions p.scope)).bind
      Group.Fields.toItem? = none := by
  have hnamed : objectFields {} p.namedEntries = some {} := by
    simp [Permission.namedEntries, objectFields, Group.Fields.add?]
  rw [objectFields_append, hnamed, Option.bind_some, objectFields_encodeInherited hp]
  cases Scope.reread? p.scope <;> rfl

theorem ofJson?_leaf_eq_some_iff
    {p : Permission} {item : Item}
    (hp : p.KeysDistinct) :
    ofJson? (leaf p).toJson = some item ↔
      p.Named ∧ ∃ scope, Option.Rel Scope.RereadAs p.scope scope ∧
        item = .leaf { p with scope } := by
  have hread : ofJson? (leaf p).toJson = (Permission.ofObject
      (p.namedEntries ++ encodeInherited p.conditions p.scope)).toOption.map .leaf := by
    change ofJson? (.object (p.namedEntries ++ encodeInherited p.conditions p.scope)) = _
    rw [ofJson?, objectFields_permission hp]
  rw [hread, Option.map_eq_some_iff]
  constructor
  · rintro ⟨q, hq, rfl⟩
    obtain ⟨hnamed, scope, hscope, rfl⟩ :=
      (Permission.ofObject_encoded_eq_ok_iff hp).1 (toOption_eq_some_iff.1 hq)
    exact ⟨hnamed, scope, hscope, rfl⟩
  · rintro ⟨hnamed, scope, hscope, rfl⟩
    have hq := (Permission.ofObject_encoded_eq_ok_iff hp).2 ⟨hnamed, scope, hscope, rfl⟩
    exact ⟨_, toOption_eq_some_iff.2 hq, rfl⟩

theorem toItem?_filled
    (members : List Item)
    (conditions : Option Object)
    (scope : Option Scope) :
    Group.Fields.toItem? ⟨some members, conditions.map some, scope.map some⟩ =
      some (.group members conditions scope) := by
  cases conditions <;> cases scope <;> rfl

theorem objectFields_group
    {conditions : Option Object}
    (hconditions : ConditionsDistinct conditions)
    (members : List Item)
    (scope : Option Scope) :
    (objectFields {} (("permissions", .array (toJsonList members)) ::
        encodeInherited conditions scope)).bind Group.Fields.toItem? =
      (ofItems? (toJsonList members)).bind fun members' =>
        (Scope.reread? scope).map fun scope' => .group members' conditions scope' := by
  rw [objectFields, membersOf?]
  cases ofItems? (toJsonList members) with
  | none => rfl
  | some members' =>
      change (objectFields ⟨some members', none, none⟩ _).bind _ = _
      rw [objectFields_encodeInherited hconditions, Option.bind_some]
      cases Scope.reread? scope with
      | none => rfl
      | some scope' => exact toItem?_filled members' conditions scope'

theorem ofJson?_group_eq_some_iff
    {members : List Item} {conditions : Option Object} {scope : Option Scope} {item : Item}
    (hconditions : ConditionsDistinct conditions) :
    ofJson? (group members conditions scope).toJson = some item ↔
      ∃ members' scope', ofItems? (toJsonList members) = some members' ∧
        Option.Rel Scope.RereadAs scope scope' ∧ item = .group members' conditions scope' := by
  have hleaf : (Permission.ofObject (("permissions", Json.array (toJsonList members)) ::
      encodeInherited conditions scope)).toOption = none := by
    rw [Option.eq_none_iff_forall_ne_some]
    intro p hp
    exact Permission.ofObject_group_ne_ok hconditions scope _ p (toOption_eq_some_iff.1 hp)
  have hread : ofJson? (group members conditions scope).toJson =
      (ofItems? (toJsonList members)).bind fun members' =>
        (Scope.reread? scope).map fun scope' => .group members' conditions scope' := by
    rw [toJson, ofJson?, objectFields_group hconditions, hleaf]
    split
    next g hg => exact hg.symm
    next hg => exact hg.symm
  rw [hread, Option.bind_eq_some_iff]
  constructor
  · rintro ⟨members', hmembers, h⟩
    obtain ⟨scope', hscope, rfl⟩ := Option.map_eq_some_iff.1 h
    exact ⟨members', scope', hmembers, Scope.reread?_eq_some_iff.1 hscope, rfl⟩
  · rintro ⟨members', scope', hmembers, hscope, rfl⟩
    exact ⟨members', hmembers,
      Option.map_eq_some_iff.2 ⟨scope', Scope.reread?_eq_some_iff.2 hscope, rfl⟩⟩

theorem ofItems?_toJsonList_eq_some_iff
    {items items' : List Item} :
    ofItems? (toJsonList items) = some items' ↔
      List.Forall₂ (fun x y => ofJson? x.toJson = some y) items items' := by
  induction items generalizing items' with
  | nil =>
      rw [List.forall₂_nil_left_iff, toJsonList, ofItems?, Option.some.injEq]
      exact eq_comm
  | cons x items ih =>
      rw [List.forall₂_cons_left_iff, toJsonList, ofItems?]
      constructor
      · intro h
        split at h
        next y ys hy hys =>
          cases h
          exact ⟨y, ys, hy, ih.1 hys, rfl⟩
        next => cases h
      · rintro ⟨y, ys, hy, hys, rfl⟩
        rw [hy, ih.2 hys]

/-! Trees. -/

theorem ofJson_eq_ok_iff
    {v : Json} {item : Item} :
    ofJson v = .ok item ↔ ofJson? v = some item := by
  rw [ofJson]
  cases ofJson? v with
  | none => exact ⟨nofun, nofun⟩
  | some found => rw [Except.ok.injEq, Option.some.injEq]

/-- What is read from the data of an item: the item up to the scopes, each of which becomes what
its text is read as.  Only an item is read in which every permission names a subject and an
action. -/
theorem ofJson?_toJson_eq_some_iff
    {x y : Item}
    (hx : x.KeysDistinct) :
    ofJson? x.toJson = some y ↔
      x.Everywhere Permission.Named (fun _ => True) ∧ UpToScope Scope.RereadAs x y := by
  induction x using Item.induction generalizing y with
  | encoded text =>
      rw [toJson_encoded, ofJson?, upToScope_encoded_iff, Option.some.injEq]
      constructor
      · rintro rfl
        exact ⟨Everywhere.encoded text, rfl⟩
      · rintro ⟨-, rfl⟩
        rfl
  | leaf p =>
      cases hx with
      | leaf hp =>
          rw [ofJson?_leaf_eq_some_iff hp, everywhere_leaf_iff, upToScope_leaf_iff]
          simp
  | group members conditions scope ih =>
      obtain ⟨hmembers, hconditions⟩ := keysDistinct_group_iff.1 hx
      have hitems : ∀ members', ofItems? (toJsonList members) = some members' ↔
          (∀ m ∈ members, m.Everywhere Permission.Named fun _ => True) ∧
            List.Forall₂ (UpToScope Scope.RereadAs) members members' := by
        intro members'
        rw [ofItems?_toJsonList_eq_some_iff,
          forall₂_congr_of_mem fun m hm y => ih m hm (hmembers m hm), List.forall₂_and_left]
      rw [ofJson?_group_eq_some_iff hconditions, everywhere_group_iff, upToScope_group_iff]
      simp only [hitems]
      constructor
      · rintro ⟨members', scope', ⟨hnamed, hread⟩, hscope, rfl⟩
        exact ⟨⟨hnamed, fun _ _ => trivial⟩, members', scope', hread, hscope, rfl⟩
      · rintro ⟨⟨hnamed, -⟩, members', scope', hread, hscope, rfl⟩
        exact ⟨members', scope', ⟨hnamed, hread⟩, hscope, rfl⟩

/-- **The data of an item is read as the item if and only if every permission in it names a subject
and an action and every scope in it is what its own text is read as.**  Whatever else is read has
texts, permissions and groups in the same places with the same names and conditions; it has scopes
where the item has them, read from their texts, and global ones only where the item has these. -/
theorem ofJson_toJson
    {x : Item}
    (hx : x.KeysDistinct)
    (hscopes : x.Everywhere (fun _ => True) Scope.Obtainable) :
    (ofJson x.toJson = .ok x ↔
      x.Everywhere Permission.Named fun s => Scope.ofText s.text = .ok s) ∧
    ∀ y, ofJson x.toJson = .ok y →
      (x.same y = true → y = x) ∧
        UpToScope (fun s t => Scope.ofText s.text = .ok t ∧ t.isGlobal = s.isGlobal) x y := by
  constructor
  · rw [ofJson_eq_ok_iff, ofJson?_toJson_eq_some_iff hx, upToScope_self_iff, everywhere_and_iff]
    exact Iff.rfl
  · intro y hy
    obtain ⟨-, hread⟩ := (ofJson?_toJson_eq_some_iff hx).1 (ofJson_eq_ok_iff.1 hy)
    refine ⟨hread.eq_of_same, hread.imp hscopes ?_⟩
    exact fun s t hs hst => ⟨hst, Scope.isGlobal_of_ofText_text hs hst⟩

/-- A group without conditions that holds a permission for the global scope with empty conditions,
a text, and a group for a scope of its own. -/
def mixedGroup : Item :=
  .group
    [.leaf ⟨["doc"], ["read", "write"], .can, some [], some Scope.global⟩,
      .encoded "doc:share",
      .group [.leaf ⟨["doc"], ["share"], .cannot, none, none⟩] (some [("draft", .bool true)])
        (some ⟨[⟨"org", some "1"⟩]⟩)]
    none none

theorem ofJson_toJson_mixedGroup :
    mixedGroup.KeysDistinct ∧ mixedGroup.Everywhere (fun _ => True) Scope.Obtainable ∧
      ofJson mixedGroup.toJson = .ok mixedGroup := by
  have hempty : ConditionsDistinct (some []) := by
    rw [Permission.conditionsDistinct_some_iff, Json.keysDistinct_object_iff]
    exact ⟨by decide, by simp⟩
  have hdraft : ConditionsDistinct (some [("draft", .bool true)]) := by
    rw [Permission.conditionsDistinct_some_iff, Json.keysDistinct_object_iff]
    exact ⟨by decide, by simp [Json.KeysDistinct]⟩
  have hkeys : mixedGroup.KeysDistinct := by
    simp only [mixedGroup, keysDistinct_group_iff, List.forall_mem_cons, List.not_mem_nil,
      false_imp_iff, implies_true, and_true]
    exact ⟨⟨KeysDistinct.leaf hempty, KeysDistinct.encoded _,
      KeysDistinct.leaf Permission.conditionsDistinct_none, hdraft⟩,
      Permission.conditionsDistinct_none⟩
  have horg : Scope.ofText "org:1" = .ok ⟨[⟨"org", some "1"⟩]⟩ := rfl
  have hscopes : mixedGroup.Everywhere (fun _ => True) Scope.Obtainable := by
    simp [mixedGroup, everywhere_group_iff, everywhere_leaf_iff, Everywhere.encoded,
      Scope.Obtainable.global, Scope.Obtainable.ofText horg]
  have htexts : Scope.global.text = "" ∧ Scope.text ⟨[⟨"org", some "1"⟩]⟩ = "org:1" :=
    ⟨rfl, rfl⟩
  have hglobal : Scope.ofText "" = .ok Scope.global := rfl
  have hread : mixedGroup.Everywhere Permission.Named fun s => Scope.ofText s.text = .ok s := by
    simp [mixedGroup, everywhere_group_iff, everywhere_leaf_iff, Everywhere.encoded,
      Permission.Named, htexts, hglobal, horg]
  exact ⟨hkeys, hscopes, (ofJson_toJson hkeys hscopes).1.2 hread⟩

end Item
end Warrant
