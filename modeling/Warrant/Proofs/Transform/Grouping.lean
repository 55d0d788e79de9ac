import Warrant.Proofs.Transform.SameLeaves
import Warrant.Transform.Group

/-!
# Grouping and the leaves of items

Grouping moves the scope and the conditions of an item to a group, passes on the members of a
group that has nothing left, and drops an item that a group has already.  Each step keeps the
leaves: what an item contributes under its key holds what the item holds, and adding that to the
group with the key loses and invents nothing.  By induction over the items, grouping keeps the
leaves of a whole list.

**Results.**
* `sameLeaves_contribution`: an item and its contribution under its key have the same leaves.
* `sameLeaves_place`: nothing is lost or invented where a contribution is placed.
* `sameLeaves_regroup`, `sameLeaves_collect`: one step, and a whole run.
* `flatten_collect`: grouping fails only where flattening does, and keeps the leaves.
-/

namespace Warrant

/-! Adding members to a group. -/

namespace Group

variable {g : Group} {item m : Item} {items : List Item}

theorem addMembers_cons
    (g : Group)
    (item : Item)
    (items : List Item) :
    g.addMembers (item :: items) = (g.addMember item).addMembers items := rfl

theorem mem_addMember
    (hm : m ∈ g.members) :
    m ∈ (g.addMember item).members := by
  unfold addMember
  split
  · exact hm
  · exact List.mem_append_left _ hm

theorem of_mem_addMember
    (hm : m ∈ (g.addMember item).members) :
    m ∈ g.members ∨ m = item := by
  unfold addMember at hm
  split at hm
  · exact Or.inl hm
  · rcases List.mem_append.1 hm with hm | hm
    · exact Or.inl hm
    · exact Or.inr (List.mem_singleton.1 hm)

theorem exists_same_mem_addMember
    (g : Group)
    (hitem : item.KeysDistinct) :
    ∃ m ∈ (g.addMember item).members, item.same m = true := by
  unfold addMember
  split
  next h => exact List.any_eq_true.1 h
  next => exact ⟨item, List.mem_append_right _ List.mem_cons_self, Item.same_refl hitem⟩

theorem mem_addMembers
    (hm : m ∈ g.members) :
    m ∈ (g.addMembers items).members := by
  induction items generalizing g with
  | nil => exact hm
  | cons item items ih => exact ih (mem_addMember hm)

theorem of_mem_addMembers
    (hm : m ∈ (g.addMembers items).members) :
    m ∈ g.members ∨ m ∈ items := by
  induction items generalizing g with
  | nil => exact Or.inl hm
  | cons item items ih =>
      rcases ih hm with hm | hm
      · rcases of_mem_addMember hm with hm | rfl
        · exact Or.inl hm
        · exact Or.inr List.mem_cons_self
      · exact Or.inr (List.mem_cons_of_mem item hm)

theorem exists_same_mem_addMembers
    (g : Group)
    (hitems : ∀ item ∈ items, item.KeysDistinct)
    (hitem : item ∈ items) :
    ∃ m ∈ (g.addMembers items).members, item.same m = true := by
  induction items generalizing g with
  | nil => simp at hitem
  | cons first items ih =>
      obtain ⟨hfirst, hrest⟩ := List.forall_mem_cons.1 hitems
      rw [addMembers_cons]
      rcases List.mem_cons.1 hitem with rfl | hitem
      · obtain ⟨m, hm, hsame⟩ := exists_same_mem_addMember g hfirst
        exact ⟨m, mem_addMembers hm, hsame⟩
      · exact ih (g.addMember first) hrest hitem

theorem key_addMember (g : Group) (item : Item) : (g.addMember item).key = g.key := by
  unfold addMember
  split <;> rfl

theorem key_addMembers (g : Group) (items : List Item) : (g.addMembers items).key = g.key := by
  induction items generalizing g with
  | nil => rfl
  | cons item items ih => rw [addMembers_cons, ih, key_addMember]

/-- What the members of a group inherit from it. -/
def passedOn (k : GroupKey) : Inheritance :=
  ⟨k.scope, k.conditions⟩

theorem holds_toItem_iff
    {p : Permission} :
    Item.Holds {} g.toItem p ↔ ∃ m ∈ g.members, Item.Holds (passedOn g.key) m p := by
  rw [toItem, Item.holds_group_iff, Inheritance.nothing_extend]
  rfl

theorem decodes_toItem_iff : g.toItem.Decodes ↔ ∀ m ∈ g.members, m.Decodes :=
  Item.decodes_group_iff

theorem keysDistinct_toItem_iff :
    g.toItem.KeysDistinct ↔
      (∀ m ∈ g.members, m.KeysDistinct) ∧ Permission.ConditionsDistinct g.key.conditions :=
  Item.keysDistinct_group_iff

theorem decodes_addMembers_iff
    (g : Group)
    (hitems : ∀ m ∈ items, m.KeysDistinct) :
    ((∀ m ∈ g.members, m.Decodes) ∧ ∀ m ∈ items, m.Decodes) ↔
      ∀ m ∈ (g.addMembers items).members, m.Decodes := by
  constructor
  · rintro ⟨hdg, hdc⟩ m hm
    rcases of_mem_addMembers hm with hm | hm
    · exact hdg m hm
    · exact hdc m hm
  · intro hd
    refine ⟨fun m hm => hd m (mem_addMembers hm), ?_⟩
    intro m hm
    obtain ⟨n, hn, hmn⟩ := exists_same_mem_addMembers g hitems hm
    exact (Item.decodes_iff_of_same hmn).2 (hd n hn)

/-- A group and a contribution with the same key hold together what the group holds once the
contribution was added. -/
theorem sameLeaves_addMembers
    {k : GroupKey}
    (hg : g.toItem.KeysDistinct)
    (hitems : (toItem ⟨items, k.conditions, k.scope⟩).KeysDistinct)
    (hkey : sameKey g.key k = true) :
    Item.SameLeaves [g.toItem, toItem ⟨items, k.conditions, k.scope⟩]
      [(g.addMembers items).toItem] := by
  obtain ⟨hgmembers, hgkey⟩ := keysDistinct_toItem_iff.1 hg
  obtain ⟨hcmembers, hckey⟩ := keysDistinct_toItem_iff.1 hitems
  have hgpassed : (passedOn g.key).KeysDistinct := hgkey
  have hcpassed : (passedOn k).KeysDistinct := hckey
  have hsame : (passedOn g.key).Same (passedOn k) := by
    rw [sameKey, Bool.and_eq_true, beq_iff_eq] at hkey
    exact ⟨hkey.1, hkey.2⟩
  have hsame' : (passedOn k).Same (passedOn g.key) :=
    ⟨hsame.1.symm, Permission.sameConditions_symm hgkey hckey hsame.2⟩
  have hmembers : ∀ m ∈ (g.addMembers items).members, m.KeysDistinct := by
    intro m hm
    rcases of_mem_addMembers hm with hm | hm
    · exact hgmembers m hm
    · exact hcmembers m hm
  have hboth : ∀ x ∈ [g.toItem, toItem ⟨items, k.conditions, k.scope⟩], x.KeysDistinct := by
    simp [hg, hitems]
  have hsum : (g.addMembers items).toItem.KeysDistinct := by
    rw [keysDistinct_toItem_iff, key_addMembers]
    exact ⟨hmembers, hgkey⟩
  refine ⟨hboth, by simpa using hsum, ?_, ?_, ?_⟩
  · simp only [List.forall_mem_cons, List.not_mem_nil, false_imp_iff, implies_true, and_true]
    rw [decodes_toItem_iff, decodes_toItem_iff, decodes_toItem_iff]
    exact decodes_addMembers_iff g hcmembers
  · intro x hx p hp
    refine ⟨_, List.mem_singleton_self _, ?_⟩
    simp only [holds_toItem_iff, key_addMembers]
    rw [List.mem_cons, List.mem_singleton] at hx
    rcases hx with rfl | rfl
    · obtain ⟨m, hm, hp⟩ := holds_toItem_iff.1 hp
      exact ⟨p, ⟨m, mem_addMembers hm, hp⟩,
        Permission.same_refl (hp.keysDistinct hgkey (hgmembers m hm))⟩
    · obtain ⟨m, hm, hp⟩ := holds_toItem_iff.1 hp
      obtain ⟨n, hn, hmn⟩ := exists_same_mem_addMembers g hcmembers hm
      obtain ⟨q, hq, hpq⟩ :=
        hp.exists_same hcpassed hgpassed (hcmembers m hm) (hmembers n hn) hsame' hmn
      exact ⟨q, ⟨n, hn, hq⟩, hpq⟩
  · intro y hy q hq
    rw [List.mem_singleton] at hy
    subst hy
    rw [holds_toItem_iff, key_addMembers] at hq
    obtain ⟨m, hm, hq⟩ := hq
    rcases of_mem_addMembers hm with hm | hm
    · refine ⟨g.toItem, List.mem_cons_self, q, holds_toItem_iff.2 ⟨m, hm, hq⟩, ?_⟩
      exact Permission.same_refl (hq.keysDistinct hgkey (hgmembers m hm))
    · have hdistinct := hcmembers m hm
      obtain ⟨p, hp, hqp⟩ := hq.exists_same hgpassed hcpassed hdistinct hdistinct hsame
        (Item.same_refl hdistinct)
      exact ⟨_, List.mem_cons_of_mem _ List.mem_cons_self, p,
        holds_toItem_iff.2 ⟨m, hm, hp⟩, hqp⟩

end Group
/-! What an item contributes under its key. -/

namespace Item

variable {options : GroupOptions} {item : Item}

theorem exists_decode
    (h : item.Decodes) :
    ∃ decoded, item.decode = .ok decoded := by
  cases h with
  | encoded hp => exact ⟨_, by rw [decode, hp]; rfl⟩
  | leaf p => exact ⟨_, rfl⟩
  | group c s _ => exact ⟨_, rfl⟩

/-- A decoded item holds what the item holds. -/
theorem decode_spec
    {decoded : Item}
    (h : item.decode = .ok decoded) :
    (item.KeysDistinct → decoded.KeysDistinct) ∧ (item.Decodes ↔ decoded.Decodes) ∧
      ∀ i p, Holds i item p ↔ Holds i decoded p := by
  cases item with
  | encoded text =>
      rw [decode] at h
      cases hq : Permission.parse text with
      | error e => rw [hq] at h; cases h
      | ok q =>
          rw [hq] at h
          cases h
          refine ⟨fun _ => KeysDistinct.leaf (Permission.keysDistinct_of_parse hq),
            ⟨fun _ => Decodes.leaf q, fun _ => Decodes.encoded hq⟩, ?_⟩
          intro i p
          constructor
          · rintro ⟨hq'⟩
            rw [hq] at hq'
            cases hq'
            exact Holds.leaf i _
          · rintro ⟨⟩
            exact Holds.encoded hq
  | leaf q =>
      cases h
      exact ⟨id, Iff.rfl, fun _ _ => Iff.rfl⟩
  | group members conditions scope =>
      cases h
      exact ⟨id, Iff.rfl, fun _ _ => Iff.rfl⟩

/-- What is left of an item holds under the item's key what the item holds. -/
theorem unkeyed_spec
    (options : GroupOptions)
    (item : Item) :
    (item.KeysDistinct → (item.unkeyed options).KeysDistinct ∧
        Permission.ConditionsDistinct (item.key options).conditions) ∧
      (item.Decodes ↔ (item.unkeyed options).Decodes) ∧
        ∀ p, Holds {} item p ↔
          Holds (Group.passedOn (item.key options)) (item.unkeyed options) p := by
  obtain ⟨ignoreScope, ignoreConditions⟩ := options
  cases item with
  | encoded text =>
      have hkey : Group.passedOn (key ⟨ignoreScope, ignoreConditions⟩ (.encoded text)) = {} := by
        simp [Group.passedOn, key, inherited]
      rw [hkey]
      refine ⟨fun h => ⟨h, ?_⟩, Iff.rfl, fun p => Iff.rfl⟩
      simp [key, inherited, Permission.conditionsDistinct_none]
  | leaf q =>
      refine ⟨?_, ?_, ?_⟩
      · intro h
        cases h with
        | leaf hq =>
            cases ignoreConditions
            · exact ⟨KeysDistinct.leaf Permission.conditionsDistinct_none, hq⟩
            · exact ⟨KeysDistinct.leaf hq, Permission.conditionsDistinct_none⟩
      · exact ⟨fun _ => Decodes.leaf _, fun _ => Decodes.leaf q⟩
      · intro p
        have hjoin : q.inherit {} = Permission.inherit
            { q with
              conditions := if ignoreConditions then q.conditions else none
              scope := if ignoreScope then q.scope else none }
            (Group.passedOn (key ⟨ignoreScope, ignoreConditions⟩ (.leaf q))) := by
          cases ignoreConditions <;> cases ignoreScope <;>
            simp [Permission.inherit, Group.passedOn, key, inherited]
        constructor
        · rintro ⟨⟩
          rw [hjoin]
          exact Holds.leaf _ _
        · rintro ⟨⟩
          rw [← hjoin]
          exact Holds.leaf _ _
  | group members conditions scope =>
      refine ⟨?_, ?_, ?_⟩
      · intro h
        obtain ⟨hm, hc⟩ := keysDistinct_group_iff.1 h
        cases ignoreConditions
        · exact ⟨KeysDistinct.group _ hm Permission.conditionsDistinct_none, hc⟩
        · exact ⟨KeysDistinct.group _ hm hc, Permission.conditionsDistinct_none⟩
      · rw [unkeyed, decodes_group_iff, decodes_group_iff]
      · intro p
        have hextend : Inheritance.extend {} conditions scope =
            (Group.passedOn (key ⟨ignoreScope, ignoreConditions⟩
              (.group members conditions scope))).extend
                (if ignoreConditions then conditions else none)
                (if ignoreScope then scope else none) := by
          cases ignoreConditions <;> cases ignoreScope <;>
            simp [Inheritance.extend, Group.passedOn, key, inherited]
        rw [unkeyed, holds_group_iff, holds_group_iff, hextend]

theorem exists_contribution
    (h : item.Decodes) :
    ∃ items, item.contribution = .ok items := by
  unfold contribution
  split
  next members =>
    rw [decodes_group_iff] at h
    exact exists_mapM_iff.2 fun m hm => exists_decode (h m hm)
  next => exact ⟨[item], rfl⟩

/-- A contribution holds what the item holds. -/
theorem contribution_spec
    {items : List Item}
    (h : item.contribution = .ok items) :
    (item.KeysDistinct → ∀ m ∈ items, m.KeysDistinct) ∧
      (item.Decodes ↔ ∀ m ∈ items, m.Decodes) ∧
        ∀ i p, Holds i item p ↔ ∃ m ∈ items, Holds i m p := by
  unfold contribution at h
  split at h
  next members =>
    rw [mapM_eq_ok_iff] at h
    refine ⟨?_, ?_, ?_⟩
    · intro hitem n hn
      obtain ⟨m, hm, hmn⟩ := exists_left_of_forall₂ h hn
      exact (decode_spec hmn).1 ((keysDistinct_group_iff.1 hitem).1 m hm)
    · rw [decodes_group_iff]
      constructor
      · intro hd n hn
        obtain ⟨m, hm, hmn⟩ := exists_left_of_forall₂ h hn
        exact (decode_spec hmn).2.1.1 (hd m hm)
      · intro hd m hm
        obtain ⟨n, hn, hmn⟩ := exists_right_of_forall₂ h hm
        exact (decode_spec hmn).2.1.2 (hd n hn)
    · intro i p
      rw [holds_group_iff, Inheritance.extend_nothing]
      constructor
      · rintro ⟨m, hm, hp⟩
        obtain ⟨n, hn, hmn⟩ := exists_right_of_forall₂ h hm
        exact ⟨n, hn, ((decode_spec hmn).2.2 i p).1 hp⟩
      · rintro ⟨n, hn, hp⟩
        obtain ⟨m, hm, hmn⟩ := exists_left_of_forall₂ h hn
        exact ⟨m, hm, ((decode_spec hmn).2.2 i p).2 hp⟩
  next =>
    cases h
    simp

/-- An item has the leaves of what it contributes under its key. -/
theorem sameLeaves_contribution
    {decoded : Item}
    {items : List Item}
    (hitem : item.KeysDistinct)
    (hdecode : item.decode = .ok decoded)
    (hitems : (decoded.unkeyed options).contribution = .ok items) :
    SameLeaves [item]
      [Group.toItem ⟨items, (decoded.key options).conditions, (decoded.key options).scope⟩] := by
  obtain ⟨hdistinct, hdecodes, hholds⟩ := decode_spec hdecode
  obtain ⟨hdistinct', hdecodes', hholds'⟩ := unkeyed_spec options decoded
  obtain ⟨hdistinct'', hdecodes'', hholds''⟩ := contribution_spec hitems
  obtain ⟨hleft, hkey⟩ := hdistinct' (hdistinct hitem)
  have hgroup : (Group.toItem
      ⟨items, (decoded.key options).conditions, (decoded.key options).scope⟩).KeysDistinct :=
    Group.keysDistinct_toItem_iff.2 ⟨hdistinct'' hleft, hkey⟩
  apply SameLeaves.of_holds_iff
  · simpa using hitem
  · simpa using hgroup
  · simp only [List.mem_singleton, forall_eq]
    rw [hdecodes, hdecodes', hdecodes'', Group.decodes_toItem_iff]
  · intro p
    simp only [List.mem_singleton, exists_eq_left]
    rw [hholds, hholds', hholds'', Group.holds_toItem_iff]
    rfl

/-! Where a contribution is placed. -/

/-- A contribution is added to the first group with its key, or makes one behind the others. -/
theorem place_cases
    (k : GroupKey)
    (items : List Item)
    (groups : List Group) :
    (∃ front g back, groups = front ++ g :: back ∧ (∀ f ∈ front, Group.sameKey f.key k = false) ∧
        Group.sameKey g.key k = true ∧
          place k items groups = front ++ g.addMembers items :: back) ∨
      ((∀ g ∈ groups, Group.sameKey g.key k = false) ∧
        place k items groups =
          groups ++ [Group.addMembers ⟨[], k.conditions, k.scope⟩ items]) := by
  induction groups with
  | nil => exact Or.inr ⟨by simp, rfl⟩
  | cons g groups ih =>
      rw [place]
      by_cases hkey : Group.sameKey g.key k = true
      · rw [if_pos hkey]
        exact Or.inl ⟨[], g, groups, rfl, by simp, hkey, rfl⟩
      · rw [if_neg hkey]
        rw [Bool.not_eq_true] at hkey
        rcases ih with ⟨front, g', back, rfl, hfront, hkey', hplace⟩ | ⟨hnone, hplace⟩
        · refine Or.inl ⟨g :: front, g', back, rfl, ?_, hkey', ?_⟩
          · exact List.forall_mem_cons.2 ⟨hkey, hfront⟩
          · rw [hplace, List.cons_append]
        · refine Or.inr ⟨List.forall_mem_cons.2 ⟨hkey, hnone⟩, ?_⟩
          rw [hplace, List.cons_append]

/-- Placing loses and invents nothing. -/
theorem sameLeaves_place
    {k : GroupKey}
    {items : List Item}
    {groups : List Group}
    (hgroups : ∀ g ∈ groups, g.toItem.KeysDistinct)
    (hitems : (Group.toItem ⟨items, k.conditions, k.scope⟩).KeysDistinct) :
    SameLeaves (groups.map Group.toItem ++ [Group.toItem ⟨items, k.conditions, k.scope⟩])
      ((place k items groups).map Group.toItem) := by
  have hdistinct : ∀ x ∈ groups.map Group.toItem, x.KeysDistinct := by
    intro x hx
    obtain ⟨g, hg, rfl⟩ := List.mem_map.1 hx
    exact hgroups g hg
  rcases place_cases k items groups with
    ⟨front, g, back, rfl, -, hkey, hplace⟩ | ⟨-, hplace⟩
  · rw [hplace]
    simp only [List.map_append, List.map_cons] at hdistinct ⊢
    obtain ⟨hfront, hrest⟩ := List.forall_mem_append.1 hdistinct
    obtain ⟨hg, hback⟩ := List.forall_mem_cons.1 hrest
    -- the group and the contribution stand side by side, and become one group
    have hothers : SameLeaves (front.map Group.toItem ++ back.map Group.toItem)
        (front.map Group.toItem ++ back.map Group.toItem) :=
      SameLeaves.of_mem_iff (List.forall_mem_append.2 ⟨hfront, hback⟩) fun x => Iff.rfl
    have hmerged := hothers.append (Group.sameLeaves_addMembers hg hitems hkey)
    refine (SameLeaves.of_mem_iff ?_ ?_).trans (hmerged.trans ?_)
    · exact List.forall_mem_append.2 ⟨hdistinct, by simpa using hitems⟩
    · intro x
      simp only [List.mem_append, List.mem_cons, List.not_mem_nil, or_false]
      tauto
    · refine SameLeaves.of_mem_iff hmerged.distinct_right ?_
      intro x
      simp only [List.mem_append, List.mem_cons, List.not_mem_nil, or_false]
      tauto
  · rw [hplace, List.map_append]
    have hempty : (Group.toItem ⟨[], k.conditions, k.scope⟩).KeysDistinct :=
      Group.keysDistinct_toItem_iff.2
        ⟨by simp, (Group.keysDistinct_toItem_iff.1 hitems).2⟩
    have hkey : Group.sameKey (Group.key ⟨[], k.conditions, k.scope⟩) k = true := by
      rw [Group.sameKey, Bool.and_eq_true, beq_iff_eq]
      exact ⟨rfl, Permission.sameConditions_refl (Group.keysDistinct_toItem_iff.1 hitems).2⟩
    have hgroups' : SameLeaves (groups.map Group.toItem) (groups.map Group.toItem) :=
      SameLeaves.of_mem_iff hdistinct fun x => Iff.rfl
    have hone : SameLeaves [Group.toItem ⟨items, k.conditions, k.scope⟩]
        [Group.toItem ⟨[], k.conditions, k.scope⟩,
          Group.toItem ⟨items, k.conditions, k.scope⟩] := by
      apply SameLeaves.of_holds_iff
      · simpa using hitems
      · simpa using ⟨hempty, hitems⟩
      · simp [Group.decodes_toItem_iff]
      · simp [Group.holds_toItem_iff]
    exact hgroups'.append (hone.trans (Group.sameLeaves_addMembers hempty hitems hkey))

/-! One step, and a whole run. -/

theorem exists_regroup
    (options : GroupOptions)
    (groups : List Group)
    (h : item.Decodes) :
    ∃ groups', regroup options groups item = .ok groups' := by
  obtain ⟨decoded, hdecoded⟩ := exists_decode h
  obtain ⟨-, hdecodes, -⟩ := decode_spec hdecoded
  obtain ⟨-, hdecodes', -⟩ := unkeyed_spec options decoded
  obtain ⟨items, hitems⟩ := exists_contribution (hdecodes'.1 (hdecodes.1 h))
  refine ⟨place (decoded.key options) items groups, ?_⟩
  simp only [regroup, hdecoded, hitems, bind, Except.bind, pure, Except.pure]

theorem regroup_eq_ok_iff
    {groups groups' : List Group} :
    regroup options groups item = .ok groups' ↔
      ∃ decoded items, item.decode = .ok decoded ∧
        (decoded.unkeyed options).contribution = .ok items ∧
          place (decoded.key options) items groups = groups' := by
  unfold regroup
  cases hdecoded : item.decode with
  | error e =>
      constructor
      · rintro ⟨⟩
      · rintro ⟨_, _, ⟨⟩, _⟩
  | ok decoded =>
      cases hitems : (decoded.unkeyed options).contribution with
      | error e =>
          constructor
          · intro h
            simp only [bind, Except.bind, hitems] at h
            cases h
          · rintro ⟨_, items, ⟨⟩, h, -⟩
            rw [hitems] at h
            cases h
      | ok items =>
          constructor
          · intro h
            simp only [bind, Except.bind, hitems, pure, Except.pure, Except.ok.injEq] at h
            exact ⟨decoded, items, rfl, hitems, h⟩
          · rintro ⟨_, items', ⟨⟩, h, rfl⟩
            rw [hitems] at h
            cases h
            simp only [bind, Except.bind, hitems, pure, Except.pure]

/-- One step keeps the leaves of what was grouped so far and adds those of the item. -/
theorem sameLeaves_regroup
    {done : List Item}
    {groups groups' : List Group}
    (hdone : SameLeaves done (groups.map Group.toItem))
    (hitem : item.KeysDistinct)
    (h : regroup options groups item = .ok groups') :
    SameLeaves (done ++ [item]) (groups'.map Group.toItem) := by
  obtain ⟨decoded, items, hdecoded, hitems, rfl⟩ := regroup_eq_ok_iff.1 h
  have hcontribution := sameLeaves_contribution hitem hdecoded hitems
  refine (hdone.append hcontribution).trans (sameLeaves_place ?_ ?_)
  · intro g hg
    exact hdone.distinct_right _ (List.mem_map_of_mem hg)
  · exact hcontribution.distinct_right _ (List.mem_singleton_self _)

theorem sameLeaves_foldlM_regroup
    {done items : List Item}
    {groups groups' : List Group}
    (hdone : SameLeaves done (groups.map Group.toItem))
    (hitems : ∀ item ∈ items, item.KeysDistinct)
    (h : items.foldlM (regroup options) groups = .ok groups') :
    SameLeaves (done ++ items) (groups'.map Group.toItem) := by
  induction items generalizing done groups with
  | nil =>
      cases h
      simpa using hdone
  | cons item items ih =>
      obtain ⟨hitem, hrest⟩ := List.forall_mem_cons.1 hitems
      rw [List.foldlM_cons] at h
      cases hstep : regroup options groups item with
      | error e => rw [hstep] at h; cases h
      | ok groups'' =>
          rw [hstep] at h
          have hrun := ih (sameLeaves_regroup hdone hitem hstep) hrest h
          rwa [List.append_assoc, List.singleton_append] at hrun

theorem exists_foldlM_regroup
    {items : List Item}
    (groups : List Group)
    (h : ∀ item ∈ items, item.Decodes) :
    ∃ groups', items.foldlM (regroup options) groups = .ok groups' := by
  induction items generalizing groups with
  | nil => exact ⟨groups, rfl⟩
  | cons item items ih =>
      obtain ⟨hitem, hrest⟩ := List.forall_mem_cons.1 h
      obtain ⟨groups', hstep⟩ := exists_regroup options groups hitem
      rw [List.foldlM_cons, hstep]
      exact ih groups' hrest

/-- The groups of a list have its leaves. -/
theorem sameLeaves_collect
    {items : List Item}
    {groups : List Group}
    (hitems : ∀ item ∈ items, item.KeysDistinct)
    (h : collect options items = .ok groups) :
    SameLeaves items (groups.map Group.toItem) := by
  have hnil : SameLeaves [] (List.map Group.toItem []) :=
    SameLeaves.of_mem_iff (by simp) fun x => Iff.rfl
  exact sameLeaves_foldlM_regroup hnil hitems h

/-- **Grouping keeps the leaves.**  It fails only where flattening fails.  The groups flatten
exactly when the items do, and then each flat list holds what the other holds, up to order,
multiplicity and the order of keys. -/
theorem flatten_collect
    (options : GroupOptions)
    {items : List Item}
    (hitems : ∀ item ∈ items, item.KeysDistinct) :
    (∀ e, collect options items = .error e → ∃ e', flatten items = .error e') ∧
      ∀ groups, collect options items = .ok groups →
        ((∃ qs, flatten (groups.map Group.toItem) = .ok qs) ↔ ∃ ps, flatten items = .ok ps) ∧
          ∀ ps qs, flatten items = .ok ps → flatten (groups.map Group.toItem) = .ok qs →
            (∀ p ∈ ps, ∃ q ∈ qs, p.same q = true) ∧ ∀ q ∈ qs, ∃ p ∈ ps, q.same p = true := by
  refine ⟨?_, ?_⟩
  · intro e he
    cases hflat : flatten items with
    | error e' => exact ⟨e', rfl⟩
    | ok ps =>
        have hgroups : ∃ groups, collect options items = .ok groups :=
          exists_foldlM_regroup [] (exists_flatten_iff.1 ⟨ps, hflat⟩)
        obtain ⟨groups, hgroups⟩ := hgroups
        rw [hgroups] at he
        cases he
  · intro groups hgroups
    have hsame := sameLeaves_collect hitems hgroups
    refine ⟨?_, ?_⟩
    · rw [exists_flatten_iff, exists_flatten_iff]
      exact hsame.decodes.symm
    · intro ps qs hps hqs
      exact ⟨hsame.flatten hps hqs, hsame.symm.flatten hqs hps⟩

/-- Two grants whose conditions differ in the order of their keys. -/
def reordered : List Item :=
  [.leaf { subjects := ["doc"], actions := ["read"],
           conditions := some [("a", .null), ("b", .bool true)] },
    .leaf { subjects := ["doc"], actions := ["write"],
            conditions := some [("b", .bool true), ("a", .null)] }]

theorem keysDistinct_reordered : ∀ item ∈ reordered, item.KeysDistinct := by
  have hfirst : Permission.ConditionsDistinct (some [("a", .null), ("b", .bool true)]) := by
    rw [Permission.conditionsDistinct_some_iff, Json.keysDistinct_object_iff]
    exact ⟨by decide, by simp [Json.KeysDistinct]⟩
  have hsecond : Permission.ConditionsDistinct (some [("b", .bool true), ("a", .null)]) := by
    rw [Permission.conditionsDistinct_some_iff, Json.keysDistinct_object_iff]
    exact ⟨by decide, by simp [Json.KeysDistinct]⟩
  simp only [reordered, List.forall_mem_cons, List.not_mem_nil, false_imp_iff, implies_true,
    and_true]
  exact ⟨KeysDistinct.leaf hfirst, KeysDistinct.leaf hsecond⟩

theorem flatten_collect_reordered :
    (∀ item ∈ reordered, item.KeysDistinct) ∧
      ∃ g ps qs, collect {} reordered = .ok [g] ∧ flatten reordered = .ok ps ∧
        flatten [g.toItem] = .ok qs ∧ (∀ p ∈ ps, ∃ q ∈ qs, p.same q = true) ∧
          ∀ q ∈ qs, ∃ p ∈ ps, q.same p = true := by
  obtain ⟨-, hok⟩ := flatten_collect {} keysDistinct_reordered
  obtain ⟨hflat, hleaves⟩ := hok _ rfl
  obtain ⟨qs, hqs⟩ := hflat.2 ⟨_, rfl⟩
  exact ⟨keysDistinct_reordered, _, _, qs, rfl, rfl, hqs, hleaves _ _ rfl hqs⟩

end Item
end Warrant
