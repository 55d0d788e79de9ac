import Mathlib.Data.List.Induction
import Warrant.Proofs.Transform.Grouping

/-!
# The groups as a normal form

On its own, every item makes one group: its key with what it contributes under that key.  Grouping
a list gathers these.  There is one group for each key, in the order in which the keys first
occur, and its members are what was contributed under the key, in order and each one once.  No
member is an undecoded text.  So the groups, grouped again, make themselves: each has nothing left
under its key but its members, and there is nothing to gather.

To keep what occurs for the first time is `List.eraseDupsBy`.  Gathering appends one group after
the other, so the induction is on the list from its end, with one more group as the step.

**Results.**
* `eraseDupsBy_concat`: first occurrences, with one more item behind the others.
* `members_addMembers`: a group's members are first occurrences.
* `stripped_of_alone`, `alone_of_stripped`: the group that an item makes on its own is stripped,
  and a stripped group makes itself.
* `Gathered.place`, `gathered_gather`: one step of gathering, and a whole run.
* `gather_of_pairwise`, `collect_toItem`: what gathering and grouping leave as it is.
* `collect_eq_gather`: grouping gathers what the items make on their own.
* `collect_normalForm`: the groups of a list.
-/

namespace Warrant

/-! First occurrences. -/

section FirstOccurrences

variable {α : Type} {r : α → α → Bool} {xs : List α}

/-- One more item is kept unless it repeats one that was kept. -/
theorem eraseDupsBy_concat
    (r : α → α → Bool)
    (xs : List α)
    (x : α) :
    (xs ++ [x]).eraseDupsBy r =
      if (xs.eraseDupsBy r).any (r x) then xs.eraseDupsBy r else xs.eraseDupsBy r ++ [x] := by
  induction hn : xs.length using Nat.strongRecOn generalizing xs with
  | ind n ih =>
      cases xs with
      | nil => simp [List.eraseDupsBy_cons]
      | cons first xs =>
          rw [List.cons_append, List.eraseDupsBy_cons, List.eraseDupsBy_cons, List.filter_append]
          by_cases hx : r x first = true
          · simp [hx]
          · -- what repeats the first item is gone from the rest
            have hlength : (xs.filter fun y => r y first = false).length < n := by
              rw [← hn, List.length_cons]
              exact Nat.lt_succ_of_le (List.length_filter_le _ _)
            rw [Bool.not_eq_true] at hx
            have hrest := ih _ hlength _ rfl
            simp only [hx, decide_true, List.filter_cons_of_pos, List.filter_nil, hrest,
              List.any_cons, Bool.false_or]
            split <;> rfl

theorem mem_of_mem_eraseDupsBy
    {x : α}
    (h : x ∈ xs.eraseDupsBy r) :
    x ∈ xs := by
  induction xs using List.reverseRecOn with
  | nil => simp at h
  | append_singleton xs last ih =>
      rw [eraseDupsBy_concat] at h
      split at h
      · exact List.mem_append_left _ (ih h)
      · rcases List.mem_append.1 h with h | h
        · exact List.mem_append_left _ (ih h)
        · exact List.mem_append_right _ h

/-- Every item repeats one that is kept. -/
theorem exists_mem_eraseDupsBy
    (hr : ∀ x ∈ xs, r x x = true)
    {x : α} (hx : x ∈ xs) :
    ∃ y ∈ xs.eraseDupsBy r, r x y = true := by
  induction xs using List.reverseRecOn with
  | nil => simp at hx
  | append_singleton xs last ih =>
      obtain ⟨hinit, hlast⟩ := List.forall_mem_append.1 hr
      rw [eraseDupsBy_concat]
      rcases List.mem_append.1 hx with hx | hx
      · obtain ⟨y, hy, hxy⟩ := ih hinit hx
        refine ⟨y, ?_, hxy⟩
        split
        · exact hy
        · exact List.mem_append_left _ hy
      · rw [List.mem_singleton] at hx
        subst hx
        split
        next hany => exact List.any_eq_true.1 hany
        next =>
          have hself := List.mem_singleton_self x
          exact ⟨x, List.mem_append_right _ hself, hlast x hself⟩

/-- No item that is kept repeats an earlier one. -/
theorem pairwise_eraseDupsBy
    (r : α → α → Bool)
    (xs : List α) :
    (xs.eraseDupsBy r).Pairwise fun x y => r y x = false := by
  induction xs using List.reverseRecOn with
  | nil => simp
  | append_singleton xs last ih =>
      rw [eraseDupsBy_concat]
      split
      · exact ih
      next hany =>
        refine List.pairwise_append.2 ⟨ih, List.pairwise_singleton _ _, ?_⟩
        intro x hx y hy
        rw [List.mem_singleton] at hy
        subst hy
        rw [Bool.not_eq_true, List.any_eq_false] at hany
        simpa using hany x hx

/-- Where nothing repeats an earlier item, everything is kept. -/
theorem eraseDupsBy_of_pairwise
    (h : xs.Pairwise fun x y => r y x = false) :
    xs.eraseDupsBy r = xs := by
  induction xs using List.reverseRecOn with
  | nil => rfl
  | append_singleton xs last ih =>
      obtain ⟨hinit, -, hlast⟩ := List.pairwise_append.1 h
      have hnone : xs.any (r last) = false :=
        List.any_eq_false.2 fun x hx => by simp [hlast x hx last (List.mem_singleton_self last)]
      rw [eraseDupsBy_concat, ih hinit, hnone]
      rfl

end FirstOccurrences

/-! Keys. -/

namespace Group

variable {k l m : GroupKey}

theorem sameKey_iff :
    sameKey k l = true ↔
      k.scope = l.scope ∧ Permission.sameConditions k.conditions l.conditions = true := by
  simp [sameKey]

theorem sameKey_refl
    (hk : Permission.ConditionsDistinct k.conditions) :
    sameKey k k = true :=
  sameKey_iff.2 ⟨rfl, Permission.sameConditions_refl hk⟩

theorem sameKey_symm
    (hk : Permission.ConditionsDistinct k.conditions)
    (hl : Permission.ConditionsDistinct l.conditions)
    (h : sameKey k l = true) :
    sameKey l k = true := by
  obtain ⟨hscope, hconditions⟩ := sameKey_iff.1 h
  exact sameKey_iff.2 ⟨hscope.symm, Permission.sameConditions_symm hk hl hconditions⟩

theorem sameKey_trans
    (hk : Permission.ConditionsDistinct k.conditions)
    (hl : Permission.ConditionsDistinct l.conditions)
    (hm : Permission.ConditionsDistinct m.conditions)
    (hkl : sameKey k l = true)
    (hlm : sameKey l m = true) :
    sameKey k m = true := by
  obtain ⟨hscope, hconditions⟩ := sameKey_iff.1 hkl
  obtain ⟨hscope', hconditions'⟩ := sameKey_iff.1 hlm
  exact sameKey_iff.2 ⟨hscope.trans hscope',
    Permission.sameConditions_trans hk hl hm hconditions hconditions'⟩

/-- A group is its key and its members. -/
theorem ext_of_key
    {g h : Group}
    (hkey : g.key = h.key)
    (hmembers : g.members = h.members) :
    g = h := by
  obtain ⟨members, conditions, scope⟩ := g
  obtain ⟨members', conditions', scope'⟩ := h
  cases hmembers
  cases hkey
  rfl

/-! Members. -/

/-- A group keeps what occurs for the first time. -/
theorem members_addMembers
    {g : Group} {xs : List Item} (hg : g.members = xs.eraseDupsBy Item.same)
    (items : List Item) :
    (g.addMembers items).members = (xs ++ items).eraseDupsBy Item.same := by
  induction items generalizing g xs with
  | nil => simpa [addMembers] using hg
  | cons item items ih =>
      rw [addMembers_cons, ← List.singleton_append, ← List.append_assoc]
      refine ih ?_
      rw [eraseDupsBy_concat, addMember, hg]
      split
      · exact hg
      · rfl

/-! A new group for a key. -/

theorem key_addMembers_nil
    (k : GroupKey)
    (items : List Item) :
    (addMembers ⟨[], k.conditions, k.scope⟩ items).key = k :=
  key_addMembers _ items

theorem members_addMembers_nil
    (k : GroupKey)
    (items : List Item) :
    (addMembers ⟨[], k.conditions, k.scope⟩ items).members = items.eraseDupsBy Item.same :=
  @members_addMembers ⟨[], k.conditions, k.scope⟩ [] rfl items

end Group

/-! The group that an item makes on its own. -/

/-- A group with decoded members, under a key without what is ignored. -/
structure Group.Stripped (options : GroupOptions) (g : Group) : Prop where
  conditions : options.ignoreConditions = true → g.conditions = none
  scope : options.ignoreScope = true → g.scope = none
  decoded : ∀ m ∈ g.members, ∀ text, m ≠ .encoded text

namespace Item

variable {options : GroupOptions}

/-- The group that an item makes on its own. -/
def alone (options : GroupOptions) (item : Item) : Except PermissionError Group := do
  let item ← item.decode
  let members ← (item.unkeyed options).contribution
  return ⟨members, (item.key options).conditions, (item.key options).scope⟩

theorem alone_eq_ok_iff
    {item : Item} {part : Group} :
    item.alone options = .ok part ↔
      ∃ decoded members, item.decode = .ok decoded ∧
        (decoded.unkeyed options).contribution = .ok members ∧
          ⟨members, (decoded.key options).conditions, (decoded.key options).scope⟩ = part := by
  simp only [alone, bind_eq_ok_iff, pure, Except.pure, Except.ok.injEq, exists_and_left]

theorem ne_encoded_of_decode
    {item decoded : Item}
    (h : item.decode = .ok decoded)
    (text : String) :
    decoded ≠ .encoded text := by
  cases item with
  | encoded text' =>
      obtain ⟨p, -, rfl⟩ := exists_of_map_eq_ok h
      exact nofun
  | leaf p =>
      cases h
      exact nofun
  | group members conditions scope =>
      cases h
      exact nofun

theorem decode_of_ne_encoded
    {item : Item}
    (h : ∀ text, item ≠ .encoded text) :
    item.decode = .ok item := by
  cases item with
  | encoded text => exact absurd rfl (h text)
  | leaf p => rfl
  | group members conditions scope => rfl

/-- What a decoded item contributes is decoded. -/
theorem ne_encoded_of_mem_contribution
    {decoded : Item} (hdecoded : ∀ text, decoded ≠ .encoded text)
    {members : List Item} (h : (decoded.unkeyed options).contribution = .ok members) :
    ∀ m ∈ members, ∀ text, m ≠ .encoded text := by
  unfold contribution at h
  split at h
  next inner hinner =>
    intro m hm
    obtain ⟨m', -, hm'⟩ := exists_left_of_forall₂ (mapM_eq_ok_iff.1 h) hm
    exact ne_encoded_of_decode hm'
  next =>
    cases h
    rw [List.forall_mem_singleton]
    cases decoded with
    | encoded text => exact absurd rfl (hdecoded text)
    | leaf p => exact nofun
    | group inner conditions scope => exact nofun

theorem stripped_of_alone
    {item : Item} {part : Group}
    (h : item.alone options = .ok part) :
    part.Stripped options := by
  obtain ⟨decoded, members, hdecoded, hmembers, rfl⟩ := alone_eq_ok_iff.1 h
  refine ⟨?_, ?_, ne_encoded_of_mem_contribution (ne_encoded_of_decode hdecoded) hmembers⟩
  · intro hignore
    simp only [key, hignore, if_true]
  · intro hignore
    simp only [key, hignore, if_true]

theorem conditionsDistinct_of_alone
    {item : Item} (hitem : item.KeysDistinct)
    {part : Group} (h : item.alone options = .ok part) :
    Permission.ConditionsDistinct part.key.conditions := by
  obtain ⟨decoded, members, hdecoded, -, rfl⟩ := alone_eq_ok_iff.1 h
  exact ((unkeyed_spec options decoded).1 ((decode_spec hdecoded).1 hitem)).2

/-- A stripped group makes itself. -/
theorem alone_of_stripped
    {g : Group}
    (h : g.Stripped options) :
    g.toItem.alone options = .ok g := by
  have hunkeyed : g.toItem.unkeyed options = .group g.members none none := by
    simp only [Group.toItem, unkeyed, Item.group.injEq, true_and]
    constructor
    · split
      · exact h.conditions ‹_›
      · rfl
    · split
      · exact h.scope ‹_›
      · rfl
  have hkey : g.toItem.key options = g.key := by
    simp only [Group.toItem, key, inherited, Group.key, GroupKey.mk.injEq]
    constructor
    · split
      · exact (h.conditions ‹_›).symm
      · rfl
    · split
      · exact (h.scope ‹_›).symm
      · rfl
  refine alone_eq_ok_iff.2 ⟨g.toItem, g.members, rfl, ?_, ?_⟩
  · rw [hunkeyed, contribution, mapM_eq_ok_iff, List.forall₂_same]
    exact fun m hm => decode_of_ne_encoded (h.decoded m hm)
  · rw [hkey]
    rfl

end Item

/-! Gathering groups. -/

/-- Some groups gathered: one group for each key, with what stands under it. -/
structure Group.Gathered (parts groups : List Group) : Prop where
  keys : groups.map Group.key =
    (parts.map Group.key).eraseDupsBy fun new old => Group.sameKey old new
  members : ∀ g ∈ groups, g.members =
    ((parts.filter fun part => Group.sameKey g.key part.key).flatMap
      Group.members).eraseDupsBy Item.same

namespace Group

variable {parts groups : List Group} {part : Group}

/-- Gathers the members of groups with the same key. -/
def gather (parts : List Group) : List Group :=
  parts.foldl (fun groups part => Item.place part.key part.members groups) []

theorem map_key_concat
    (parts : List Group)
    (part : Group) :
    (parts ++ [part]).map key = parts.map key ++ [part.key] := by
  simp

theorem gather_concat
    (parts : List Group)
    (part : Group) :
    gather (parts ++ [part]) = Item.place part.key part.members (gather parts) := by
  simp [gather]

theorem Gathered.pairwise
    (h : Gathered parts groups) :
    groups.Pairwise fun g h => sameKey g.key h.key = false := by
  have hkeys := pairwise_eraseDupsBy (fun new old => sameKey old new) (parts.map Group.key)
  rw [← h.keys] at hkeys
  exact List.pairwise_map.1 hkeys

/-- The key of a group is that of one of the gathered groups. -/
theorem Gathered.exists_key_eq
    (h : Gathered parts groups)
    {g : Group} (hg : g ∈ groups) :
    ∃ p ∈ parts, p.key = g.key := by
  have hkey := List.mem_map_of_mem (f := Group.key) hg
  rw [h.keys] at hkey
  exact List.mem_map.1 (mem_of_mem_eraseDupsBy hkey)

/-- A member of a group is one of the gathered members. -/
theorem Gathered.exists_mem_members
    (h : Gathered parts groups)
    {g : Group} (hg : g ∈ groups)
    {m : Item} (hm : m ∈ g.members) :
    ∃ p ∈ parts, m ∈ p.members := by
  rw [h.members g hg] at hm
  obtain ⟨p, hp, hm⟩ := List.mem_flatMap.1 (mem_of_mem_eraseDupsBy hm)
  exact ⟨p, (List.mem_filter.1 hp).1, hm⟩

theorem Gathered.conditionsDistinct
    (h : Gathered parts groups)
    (hparts : ∀ p ∈ parts, Permission.ConditionsDistinct p.key.conditions) :
    ∀ g ∈ groups, Permission.ConditionsDistinct g.key.conditions := by
  intro g hg
  obtain ⟨p, hp, hpg⟩ := h.exists_key_eq hg
  rw [← hpg]
  exact hparts p hp

theorem Gathered.stripped
    {options : GroupOptions}
    (h : Gathered parts groups)
    (hparts : ∀ p ∈ parts, p.Stripped options) :
    ∀ g ∈ groups, g.Stripped options := by
  intro g hg
  obtain ⟨p, hp, hpg⟩ := h.exists_key_eq hg
  have hconditions : p.conditions = g.conditions := congrArg GroupKey.conditions hpg
  have hscope : p.scope = g.scope := congrArg GroupKey.scope hpg
  refine ⟨?_, ?_, ?_⟩
  · rw [← hconditions]
    exact (hparts p hp).conditions
  · rw [← hscope]
    exact (hparts p hp).scope
  · intro m hm
    obtain ⟨p', hp', hm⟩ := h.exists_mem_members hg hm
    exact (hparts p' hp').decoded m hm

/-- A group takes nothing from one with another key. -/
theorem Gathered.members_of_other
    (h : Gathered parts groups)
    {g : Group} (hg : g ∈ groups)
    (hother : sameKey g.key part.key = false) :
    g.members = (((parts ++ [part]).filter fun p => sameKey g.key p.key).flatMap
      Group.members).eraseDupsBy Item.same := by
  rw [List.filter_append, List.filter_singleton, hother, h.members g hg]
  simp

/-- The groups behind one with some key have other keys. -/
theorem Gathered.sameKey_of_mem_back
    {front back : List Group} {g : Group}
    (h : Gathered parts (front ++ g :: back))
    (hgroups : ∀ g' ∈ front ++ g :: back, Permission.ConditionsDistinct g'.key.conditions)
    (hpart : Permission.ConditionsDistinct part.key.conditions)
    (hkey : sameKey g.key part.key = true) :
    ∀ g' ∈ back, sameKey g'.key part.key = false := by
  intro g' hg'
  have hmem : g' ∈ front ++ g :: back := by simp [hg']
  by_contra hsame
  rw [Bool.not_eq_false] at hsame
  have hsymm := sameKey_symm (hgroups g' hmem) hpart hsame
  have htrans := sameKey_trans (hgroups g (by simp)) hpart (hgroups g' hmem) hkey hsymm
  have hne := (List.pairwise_cons.1 (List.pairwise_append.1 h.pairwise).2.1).1 g' hg'
  rw [hne] at htrans
  cases htrans

/-- Nothing was gathered under a key that no group has. -/
theorem Gathered.sameKey_of_mem
    (h : Gathered parts groups)
    (hparts : ∀ p ∈ parts, Permission.ConditionsDistinct p.key.conditions)
    (hpart : Permission.ConditionsDistinct part.key.conditions)
    (hnone : ∀ g ∈ groups, sameKey g.key part.key = false) :
    ∀ p ∈ parts, sameKey part.key p.key = false := by
  intro p hp
  by_contra hsame
  rw [Bool.not_eq_false] at hsame
  have hrefl : ∀ k ∈ parts.map Group.key, sameKey k k = true :=
    List.forall_mem_map.2 fun p hp => sameKey_refl (hparts p hp)
  obtain ⟨k, hk, hkp⟩ :=
    exists_mem_eraseDupsBy (r := fun new old => sameKey old new) hrefl (List.mem_map_of_mem hp)
  rw [← h.keys] at hk
  obtain ⟨g, hg, rfl⟩ := List.mem_map.1 hk
  have hsymm := sameKey_symm hpart (hparts p hp) hsame
  have htrans :=
    sameKey_trans (h.conditionsDistinct hparts g hg) (hparts p hp) hpart hkp hsymm
  rw [hnone g hg] at htrans
  cases htrans

/-- One more group is gathered. -/
theorem Gathered.place
    (h : Gathered parts groups)
    (hparts : ∀ p ∈ parts ++ [part], Permission.ConditionsDistinct p.key.conditions) :
    Gathered (parts ++ [part]) (Item.place part.key part.members groups) := by
  obtain ⟨hearlier, hpart⟩ := List.forall_mem_append.1 hparts
  have hpart := hpart part (List.mem_singleton_self part)
  rcases Item.place_cases part.key part.members groups with
    ⟨front, g, back, rfl, hfront, hkey, hplace⟩ | ⟨hnone, hplace⟩
  · -- the group with the key takes the members, and no other group has the key
    have hback := h.sameKey_of_mem_back (h.conditionsDistinct hearlier) hpart hkey
    rw [hplace]
    constructor
    · have hany : ((front ++ g :: back).map Group.key).any (sameKey · part.key) = true :=
        List.any_eq_true.2 ⟨g.key, List.mem_map_of_mem (by simp), hkey⟩
      rw [map_key_concat, eraseDupsBy_concat, ← h.keys, hany]
      simp [key_addMembers]
    · intro g' hg'
      rw [List.mem_append, List.mem_cons] at hg'
      rcases hg' with hg' | rfl | hg'
      · exact h.members_of_other (by simp [hg']) (hfront g' hg')
      · rw [members_addMembers (h.members g (by simp)), key_addMembers, List.filter_append,
          List.filter_singleton, hkey]
        simp
      · exact h.members_of_other (by simp [hg']) (hback g' hg')
  · have hnew := h.sameKey_of_mem hearlier hpart hnone
    rw [hplace]
    constructor
    · have hany : (groups.map Group.key).any (sameKey · part.key) = false :=
        List.any_eq_false.2 (List.forall_mem_map.2 fun g hg => by simp [hnone g hg])
      rw [map_key_concat, map_key_concat, eraseDupsBy_concat, ← h.keys, hany, key_addMembers_nil]
      rfl
    · intro g' hg'
      rcases List.mem_append.1 hg' with hg' | hg'
      · exact h.members_of_other hg' (hnone g' hg')
      · rw [List.mem_singleton] at hg'
        subst hg'
        have hempty : (parts.filter fun p => sameKey part.key p.key) = [] :=
          List.filter_eq_nil_iff.2 fun p hp => by simp [hnew p hp]
        rw [key_addMembers_nil, members_addMembers_nil, List.filter_append,
          List.filter_singleton, hempty, sameKey_refl hpart]
        simp

theorem gathered_gather
    (hparts : ∀ p ∈ parts, Permission.ConditionsDistinct p.key.conditions) :
    Gathered parts (gather parts) := by
  induction parts using List.reverseRecOn with
  | nil => exact ⟨rfl, by simp [gather]⟩
  | append_singleton parts part ih =>
      rw [gather_concat]
      exact (ih (List.forall_mem_append.1 hparts).1).place hparts

/-- Groups with keys of their own, without repeated members, are gathered already. -/
theorem gather_of_pairwise
    (hkeys : groups.Pairwise fun g h => sameKey g.key h.key = false)
    (hmembers : ∀ g ∈ groups, g.members.Pairwise fun m n => n.same m = false) :
    gather groups = groups := by
  induction groups using List.reverseRecOn with
  | nil => rfl
  | append_singleton groups g ih =>
      obtain ⟨hfront, -, hlast⟩ := List.pairwise_append.1 hkeys
      obtain ⟨hinit, hg⟩ := List.forall_mem_append.1 hmembers
      have hself := List.mem_singleton_self g
      rw [gather_concat, ih hfront hinit]
      rcases Item.place_cases g.key g.members groups with
        ⟨front, g', back, rfl, -, hkey, -⟩ | ⟨-, hplace⟩
      · rw [hlast g' (by simp) g hself] at hkey
        cases hkey
      · have hsame : addMembers ⟨[], g.key.conditions, g.key.scope⟩ g.members = g := by
          apply ext_of_key
          · exact key_addMembers_nil g.key g.members
          · rw [members_addMembers_nil, eraseDupsBy_of_pairwise (hg g hself)]
        rw [hplace, hsame]

end Group

namespace Item

/-- An item is grouped as the group that it makes on its own. -/
theorem regroup_eq
    (options : GroupOptions)
    (groups : List Group)
    (item : Item) :
    regroup options groups item =
      (alone options item).map fun part => place part.key part.members groups := by
  unfold regroup alone
  cases item.decode with
  | error e => rfl
  | ok decoded =>
      simp only [bind, Except.bind]
      cases (decoded.unkeyed options).contribution <;> rfl

theorem foldlM_regroup_eq
    (options : GroupOptions)
    (items : List Item)
    (groups : List Group) :
    items.foldlM (regroup options) groups = (items.mapM (alone options)).map
      (List.foldl (fun groups part => place part.key part.members groups) groups) := by
  induction items generalizing groups with
  | nil => rfl
  | cons item items ih =>
      rw [List.foldlM_cons, List.mapM_cons, regroup_eq]
      cases alone options item with
      | error e => rfl
      | ok part =>
          refine (ih (place part.key part.members groups)).trans ?_
          cases items.mapM (alone options) <;> rfl

/-- Grouping gathers the groups that the items make on their own. -/
theorem collect_eq_gather
    (options : GroupOptions)
    (items : List Item) :
    collect options items = (items.mapM (alone options)).map Group.gather :=
  foldlM_regroup_eq options items []

/-- Stripped groups with keys of their own, without repeated members, are grouped already. -/
theorem collect_toItem
    {options : GroupOptions}
    {groups : List Group}
    (hstripped : ∀ g ∈ groups, g.Stripped options)
    (hkeys : groups.Pairwise fun g h => Group.sameKey g.key h.key = false)
    (hmembers : ∀ g ∈ groups, g.members.Pairwise fun m n => n.same m = false) :
    collect options (groups.map Group.toItem) = .ok groups := by
  have halone : (groups.map Group.toItem).mapM (alone options) = .ok groups := by
    rw [mapM_eq_ok_iff, List.forall₂_map_left_iff, List.forall₂_same]
    exact fun g hg => alone_of_stripped (hstripped g hg)
  rw [collect_eq_gather, halone, Except.map, Group.gather_of_pairwise hkeys hmembers]

/-- **The groups are a normal form.**  There is one group for each key of the items, in the order
in which the keys first occur, and its members are what the items contribute under its key, each
once and in the order of its first occurrence.  No two groups have the same key, no group has a
member twice or a member that is an undecoded text, and the groups grouped again are
themselves. -/
theorem collect_normalForm
    (options : GroupOptions)
    {items : List Item} (hitems : ∀ item ∈ items, item.KeysDistinct)
    {groups : List Group} (h : collect options items = .ok groups) :
    (∃ parts, items.mapM (alone options) = .ok parts ∧ Group.Gathered parts groups) ∧
      groups.Pairwise (fun g h => Group.sameKey g.key h.key = false) ∧
        (∀ g ∈ groups, g.members.Pairwise (fun m n => n.same m = false) ∧
          ∀ m ∈ g.members, ∀ text, m ≠ .encoded text) ∧
            collect options (groups.map Group.toItem) = .ok groups := by
  rw [collect_eq_gather] at h
  obtain ⟨parts, hparts, rfl⟩ := exists_of_map_eq_ok h
  have halone := mapM_eq_ok_iff.1 hparts
  have hdistinct : ∀ p ∈ parts, Permission.ConditionsDistinct p.key.conditions := by
    intro p hp
    obtain ⟨item, hitem, hp⟩ := exists_left_of_forall₂ halone hp
    exact conditionsDistinct_of_alone (hitems item hitem) hp
  have hstripped : ∀ p ∈ parts, p.Stripped options := by
    intro p hp
    obtain ⟨item, -, hp⟩ := exists_left_of_forall₂ halone hp
    exact stripped_of_alone hp
  have hgathered := Group.gathered_gather hdistinct
  have hgroups := hgathered.stripped hstripped
  have hmembers : ∀ g ∈ Group.gather parts, g.members.Pairwise fun m n => n.same m = false := by
    intro g hg
    rw [hgathered.members g hg]
    exact pairwise_eraseDupsBy same _
  exact ⟨⟨parts, hparts, hgathered⟩, hgathered.pairwise,
    fun g hg => ⟨hmembers g hg, (hgroups g hg).decoded⟩,
    collect_toItem hgroups hgathered.pairwise hmembers⟩

/-- Grants of an organisation, spelled in several ways, around one that holds anywhere. -/
def scatteredGrants : List Item :=
  [.leaf { subjects := ["doc"], actions := ["read"],
           conditions := some [("active", .bool true), ("team", .null)]
           scope := some ⟨[⟨"org", some "1"⟩]⟩ },
    .encoded "doc:list",
    .group [.encoded "doc:write", .encoded "doc:read"]
      (some [("team", .null), ("active", .bool true)])
      (some ⟨[⟨"org", some "1"⟩]⟩),
    .leaf { subjects := ["doc"], actions := ["list"] }]

theorem keysDistinct_scatteredGrants : ∀ item ∈ scatteredGrants, item.KeysDistinct := by
  have hfirst : Permission.ConditionsDistinct
      (some [("active", .bool true), ("team", .null)]) := by
    rw [Permission.conditionsDistinct_some_iff, Json.keysDistinct_object_iff]
    exact ⟨by decide, by simp [Json.KeysDistinct]⟩
  have hlater : Permission.ConditionsDistinct
      (some [("team", .null), ("active", .bool true)]) := by
    rw [Permission.conditionsDistinct_some_iff, Json.keysDistinct_object_iff]
    exact ⟨by decide, by simp [Json.KeysDistinct]⟩
  simp only [scatteredGrants, List.forall_mem_cons, keysDistinct_group_iff]
  exact ⟨KeysDistinct.leaf hfirst, KeysDistinct.encoded _,
    ⟨⟨KeysDistinct.encoded _, KeysDistinct.encoded _, by simp⟩, hlater⟩,
    KeysDistinct.leaf Permission.conditionsDistinct_none, by simp⟩

/-- The grants of the organisation in one group. -/
def organisationGrants : Group where
  members := [.leaf ⟨["doc"], ["read"], .can, none, none⟩,
    .leaf ⟨["doc"], ["write"], .can, none, none⟩]
  conditions := some [("active", .bool true), ("team", .null)]
  scope := some ⟨[⟨"org", some "1"⟩]⟩

/-- The grants that hold anywhere in one group. -/
def grantsAnywhere : Group where
  members := [.leaf ⟨["doc"], ["list"], .can, none, none⟩]

/-- The nested group dissolves into the group of the first grant, which keeps its order of keys,
and what repeats a grant is dropped. -/
theorem collect_normalForm_scatteredGrants :
    (∀ item ∈ scatteredGrants, item.KeysDistinct) ∧
      collect {} scatteredGrants = .ok [organisationGrants, grantsAnywhere] ∧
        collect {} [organisationGrants.toItem, grantsAnywhere.toItem] =
          .ok [organisationGrants, grantsAnywhere] := by
  have hparts : scatteredGrants.mapM (alone {}) = .ok
      [⟨[.leaf ⟨["doc"], ["read"], .can, none, none⟩],
          some [("active", .bool true), ("team", .null)], some ⟨[⟨"org", some "1"⟩]⟩⟩,
        grantsAnywhere,
        ⟨[.leaf ⟨["doc"], ["write"], .can, none, none⟩,
            .leaf ⟨["doc"], ["read"], .can, none, none⟩],
          some [("team", .null), ("active", .bool true)], some ⟨[⟨"org", some "1"⟩]⟩⟩,
        grantsAnywhere] := rfl
  have hcollect : collect {} scatteredGrants = .ok [organisationGrants, grantsAnywhere] := by
    rw [collect_eq_gather, hparts]
    rfl
  obtain ⟨-, -, -, hagain⟩ := collect_normalForm {} keysDistinct_scatteredGrants hcollect
  exact ⟨keysDistinct_scatteredGrants, hcollect, hagain⟩

end Item
end Warrant
