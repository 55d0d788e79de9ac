import Warrant.Proofs.Transform.Leaves

/-!
# Items with the same leaves

Two lists of items have the same leaves if they decode alike and every permission that the one
holds is the same as one that the other holds, without regard to order and multiplicity.  Lists
in which no conditions hold a key twice are compared so by an equivalence that respects `++`.

**Results.**
* `SameLeaves.symm`, `SameLeaves.trans`, `SameLeaves.append`: the equivalence and its congruence.
* `SameLeaves.flatten`: what it says about flat lists.
-/

namespace Warrant
namespace Item

/-- Lists of items without repeated keys that decode alike and hold the same permissions. -/
structure SameLeaves (xs ys : List Item) : Prop where
  distinct_left : ∀ x ∈ xs, x.KeysDistinct
  distinct_right : ∀ y ∈ ys, y.KeysDistinct
  decodes : (∀ x ∈ xs, x.Decodes) ↔ ∀ y ∈ ys, y.Decodes
  left : ∀ x ∈ xs, ∀ p, Holds {} x p → ∃ y ∈ ys, ∃ q, Holds {} y q ∧ p.same q = true
  right : ∀ y ∈ ys, ∀ q, Holds {} y q → ∃ x ∈ xs, ∃ p, Holds {} x p ∧ q.same p = true

namespace SameLeaves

variable {xs ys zs : List Item}

theorem symm
    (h : SameLeaves xs ys) :
    SameLeaves ys xs :=
  ⟨h.distinct_right, h.distinct_left, h.decodes.symm, h.right, h.left⟩

/-- Lists with the same items have the same leaves. -/
theorem of_mem_iff
    (hxs : ∀ x ∈ xs, x.KeysDistinct)
    (hmem : ∀ x, x ∈ xs ↔ x ∈ ys) :
    SameLeaves xs ys := by
  have hys : ∀ y ∈ ys, y.KeysDistinct := fun y hy => hxs y ((hmem y).2 hy)
  refine ⟨hxs, hys, ?_, ?_, ?_⟩
  · exact forall_congr' fun x => imp_congr_left (hmem x)
  · intro x hx p hp
    exact ⟨x, (hmem x).1 hx, p, hp,
      Permission.same_refl (hp.keysDistinct Inheritance.keysDistinct_nothing (hxs x hx))⟩
  · intro y hy q hq
    exact ⟨y, (hmem y).2 hy, q, hq,
      Permission.same_refl (hq.keysDistinct Inheritance.keysDistinct_nothing (hys y hy))⟩

/-- Lists that hold exactly the same permissions have the same leaves. -/
theorem of_holds_iff
    (hxs : ∀ x ∈ xs, x.KeysDistinct)
    (hys : ∀ y ∈ ys, y.KeysDistinct)
    (hdecodes : (∀ x ∈ xs, x.Decodes) ↔ ∀ y ∈ ys, y.Decodes)
    (hholds : ∀ p, (∃ x ∈ xs, Holds {} x p) ↔ ∃ y ∈ ys, Holds {} y p) :
    SameLeaves xs ys := by
  refine ⟨hxs, hys, hdecodes, ?_, ?_⟩
  · intro x hx p hp
    obtain ⟨y, hy, hq⟩ := (hholds p).1 ⟨x, hx, hp⟩
    exact ⟨y, hy, p, hq,
      Permission.same_refl (hp.keysDistinct Inheritance.keysDistinct_nothing (hxs x hx))⟩
  · intro y hy q hq
    obtain ⟨x, hx, hp⟩ := (hholds q).2 ⟨y, hy, hq⟩
    exact ⟨x, hx, q, hp,
      Permission.same_refl (hq.keysDistinct Inheritance.keysDistinct_nothing (hys y hy))⟩

theorem left_trans
    (hxy : SameLeaves xs ys)
    (hyz : SameLeaves ys zs) :
    ∀ x ∈ xs, ∀ p, Holds {} x p → ∃ z ∈ zs, ∃ r, Holds {} z r ∧ p.same r = true := by
  intro x hx p hp
  obtain ⟨y, hy, q, hq, hpq⟩ := hxy.left x hx p hp
  obtain ⟨z, hz, r, hr, hqr⟩ := hyz.left y hy q hq
  have hnothing := Inheritance.keysDistinct_nothing
  refine ⟨z, hz, r, hr, Permission.same_trans ?_ ?_ ?_ hpq hqr⟩
  · exact hp.keysDistinct hnothing (hxy.distinct_left x hx)
  · exact hq.keysDistinct hnothing (hxy.distinct_right y hy)
  · exact hr.keysDistinct hnothing (hyz.distinct_right z hz)

theorem trans
    (hxy : SameLeaves xs ys)
    (hyz : SameLeaves ys zs) :
    SameLeaves xs zs :=
  ⟨hxy.distinct_left, hyz.distinct_right, hxy.decodes.trans hyz.decodes, left_trans hxy hyz,
    left_trans hyz.symm hxy.symm⟩

theorem left_append
    {xs' ys' : List Item}
    (h : SameLeaves xs ys)
    (h' : SameLeaves xs' ys') :
    ∀ x ∈ xs ++ xs', ∀ p, Holds {} x p →
      ∃ y ∈ ys ++ ys', ∃ q, Holds {} y q ∧ p.same q = true := by
  intro x hx p hp
  rcases List.mem_append.1 hx with hx | hx
  · obtain ⟨y, hy, hq⟩ := h.left x hx p hp
    exact ⟨y, List.mem_append_left ys' hy, hq⟩
  · obtain ⟨y, hy, hq⟩ := h'.left x hx p hp
    exact ⟨y, List.mem_append_right ys hy, hq⟩

theorem append
    {xs' ys' : List Item}
    (h : SameLeaves xs ys)
    (h' : SameLeaves xs' ys') :
    SameLeaves (xs ++ xs') (ys ++ ys') := by
  refine ⟨?_, ?_, ?_, left_append h h', left_append h.symm h'.symm⟩
  · exact List.forall_mem_append.2 ⟨h.distinct_left, h'.distinct_left⟩
  · exact List.forall_mem_append.2 ⟨h.distinct_right, h'.distinct_right⟩
  · rw [List.forall_mem_append, List.forall_mem_append, h.decodes, h'.decodes]

/-- The flat list of the one holds what that of the other does, up to the order of keys. -/
theorem flatten
    (h : SameLeaves xs ys)
    {ps qs : List Permission}
    (hps : Item.flatten xs = .ok ps)
    (hqs : Item.flatten ys = .ok qs) :
    ∀ p ∈ ps, ∃ q ∈ qs, p.same q = true := by
  intro p hp
  obtain ⟨x, hx, hp⟩ := (mem_flatten_iff hps).1 hp
  obtain ⟨y, hy, q, hq, hpq⟩ := h.left x hx p hp
  exact ⟨q, (mem_flatten_iff hqs).2 ⟨y, hy, hq⟩, hpq⟩

end SameLeaves

end Item
end Warrant
