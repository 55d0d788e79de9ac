import Warrant.Proofs.Text.Runs

/-!
# Pieces of a text

A text that is divided at a separator falls into pieces without it, and pieces without the
separator that are joined by it are found again.  Both ends of the joined text are ends of pieces.

**Results.**
* `not_mem_of_mem_splitOn`: the separator stands in no piece.
* `stops_joined`, `stops_reverse_joined`: how a joined text begins and ends.
-/

namespace Warrant
namespace Text

variable {x c : Char} {t piece : List Char} {pieces : List (List Char)}

theorem joined_cons
    (x : Char)
    (piece : List Char)
    (pieces : List (List Char)) :
    [x].intercalate (piece :: pieces) = piece ++ pieces.flatMap (x :: ·) := by
  induction pieces generalizing piece with
  | nil => rw [List.intercalate_singleton, List.flatMap_nil, List.append_nil]
  | cons next pieces ih =>
      rw [List.intercalate_cons_cons, ih, List.flatMap_cons]
      simp only [List.append_assoc, List.cons_append, List.nil_append]

theorem mem_joined
    (hpiece : piece ∈ pieces)
    (hc : c ∈ piece) :
    c ∈ [x].intercalate pieces := by
  cases pieces with
  | nil => cases hpiece
  | cons first pieces =>
      rw [joined_cons]
      rcases List.mem_cons.1 hpiece with rfl | hrest
      · exact List.mem_append_left _ hc
      · apply List.mem_append_right
        exact List.mem_flatMap.2 ⟨piece, hrest, List.mem_cons_of_mem x hc⟩

theorem eq_or_mem_of_mem_joined
    (hc : c ∈ [x].intercalate pieces) :
    c = x ∨ ∃ piece ∈ pieces, c ∈ piece := by
  cases pieces with
  | nil => cases hc
  | cons first pieces =>
      rw [joined_cons] at hc
      rcases List.mem_append.1 hc with hc | hc
      · exact Or.inr ⟨first, List.mem_cons_self, hc⟩
      · obtain ⟨piece, hpiece, hc⟩ := List.mem_flatMap.1 hc
        rcases List.mem_cons.1 hc with rfl | hc
        · exact Or.inl rfl
        · exact Or.inr ⟨piece, List.mem_cons_of_mem first hpiece, hc⟩

theorem count_flatMap_cons
    {pieces : List (List Char)} {n : Nat}
    (hc : c ≠ x)
    (h : ∀ piece ∈ pieces, piece.count c = n) :
    (pieces.flatMap (x :: ·)).count c = pieces.length * n := by
  induction pieces with
  | nil => simp
  | cons piece pieces ih =>
      obtain ⟨hpiece, hpieces⟩ := List.forall_mem_cons.1 h
      rw [List.flatMap_cons, List.count_append, List.count_cons_of_ne hc.symm, hpiece, ih hpieces,
        List.length_cons, Nat.succ_mul, Nat.add_comm]

/-- How often a character stands in joined pieces in each of which it stands equally often. -/
theorem count_joined
    {pieces : List (List Char)} {n : Nat}
    (hc : c ≠ x)
    (h : ∀ piece ∈ pieces, piece.count c = n) :
    ([x].intercalate pieces).count c = pieces.length * n := by
  cases pieces with
  | nil => simp
  | cons piece pieces =>
      obtain ⟨hpiece, hpieces⟩ := List.forall_mem_cons.1 h
      rw [joined_cons, List.count_append, hpiece, count_flatMap_cons hc hpieces, List.length_cons,
        Nat.succ_mul, Nat.add_comm]

/-- Pieces that begin other ones, joined, begin these. -/
theorem joined_prefix_append
    (x : Char)
    (pieces more : List (List Char)) :
    [x].intercalate pieces <+: [x].intercalate (pieces ++ more) := by
  cases pieces with
  | nil => exact List.nil_prefix
  | cons piece pieces =>
      rw [List.cons_append, joined_cons, joined_cons, List.flatMap_append, ← List.append_assoc]
      exact List.prefix_append _ _

/-- The first piece begins the text. -/
theorem prefix_of_splitOn
    (h : t.splitOn x = piece :: pieces) :
    piece <+: t := by
  have hjoined : [x].intercalate (t.splitOn x) = t := List.intercalate_splitOn x
  rw [← hjoined, h, joined_cons]
  exact List.prefix_append _ _

/-- The first piece of a text that does not begin with a blank begins like the text, also without
its blanks. -/
theorem stops_trim_of_splitOn
    {p : Char → Bool}
    (hsplit : t.splitOn x = piece :: pieces)
    (hblank : Stops isBlank t)
    (ht : Stops p t) :
    Stops p (trim piece) := by
  have hprefix := prefix_of_splitOn hsplit
  have htrim := trim_isPrefix (stops_of_isPrefix hprefix hblank)
  exact stops_of_isPrefix (htrim.trans hprefix) ht

/-- A piece is a part of the text. -/
theorem mem_of_mem_splitOn
    (hpiece : piece ∈ t.splitOn x)
    (hc : c ∈ piece) :
    c ∈ t := by
  have hjoined : [x].intercalate (t.splitOn x) = t := List.intercalate_splitOn x
  rw [← hjoined]
  exact mem_joined hpiece hc

/-- The separator stands in no piece. -/
theorem not_mem_of_mem_splitOn
    (hpiece : piece ∈ t.splitOn x) :
    x ∉ piece := by
  induction t generalizing piece with
  | nil =>
      rw [List.splitOn_nil, List.mem_singleton] at hpiece
      rw [hpiece]
      exact List.not_mem_nil
  | cons d t ih =>
      rw [List.splitOn_cons_eq_if_modifyHead] at hpiece
      split at hpiece
      · rcases List.mem_cons.1 hpiece with rfl | hpiece
        · exact List.not_mem_nil
        · exact ih hpiece
      next hd =>
        obtain ⟨first, pieces, hsplit⟩ := List.exists_cons_of_ne_nil (List.splitOn_ne_nil x t)
        rw [hsplit] at hpiece ih
        rcases List.mem_cons.1 hpiece with rfl | hpiece
        · intro hx
          rcases List.mem_cons.1 hx with rfl | hx
          · exact hd (beq_self_eq_true x)
          · exact ih List.mem_cons_self hx
        · exact ih (List.mem_cons_of_mem first hpiece)

/-- A joined text begins like its first piece. -/
theorem stops_joined
    {p : Char → Bool}
    (hne : piece ≠ [])
    (hpiece : Stops p piece)
    (x : Char)
    (pieces : List (List Char)) :
    Stops p ([x].intercalate (piece :: pieces)) := by
  rw [joined_cons]
  exact stops_append hne hpiece

/-- A joined text ends like its last piece. -/
theorem stops_reverse_joined
    {p : Char → Bool}
    (hpieces : pieces ≠ [])
    (h : ∀ piece ∈ pieces, piece ≠ [] ∧ Stops p piece.reverse)
    (x : Char) :
    [x].intercalate pieces ≠ [] ∧ Stops p ([x].intercalate pieces).reverse := by
  induction pieces with
  | nil => exact absurd rfl hpieces
  | cons piece pieces ih =>
      cases pieces with
      | nil =>
          rw [List.intercalate_singleton]
          exact h piece List.mem_cons_self
      | cons next pieces =>
          obtain ⟨hne, hstops⟩ := ih (List.cons_ne_nil next pieces)
            (fun q hq => h q (List.mem_cons_of_mem piece hq))
          rw [List.intercalate_cons_cons, List.reverse_append]
          constructor
          · exact List.append_ne_nil_of_right_ne_nil _ hne
          · exact stops_append (List.reverse_ne_nil_iff.2 hne) hstops

end Text
end Warrant
