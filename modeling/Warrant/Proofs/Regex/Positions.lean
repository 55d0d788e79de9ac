import Warrant.Regex.Reader

/-!
# Positions reached by regular expressions

An expression takes a set of positions, held as the bits of a number, to the set of positions
where matches end.  This module says which bits the answer has: for one character of a class, for
a repeated class, and for a branch that was put together item by item, with the size of the branch.

**Results.**
* `testBit_ends_char`: one character leads from a position to the next one.
* `testBit_ends_star`: a repeated class leads as far as its characters go on.
* `ends_branch`: a branch passes the positions through its items in order.
* `size_branch`: a branch has the size of its items together.
-/

namespace Warrant
namespace Regex

theorem testBit_toNat_add_zero (b : Bool) (n : Nat) : (b.toNat + 2 * n).testBit 0 = b := by
  cases b <;> simp [Nat.testBit_zero, Nat.add_mod]

theorem testBit_toNat_add_succ (b : Bool) (n i : Nat) :
    (b.toNat + 2 * n).testBit (i + 1) = n.testBit i := by
  have h : (b.toNat + 2 * n) / 2 = n := by
    have := Bool.toNat_le b
    omega
  rw [Nat.testBit_add_one, h]

/-- A bit is set in front of each character that passes the test. -/
theorem testBit_positionsOf (test : Char → Bool) (text : List Char) (i : Nat) :
    (positionsOf test text).testBit i = text[i]?.any test := by
  induction text generalizing i with
  | nil => simp [positionsOf]
  | cons c rest ih =>
      cases i with
      | zero => rw [positionsOf, testBit_toNat_add_zero]; rfl
      | succ i => rw [positionsOf, testBit_toNat_add_succ, ih]; rfl

theorem positionsBetween_textStart_some (c : Char) (text : List Char) :
    positionsBetween (Anchor.allows .textStart) (some c) text = 0 := by
  induction text generalizing c with
  | nil => rfl
  | cons d rest ih => simp [positionsBetween, ih, Anchor.allows]

/-- The start of the text is its first position. -/
theorem positionsBetween_textStart (text : List Char) :
    positionsBetween (Anchor.allows .textStart) none text = 1 := by
  cases text with
  | nil => rfl
  | cons c rest => simp [positionsBetween, positionsBetween_textStart_some, Anchor.allows]

section Classes

variable (text : List Char) (ignoreCase : Bool) (k : CharClass)

/-- All characters between two positions are in a class. -/
def Run (i j : Nat) : Prop :=
  ∀ n, i ≤ n → n < j → text[n]?.any (k.holds ignoreCase) = true

theorem testBit_ends_char (s j : Nat) :
    (ends text (.char ignoreCase k) s).testBit j = true ↔
      ∃ i, j = i + 1 ∧ s.testBit i = true ∧ text[i]?.any (k.holds ignoreCase) = true := by
  cases j with
  | zero => simp [ends, Nat.testBit_zero]
  | succ i =>
      have h : 2 * (s &&& positionsOf (k.holds ignoreCase) text) / 2 =
          s &&& positionsOf (k.holds ignoreCase) text := by omega
      rw [ends, Nat.testBit_add_one, h, Nat.testBit_and, testBit_positionsOf, Bool.and_eq_true]
      constructor
      · intro hb
        exact ⟨i, rfl, hb⟩
      · rintro ⟨i', hi, hb⟩
        cases hi
        exact hb

variable {text ignoreCase k}

theorem Run.refl (i : Nat) : Run text ignoreCase k i i := by
  intro n h1 h2
  omega

theorem Run.cons
    {i j : Nat}
    (hi : text[i]?.any (k.holds ignoreCase) = true)
    (hr : Run text ignoreCase k (i + 1) j) :
    Run text ignoreCase k i j := by
  intro n h1 h2
  by_cases h : n = i
  · subst h
    exact hi
  · exact hr n (by omega) h2

theorem Run.tail {i j : Nat} (hr : Run text ignoreCase k i j) :
    Run text ignoreCase k (i + 1) j :=
  fun n h1 h2 => hr n (by omega) h2

theorem Run.le_length {i j : Nat} (hr : Run text ignoreCase k i j) (h : i < j) :
    j ≤ text.length := by
  have hlast := hr (j - 1) (by omega) (by omega)
  by_cases hj : j - 1 < text.length
  · omega
  · rw [List.getElem?_eq_none (by omega)] at hlast
    cases hlast

/-- The positions of one more round of a repeated class. -/
theorem testBit_or_ends_char (s j : Nat) :
    (s ||| ends text (.char ignoreCase k) s).testBit j = true ↔
      s.testBit j = true ∨
        ∃ i, j = i + 1 ∧ s.testBit i = true ∧ text[i]?.any (k.holds ignoreCase) = true := by
  rw [Nat.testBit_or, Bool.or_eq_true, testBit_ends_char]

/-- A set that a round does not change is closed under runs. -/
theorem testBit_of_run
    {s : Nat}
    (hs : (s ||| ends text (.char ignoreCase k) s) = s)
    {i d : Nat}
    (hi : s.testBit i = true)
    (hr : Run text ignoreCase k i (i + d)) :
    s.testBit (i + d) = true := by
  induction d with
  | zero => exact hi
  | succ d ih =>
      have hd := ih fun n h1 h2 => hr n h1 (by omega)
      rw [← hs]
      exact (testBit_or_ends_char s _).2
        (Or.inr ⟨i + d, rfl, hd, hr (i + d) (by omega) (by omega)⟩)

/-- After `n` rounds a repeated class has gone on for up to `n` characters. -/
theorem testBit_rounds_char (n s j : Nat) :
    (rounds (fun t => t ||| ends text (.char ignoreCase k) t) n s).testBit j = true ↔
      ∃ i, i ≤ j ∧ j ≤ i + n ∧ s.testBit i = true ∧ Run text ignoreCase k i j := by
  induction n generalizing s with
  | zero =>
      constructor
      · intro h
        exact ⟨j, Nat.le_refl j, Nat.le_refl j, h, Run.refl j⟩
      · rintro ⟨i, h1, h2, hb, _⟩
        obtain rfl : i = j := by omega
        exact hb
  | succ n ih =>
      rw [rounds]
      split
      · next hs =>
          constructor
          · intro h
            exact ⟨j, Nat.le_refl j, by omega, h, Run.refl j⟩
          · rintro ⟨i, h1, _, hb, hr⟩
            obtain ⟨d, rfl⟩ := Nat.exists_eq_add_of_le h1
            exact testBit_of_run hs hb hr
      · rw [ih]
        constructor
        · rintro ⟨i, h1, h2, hb, hr⟩
          rcases (testBit_or_ends_char s i).1 hb with hb | ⟨i', rfl, hb, hc⟩
          · exact ⟨i, h1, by omega, hb, hr⟩
          · exact ⟨i', by omega, by omega, hb, Run.cons hc hr⟩
        · rintro ⟨i, h1, h2, hb, hr⟩
          by_cases hj : j ≤ i + n
          · exact ⟨i, h1, hj, (testBit_or_ends_char s i).2 (Or.inl hb), hr⟩
          · have hc := hr i (Nat.le_refl i) (by omega)
            exact ⟨i + 1, by omega, by omega,
              (testBit_or_ends_char s _).2 (Or.inr ⟨i, rfl, hb, hc⟩), hr.tail⟩

/-- A class repeated at will leads as far as its characters go on. -/
theorem testBit_ends_star (s j : Nat) :
    (ends text (.repetition (.char ignoreCase k) 0 none) s).testBit j = true ↔
      ∃ i, i ≤ j ∧ s.testBit i = true ∧ Run text ignoreCase k i j := by
  have h : ends text (.repetition (.char ignoreCase k) 0 none) s =
      rounds (fun t => t ||| ends text (.char ignoreCase k) t) (text.length + 1) s := rfl
  rw [h, testBit_rounds_char]
  constructor
  · rintro ⟨i, h1, _, hb, hr⟩
    exact ⟨i, h1, hb, hr⟩
  · rintro ⟨i, h1, hb, hr⟩
    refine ⟨i, h1, ?_, hb, hr⟩
    rcases Nat.lt_or_eq_of_le h1 with hlt | rfl
    · have := hr.le_length hlt
      omega
    · omega

end Classes

/-- The positions behind an item of a branch. -/
def itemEnds (text : List Char) (item : Option Regex) (s : Nat) : Nat :=
  match item with
  | some r => ends text r s
  | none => s

theorem ends_before (text : List Char) (later : Regex) (item : Option Regex) (s : Nat) :
    ends text (Level.before later item) s = ends text later (itemEnds text item s) := by
  cases item with
  | none => rfl
  | some r =>
      by_cases hl : later = .empty
      · simp [Level.before, hl, itemEnds, ends]
      · simp [Level.before, hl, itemEnds, ends]

/-- A branch passes the positions through its items, the one read first in front. -/
theorem ends_branch (text : List Char) (l : Level) (s : Nat) :
    ends text l.branch s = l.items.foldr (itemEnds text) s := by
  have h : ∀ (items : List (Option Regex)) (later : Regex),
      ends text (items.foldl Level.before later) s =
        ends text later (items.foldr (itemEnds text) s) := by
    intro items
    induction items with
    | nil => intro later; rfl
    | cons item rest ih =>
        intro later
        rw [List.foldl_cons, ih, ends_before, List.foldr_cons]
  exact h l.items .empty

/-! Sizes. -/

theorem size_before (later : Regex) (item : Option Regex) :
    (Level.before later item).size = item.elim 0 size + later.size := by
  cases item with
  | none => simp [Level.before]
  | some r =>
      by_cases hl : later = .empty
      · simp [Level.before, hl, size]
      · simp [Level.before, hl, size]

/-- A branch has the size of its items together. -/
theorem size_branch (l : Level) :
    l.branch.size = l.items.foldr (fun item n => item.elim 0 size + n) 0 := by
  have h : ∀ (items : List (Option Regex)) (later : Regex),
      (items.foldl Level.before later).size =
        items.foldr (fun item n => item.elim 0 size + n) 0 + later.size := by
    intro items
    induction items with
    | nil => intro later; simp
    | cons item rest ih =>
        intro later
        rw [List.foldl_cons, ih, size_before, List.foldr_cons, ← Nat.add_assoc,
          Nat.add_comm (item.elim 0 size)]
  exact h l.items .empty

end Regex
end Warrant
