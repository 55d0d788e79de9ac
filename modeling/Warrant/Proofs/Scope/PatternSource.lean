import Warrant.Proofs.Regex.Positions
import Warrant.Proofs.Scope.Segments
import Warrant.Standard

/-!
# Scope patterns as regular expressions

The source text of a scope pattern is `^`, then each character escaped where it has to be, and
`[^:]*` for each wildcard.  This module reads that text as a regular expression and shows that
the expression matches exactly where the pattern accepts.  Together with the reading by segments
this says what a scope pattern means, from the text of the scope to the candidate.

The expression grows with the text of the scope, by ten for a wildcard and by one for any other
character, so the patterns of this library are those of all scopes below a size.

**Results.**
* `read_source`: the source text of every pattern is read, atom by atom.
* `matchesIn_sourceRegex`: the expression matches what the pattern accepts.
* `pattern_standard`: the scopes that have a pattern of this library.
* `pattern_accepts_iff_segments`: a pattern accepts by whole segments and a last one by prefix.
-/

namespace Warrant

namespace Glob

open Regex (Level Run itemEnds ends)

/-- The characters that a wildcard may stand for. -/
def withinSegment : CharClass :=
  .negated (.union .nothing (.single ':'))

/-- The expression of one character of a pattern. -/
def atom (p : Char) : Regex :=
  if p = '*' then .repetition (.char false withinSegment) 0 none else .char false (.single p)

/-- The expression of a pattern. -/
def sourceRegex (ps : List Char) : Regex :=
  Level.expression
    { flags := {}, items := (ps.map fun p => some (atom p)).reverse ++ [some (.anchor .textStart)] }

theorem members?_end (rest : List Char) (k : CharClass) :
    ∃ h, CharClass.members? (']' :: rest) none k = some (k, ⟨rest, h⟩) := by
  refine ⟨by simp, ?_⟩
  rw [CharClass.members?]
  simp [CharClass.complete]

theorem members?_delimiter (rest : List Char) :
    ∃ h, CharClass.members? (':' :: ']' :: rest) none .nothing =
      some (.union .nothing (.single ':'), ⟨rest, h⟩) := by
  refine ⟨by simp only [List.length_cons]; omega, ?_⟩
  obtain ⟨_, hend⟩ := members?_end rest (.union .nothing (.single ':'))
  rw [CharClass.members?]
  simp [CharClass.operator?, CharClass.range?, CharClass.member?, CharClass.continuesRange, hend]

theorem bracketed?_withinSegment (rest : List Char) :
    ∃ h, CharClass.bracketed? ('^' :: ':' :: ']' :: rest) = some (withinSegment, ⟨rest, h⟩) := by
  obtain ⟨h, hm⟩ := members?_delimiter rest
  refine ⟨by simp only [List.length_cons]; omega, ?_⟩
  -- The class is read behind its marks; they are computed in the type of the rest.
  let s := '^' :: ':' :: ']' :: rest
  have hs : CharClass.members? (CharClass.leading (CharClass.complementMark s).2).2 none
      (CharClass.leading (CharClass.complementMark s).2).1 =
        some (.union .nothing (.single ':'), ⟨rest, h⟩) := hm
  rw [CharClass.bracketed?, hs]
  rfl

section Reading

variable {l : Level} (hl : l.flags.ignoreCase = false)
include hl

theorem read_wildcard
    {rest : List Char}
    (hrest : rest.head? ≠ some '?') :
    Regex.read [] [] l ('[' :: '^' :: ':' :: ']' :: '*' :: rest) =
      Regex.read [] [] (l.push (atom '*')) rest := by
  obtain ⟨h, hb⟩ := bracketed?_withinSegment ('*' :: rest)
  have hskip : Regex.skipLazy rest = rest := by
    unfold Regex.skipLazy
    split
    · exact absurd rfl hrest
    · rfl
  rw [Regex.read]
  simp only [hb, Char.reduceEq, if_false, if_true, or_self]
  rw [Regex.read]
  simp [Regex.quantifier?, Level.repeatLast, Level.push, hskip, hl, atom]

theorem escapeAtom?_special
    {c : Char}
    (hc : isSpecial c = true)
    (rest : List Char) :
    ∃ h, Regex.escapeAtom? l.flags (c :: rest) =
      some (.char false (.single c), ⟨rest, h⟩) := by
  refine ⟨by simp, ?_⟩
  simp only [isSpecial, List.contains_eq_mem, List.mem_cons, List.not_mem_nil, or_false,
    decide_eq_true_eq] at hc
  rcases hc with rfl | rfl | rfl | rfl | rfl | rfl | rfl | rfl | rfl | rfl | rfl | rfl | rfl |
      rfl | rfl | rfl | rfl | rfl <;>
    simp [Regex.escapeAtom?, Regex.anchorEscape?, CharClass.escape?, CharClass.classEscape?,
      CharClass.numberWidth?, CharClass.charEscape?, CharClass.isEscapable, CharClass.isMeta, hl]

/-- A character of a pattern is read back as its expression. -/
theorem read_sourceChar
    (p : Char)
    {rest : List Char}
    (hrest : rest.head? ≠ some '?') :
    Regex.read [] [] l (sourceChar p ++ rest) = Regex.read [] [] (l.push (atom p)) rest := by
  by_cases hp : p = '*'
  · subst hp
    exact read_wildcard hl hrest
  · cases hs : isSpecial p with
    | true =>
        obtain ⟨h, he⟩ := escapeAtom?_special hl hs rest
        have hsource : sourceChar p = ['\\', p] := by simp [sourceChar, hp, hs]
        rw [hsource, List.cons_append, Regex.read]
        simp [he, atom, hp]
    | false =>
        have hsource : sourceChar p = [p] := by simp [sourceChar, hp, hs]
        simp [isSpecial] at hs
        rw [hsource, List.cons_append, Regex.read]
        simp [hs, Regex.atomOf, hl, atom]

end Reading

/-- No source text begins with a mark that would make the repetition before it lazy. -/
theorem head?_flatMap_sourceChar (ps : List Char) : (ps.flatMap sourceChar).head? ≠ some '?' := by
  cases ps with
  | nil => simp
  | cons p ps =>
      by_cases hp : p = '*'
      · simp [sourceChar, hp]
      · cases hs : isSpecial p with
        | true => simp [sourceChar, hp, hs]
        | false =>
            have hq : p ≠ '?' := by
              rintro rfl
              revert hs
              decide
            simp [sourceChar, hp, hs, hq]

theorem read_flatMap_sourceChar
    (ps : List Char)
    (l : Level)
    (hl : l.flags.ignoreCase = false) :
    Regex.read [] [] l (ps.flatMap sourceChar) =
      some { l with items := (ps.map fun p => some (atom p)).reverse ++ l.items }.expression := by
  induction ps generalizing l with
  | nil => simp [Regex.read]
  | cons p ps ih =>
      rw [List.flatMap_cons, read_sourceChar hl p (head?_flatMap_sourceChar ps),
        ih (l.push (atom p)) hl]
      simp [Level.push]

/-- **The source text of a pattern is read, atom by atom.** -/
theorem read_source (g : Glob) :
    Regex.read [] [] { flags := {} } g.source.toList = some (sourceRegex g.chars) := by
  have hstart : Regex.read [] [] { flags := {} } ('^' :: g.chars.flatMap sourceChar) =
      Regex.read [] [] { flags := {}, items := [some (.anchor .textStart)] }
        (g.chars.flatMap sourceChar) := by
    rw [Regex.read]
    simp [Regex.atomOf, Level.push]
  rw [source, String.toList_ofList, hstart, read_flatMap_sourceChar _ _ rfl]
  rfl

/-! ### The size of the expression -/

theorem size_atom (p : Char) : (atom p).size = if p = '*' then 10 else 1 := by
  unfold atom
  split <;> rfl

/-- A wildcard counts ten times. -/
theorem size_sourceRegex (ps : List Char) :
    (sourceRegex ps).size = ps.length + 9 * ps.count '*' + 1 := by
  have hatoms : ∀ n, ps.foldl (fun n p => (atom p).size + n) n =
      ps.length + 9 * ps.count '*' + n := by
    induction ps with
    | nil => intro n; simp
    | cons p ps ih =>
        intro n
        rw [List.foldl_cons, ih, size_atom, List.length_cons, List.count_cons]
        by_cases hp : p = '*' <;> simp [hp] <;> omega
  simp only [sourceRegex, Level.expression, Regex.size_branch, List.foldr_append, List.foldr_cons,
    List.foldr_nil, List.foldr_reverse, List.foldl_map, Option.elim_some, Regex.size, hatoms]

/-! ### Where the expression matches -/

section Matching

variable (text : List Char)

theorem holds_withinSegment (c : Char) : withinSegment.holds false c = (c != ':') := by
  have h : (':' ≤ c && c ≤ ':') = (c == ':') := by
    rw [Bool.eq_iff_iff]
    simp only [Bool.and_eq_true, decide_eq_true_eq, beq_iff_eq]
    exact ⟨fun h => Char.le_antisymm h.2 h.1, fun h => h ▸ ⟨Char.le_refl _, Char.le_refl _⟩⟩
  simp [withinSegment, CharClass.holds, CharClass.single, CharClass.holdsVariant, h, bne]

theorem holds_single (p c : Char) : (CharClass.single p).holds false c = (p == c) := by
  rw [Bool.eq_iff_iff]
  simp only [CharClass.single, CharClass.holds, CharClass.holdsVariant, Bool.and_eq_true,
    decide_eq_true_eq, beq_iff_eq, Bool.false_eq_true, if_false]
  exact ⟨fun h => Char.le_antisymm h.1 h.2, fun h => h ▸ ⟨Char.le_refl _, Char.le_refl _⟩⟩

/-- A wildcard goes on from a position as far as the characters stay within a segment. -/
theorem matchesHere_star_drop_iff
    (ps : List Char)
    {i : Nat}
    (hi : i ≤ text.length) :
    matchesHere ('*' :: ps) (text.drop i) = true ↔
      ∃ j, i ≤ j ∧ j ≤ text.length ∧ Run text false withinSegment i j ∧
        matchesHere ps (text.drop j) = true := by
  obtain ⟨d, hd⟩ := Nat.exists_eq_add_of_le hi
  induction d generalizing i with
  | zero =>
      have hend : text.drop i = [] := List.drop_eq_nil_of_le (by omega)
      constructor
      · intro h
        refine ⟨i, Nat.le_refl i, hi, Run.refl i, ?_⟩
        rw [hend] at h ⊢
        simpa [matchesHere, afterRun] using h
      · rintro ⟨j, h1, h2, _, h⟩
        obtain rfl : i = j := by omega
        rw [hend] at h ⊢
        simpa [matchesHere, afterRun] using h
  | succ d ih =>
      have hlt : i < text.length := by omega
      have hstep := ih (i := i + 1) (by omega) (by omega)
      rw [List.drop_eq_getElem_cons hlt, matchesHere_star_cons, Bool.or_eq_true, Bool.and_eq_true,
        hstep, ← List.drop_eq_getElem_cons hlt]
      constructor
      · rintro (h | ⟨hc, j, h1, h2, hr, h⟩)
        · exact ⟨i, Nat.le_refl i, hi, Run.refl i, h⟩
        · refine ⟨j, by omega, h2, Run.cons ?_ hr, h⟩
          rw [List.getElem?_eq_getElem hlt, Option.any_some, holds_withinSegment]
          exact hc
      · rintro ⟨j, h1, h2, hr, h⟩
        rcases Nat.lt_or_eq_of_le h1 with hij | rfl
        · refine Or.inr ⟨?_, j, by omega, h2, hr.tail, h⟩
          have hc := hr i (Nat.le_refl i) hij
          rw [List.getElem?_eq_getElem hlt, Option.any_some, holds_withinSegment] at hc
          exact hc
        · exact Or.inl h

theorem matchesHere_char_drop_iff
    {p : Char} (hp : p ≠ '*')
    (ps : List Char)
    (i : Nat) :
    matchesHere (p :: ps) (text.drop i) = true ↔
      text[i]?.any (CharClass.holds false (.single p)) = true ∧
        matchesHere ps (text.drop (i + 1)) = true := by
  by_cases hi : i < text.length
  · rw [List.drop_eq_getElem_cons hi, List.getElem?_eq_getElem hi, Option.any_some, holds_single]
    simp [matchesHere, hp]
  · rw [List.drop_eq_nil_of_le (by omega), List.getElem?_eq_none (by omega)]
    simp [matchesHere, hp]

theorem testBit_ends_char_iff
    {p : Char} (hp : p ≠ '*')
    (s j : Nat) :
    (ends text (atom p) s).testBit j = true ↔
      ∃ i, j = i + 1 ∧ s.testBit i = true ∧
        text[i]?.any (CharClass.holds false (.single p)) = true := by
  rw [atom, if_neg hp]
  exact Regex.testBit_ends_char text false (.single p) s j

theorem le_length_of_testBit_ends_char
    {p : Char} (hp : p ≠ '*')
    {s j : Nat}
    (hj : (ends text (atom p) s).testBit j = true) :
    j ≤ text.length := by
  obtain ⟨i, rfl, _, hc⟩ := (testBit_ends_char_iff text hp s j).1 hj
  by_cases hi : i < text.length
  · omega
  · rw [List.getElem?_eq_none (by omega)] at hc
    cases hc

theorem le_length_of_testBit_ends_star
    {s j : Nat}
    (hs : ∀ i, s.testBit i = true → i ≤ text.length)
    (hj : (ends text (atom '*') s).testBit j = true) :
    j ≤ text.length := by
  obtain ⟨i, h1, hb, hr⟩ := (Regex.testBit_ends_star s j).1 hj
  rcases Nat.lt_or_eq_of_le h1 with hlt | rfl
  · exact hr.le_length hlt
  · exact hs i hb

/-- The atoms of a pattern lead on from a position exactly if the pattern matches there. -/
theorem foldl_ends_atom_ne_zero_iff
    (ps : List Char)
    {s : Nat}
    (hs : ∀ i, s.testBit i = true → i ≤ text.length) :
    ps.foldl (fun t p => ends text (atom p) t) s ≠ 0 ↔
      ∃ i, s.testBit i = true ∧ matchesHere ps (text.drop i) = true := by
  induction ps generalizing s with
  | nil =>
      constructor
      · intro h
        obtain ⟨i, hi⟩ := Nat.exists_testBit_of_ne_zero h
        exact ⟨i, hi, rfl⟩
      · rintro ⟨i, hi, _⟩ h0
        rw [List.foldl_nil] at h0
        rw [h0, Nat.zero_testBit] at hi
        cases hi
  | cons p ps ih =>
      rw [List.foldl_cons]
      by_cases hp : p = '*'
      · subst hp
        have hatom : ∀ j, (ends text (atom '*') s).testBit j = true ↔
            ∃ i, i ≤ j ∧ s.testBit i = true ∧ Run text false withinSegment i j :=
          Regex.testBit_ends_star s
        have hbound : ∀ j, (ends text (atom '*') s).testBit j = true → j ≤ text.length :=
          fun j hj => le_length_of_testBit_ends_star text hs hj
        rw [ih hbound]
        constructor
        · rintro ⟨j, hj, h⟩
          obtain ⟨i, h1, hb, hr⟩ := (hatom j).1 hj
          exact ⟨i, hb, (matchesHere_star_drop_iff text ps (hs i hb)).2
            ⟨j, h1, hbound j hj, hr, h⟩⟩
        · rintro ⟨i, hb, h⟩
          obtain ⟨j, h1, _, hr, h⟩ := (matchesHere_star_drop_iff text ps (hs i hb)).1 h
          exact ⟨j, (hatom j).2 ⟨i, h1, hb, hr⟩, h⟩
      · have hatom := testBit_ends_char_iff text hp s
        rw [ih fun j hj => le_length_of_testBit_ends_char text hp hj]
        constructor
        · rintro ⟨j, hj, h⟩
          obtain ⟨i, rfl, hb, hc⟩ := (hatom j).1 hj
          exact ⟨i, hb, (matchesHere_char_drop_iff text hp ps i).2 ⟨hc, h⟩⟩
        · rintro ⟨i, hb, h⟩
          obtain ⟨hc, h⟩ := (matchesHere_char_drop_iff text hp ps i).1 h
          exact ⟨i + 1, (hatom _).2 ⟨i, rfl, hb, hc⟩, h⟩

end Matching

/-- **The expression matches what the pattern accepts.** -/
theorem matchesIn_sourceRegex (g : Glob) (text : String) :
    (sourceRegex g.chars).matchesIn text = g.accepts text := by
  have hends : ends text.toList (sourceRegex g.chars) (2 ^ (text.toList.length + 1) - 1) =
      g.chars.foldl (fun t p => ends text.toList (atom p) t) 1 := by
    have hstart : ends text.toList (.anchor .textStart)
        (2 ^ (text.toList.length + 1) - 1) = 1 := by
      simp only [ends, Regex.positionsBetween_textStart]
      rw [Nat.and_one_is_mod, Nat.two_pow_succ]
      have := Nat.two_pow_pos text.toList.length
      omega
    simp only [sourceRegex, Level.expression, Regex.ends_branch, List.foldr_append,
      List.foldr_cons, List.foldr_nil, List.foldr_reverse, List.foldl_map, itemEnds, hstart]
  have hone : ∀ i, (1 : Nat).testBit i = true → i ≤ text.toList.length := by
    intro i hi
    rw [Nat.testBit_one_eq_true_iff_self_eq_zero] at hi
    omega
  rw [accepts_eq_matchesHere, Bool.eq_iff_iff]
  show (ends text.toList (sourceRegex g.chars) (2 ^ (text.toList.length + 1) - 1) != 0) = true ↔ _
  rw [hends, bne_iff_ne, foldl_ends_atom_ne_zero_iff text.toList g.chars hone]
  constructor
  · rintro ⟨i, hi, h⟩
    rw [Nat.testBit_one_eq_true_iff_self_eq_zero] at hi
    subst hi
    exact h
  · intro h
    exact ⟨0, rfl, h⟩

end Glob

/-- The scopes that have a pattern of this library are those below a size. -/
theorem Scope.pattern_standard (s : Scope) :
    s.pattern =
      if s.text.toList.length + 9 * s.text.toList.count '*' + 1 < Regex.sizeLimit then .ok s.glob
      else .error .patternTooLarge := by
  have hparse : (Regex.parse? false s.glob.source).isSome =
      decide (s.text.toList.length + 9 * s.text.toList.count '*' + 1 < Regex.sizeLimit) := by
    rw [Regex.parse?, Glob.read_source]
    dsimp only
    rw [Glob.size_sourceRegex, Scope.glob]
    split <;> simp [*]
  have hcompile : (Languages.patterns.compile false s.glob.source).isSome =
      decide (s.text.toList.length + 9 * s.text.toList.count '*' + 1 < Regex.sizeLimit) := hparse
  rw [Scope.pattern, hcompile]
  simp only [decide_eq_true_eq]

namespace Glob

/-- **A scope pattern compares segments.**  Whenever a scope has a pattern, the source text of the
pattern denotes an expression, and the pattern and this expression accept the same texts: those
with at least as many segments as the scope, in which every segment of the scope but the last one
stands for the whole segment at its place, and the last one for the front of it. -/
theorem pattern_accepts_iff_segments
    [Languages]
    {s : Scope}
    {g : Glob}
    (h : s.pattern = .ok g)
    (text : String) :
    ∃ r, Regex.read [] [] { flags := {} } g.source.toList = some r ∧
      r.matchesIn text = g.accepts text ∧
      (g.accepts text = true ↔
        (s.text.toList.splitOn scopeDelimiter).length ≤
            (text.toList.splitOn scopeDelimiter).length ∧
          ∀ i p c, (s.text.toList.splitOn scopeDelimiter)[i]? = some p →
            (text.toList.splitOn scopeDelimiter)[i]? = some c →
              (i + 1 < (s.text.toList.splitOn scopeDelimiter).length → Denotes p c) ∧
                (i + 1 = (s.text.toList.splitOn scopeDelimiter).length → DenotesPrefix p c)) := by
  have hg : g.chars = s.text.toList := by
    unfold Scope.pattern at h
    split at h
    · cases h
      rfl
    · cases h
  refine ⟨sourceRegex g.chars, read_source g, matchesIn_sourceRegex g text, ?_⟩
  rw [accepts_eq_matchesHere, hg, matchesHere_iff_segmentsFit]
  exact segmentsFit_iff_getElem? _ _

theorem pattern_accepts_wildcard_id :
    Scope.pattern ⟨[⟨"org", some "*"⟩, ⟨"a.b", none⟩]⟩ = .ok ⟨"org:*:a.b".toList⟩ ∧
      ∃ r, Regex.read [] [] { flags := {} } (source ⟨"org:*:a.b".toList⟩).toList = some r ∧
        r.matchesIn "org:7:a.bc:9" = true := by
  have hp : Scope.pattern ⟨[⟨"org", some "*"⟩, ⟨"a.b", none⟩]⟩ = .ok ⟨"org:*:a.b".toList⟩ := by
    rw [Scope.pattern_standard, if_pos (by decide)]
    rfl
  obtain ⟨r, hr, hm, _⟩ := pattern_accepts_iff_segments hp "org:7:a.bc:9"
  refine ⟨hp, r, hr, ?_⟩
  rw [hm]
  decide

end Glob
end Warrant
