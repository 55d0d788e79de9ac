import Warrant.Scope.Pattern

/-!
# Scope patterns segment by segment

A scope pattern is matched against flat text.  Here it is read as a list of segments: a wildcard
never reaches over a delimiter, so the pattern and the text are divided at their delimiters and
compared segment by segment.  Only the last segment of the pattern is matched by prefix.

`Denotes` says what a segment stands for in full, `DenotesPrefix` what it stands for at the front
of a segment.

**Results.**
* `matchesHere_iff_segmentsFit`: matching flat text is matching its segments.
* `segmentsFit_iff_getElem?`: the segments are compared position by position.
-/

namespace Warrant
namespace Glob

/-- The pattern stands for the whole text: a wildcard for any run of characters, and every other
character for itself. -/
inductive Denotes : List Char → List Char → Prop
  | nil : Denotes [] []
  | run {ps t : List Char} (skipped : List Char) :
      Denotes ps t → Denotes ('*' :: ps) (skipped ++ t)
  | char {ps t : List Char} {c : Char} :
      c ≠ '*' → Denotes ps t → Denotes (c :: ps) (c :: t)

/-- The pattern stands for some front part of the text. -/
def DenotesPrefix (ps t : List Char) : Prop :=
  ∃ front, front <+: t ∧ Denotes ps front

/-- The segments of a pattern fit the first ones of a text, the last one by prefix. -/
def SegmentsFit : List (List Char) → List (List Char) → Prop
  | [], _ => True
  | _ :: _, [] => False
  | [p], c :: _ => DenotesPrefix p c
  | p :: q :: ps, c :: cs => Denotes p c ∧ SegmentsFit (q :: ps) cs

theorem denotes_nil_iff (t : List Char) : Denotes [] t ↔ t = [] := by
  constructor
  · rintro ⟨⟩
    rfl
  · rintro rfl
    exact Denotes.nil

theorem denotes_star_iff (ps t : List Char) :
    Denotes ('*' :: ps) t ↔ ∃ back, back <:+ t ∧ Denotes ps back := by
  constructor
  · intro h
    cases h with
    | run skipped h => exact ⟨_, List.suffix_append skipped _, h⟩
    | char hc _ => exact absurd rfl hc
  · rintro ⟨back, ⟨skipped, rfl⟩, h⟩
    exact Denotes.run skipped h

theorem denotes_cons_iff
    {a : Char} (ha : a ≠ '*')
    (ps t : List Char) :
    Denotes (a :: ps) t ↔ ∃ r, t = a :: r ∧ Denotes ps r := by
  constructor
  · intro h
    cases h with
    | run _ _ => exact absurd rfl ha
    | char _ h => exact ⟨_, rfl, h⟩
  · rintro ⟨r, rfl, h⟩
    exact Denotes.char ha h

theorem denotesPrefix_nil (t : List Char) : DenotesPrefix [] t :=
  ⟨[], List.nil_prefix, Denotes.nil⟩

theorem denotesPrefix_star_iff (ps t : List Char) :
    DenotesPrefix ('*' :: ps) t ↔ ∃ back, back <:+ t ∧ DenotesPrefix ps back := by
  constructor
  · rintro ⟨front, ⟨rest, rfl⟩, h⟩
    obtain ⟨back, ⟨skipped, rfl⟩, hback⟩ := (denotes_star_iff ps front).1 h
    refine ⟨back ++ rest, ⟨skipped, by simp⟩, back, List.prefix_append _ _, hback⟩
  · rintro ⟨back, ⟨skipped, rfl⟩, front, ⟨rest, rfl⟩, h⟩
    refine ⟨skipped ++ front, ⟨rest, by simp⟩, Denotes.run skipped h⟩

theorem denotesPrefix_cons_iff
    {a : Char} (ha : a ≠ '*')
    (ps t : List Char) :
    DenotesPrefix (a :: ps) t ↔ ∃ r, t = a :: r ∧ DenotesPrefix ps r := by
  constructor
  · rintro ⟨front, ⟨rest, rfl⟩, h⟩
    obtain ⟨r, rfl, hr⟩ := (denotes_cons_iff ha ps front).1 h
    exact ⟨r ++ rest, rfl, r, List.prefix_append _ _, hr⟩
  · rintro ⟨r, rfl, front, ⟨rest, rfl⟩, h⟩
    exact ⟨a :: front, ⟨rest, rfl⟩, Denotes.char ha h⟩

/-! A wildcard, a character and an end at the front of the first segment. -/

theorem segmentsFit_star_iff
    (p c : List Char)
    (ps cs : List (List Char)) :
    SegmentsFit (('*' :: p) :: ps) (c :: cs) ↔
      ∃ back, back <:+ c ∧ SegmentsFit (p :: ps) (back :: cs) := by
  cases ps with
  | nil => exact denotesPrefix_star_iff p c
  | cons q ps =>
      simp only [SegmentsFit, denotes_star_iff]
      constructor
      · rintro ⟨⟨back, hb, h⟩, hs⟩
        exact ⟨back, hb, h, hs⟩
      · rintro ⟨back, hb, h, hs⟩
        exact ⟨⟨back, hb, h⟩, hs⟩

theorem segmentsFit_cons_iff
    {a : Char} (ha : a ≠ '*')
    (p c : List Char)
    (ps cs : List (List Char)) :
    SegmentsFit ((a :: p) :: ps) (c :: cs) ↔
      ∃ r, c = a :: r ∧ SegmentsFit (p :: ps) (r :: cs) := by
  cases ps with
  | nil => exact denotesPrefix_cons_iff ha p c
  | cons q ps =>
      simp only [SegmentsFit, denotes_cons_iff ha]
      constructor
      · rintro ⟨⟨r, hr, h⟩, hs⟩
        exact ⟨r, hr, h, hs⟩
      · rintro ⟨r, hr, h, hs⟩
        exact ⟨⟨r, hr, h⟩, hs⟩

theorem segmentsFit_nil_cons_iff
    {ps : List (List Char)} (hps : ps ≠ [])
    (c : List Char)
    (cs : List (List Char)) :
    SegmentsFit ([] :: ps) (c :: cs) ↔ c = [] ∧ SegmentsFit ps cs := by
  cases ps with
  | nil => exact absurd rfl hps
  | cons q ps => rw [SegmentsFit, denotes_nil_iff]

/-! The segments of a text by its first character. -/

theorem splitOn_delimiter_cons (t : List Char) :
    (':' :: t).splitOn ':' = [] :: t.splitOn ':' := by
  rw [List.splitOn_cons_eq_if_modifyHead]
  rfl

theorem exists_splitOn_eq_cons (t : List Char) : ∃ h hs, t.splitOn ':' = h :: hs :=
  List.exists_cons_of_ne_nil (List.splitOn_ne_nil ':' t)

theorem splitOn_cons_of_ne
    {c : Char} (hc : c ≠ ':')
    {t h : List Char}
    {hs : List (List Char)}
    (ht : t.splitOn ':' = h :: hs) :
    (c :: t).splitOn ':' = (c :: h) :: hs := by
  rw [List.splitOn_cons_eq_if_modifyHead, ht]
  simp [hc]

/-- A wildcard in front of a pattern stays within the first segment of the text. -/
theorem matchesHere_star_iff
    {ps p : List Char}
    {pss : List (List Char)}
    (ih : ∀ t, matchesHere ps t = true ↔ SegmentsFit (p :: pss) (t.splitOn ':'))
    (t : List Char) :
    matchesHere ('*' :: ps) t = true ↔ SegmentsFit (('*' :: p) :: pss) (t.splitOn ':') := by
  induction t with
  | nil =>
      have h : matchesHere ('*' :: ps) [] = matchesHere ps [] := by
        simp [matchesHere, afterRun]
      rw [h, ih, List.splitOn_nil, segmentsFit_star_iff]
      simp
  | cons c t iht =>
      rw [matchesHere_star_cons, Bool.or_eq_true, ih]
      by_cases hc : c = ':'
      · subst hc
        rw [splitOn_delimiter_cons, segmentsFit_star_iff]
        simp
      · obtain ⟨h, hs, ht⟩ := exists_splitOn_eq_cons t
        have hne : (c != ':') = true := by simpa using hc
        rw [hne, Bool.true_and, iht, splitOn_cons_of_ne hc ht, ht, segmentsFit_star_iff,
          segmentsFit_star_iff]
        constructor
        · rintro (hfit | ⟨back, hb, hfit⟩)
          · exact ⟨c :: h, List.suffix_refl _, hfit⟩
          · exact ⟨back, hb.trans (List.suffix_cons c h), hfit⟩
        · rintro ⟨back, hb, hfit⟩
          rcases List.suffix_cons_iff.1 hb with rfl | hb
          · exact Or.inl hfit
          · exact Or.inr ⟨back, hb, hfit⟩

/-- **Matching flat text is matching its segments.** -/
theorem matchesHere_iff_segmentsFit (ps t : List Char) :
    matchesHere ps t = true ↔ SegmentsFit (ps.splitOn ':') (t.splitOn ':') := by
  induction ps generalizing t with
  | nil =>
      obtain ⟨h, hs, ht⟩ := exists_splitOn_eq_cons t
      rw [ht, List.splitOn_nil]
      simp [matchesHere, SegmentsFit, denotesPrefix_nil]
  | cons a ps ih =>
      obtain ⟨p, pss, hp⟩ := exists_splitOn_eq_cons ps
      by_cases ha : a = '*'
      · subst ha
        rw [splitOn_cons_of_ne (by decide) hp]
        exact matchesHere_star_iff (fun t => by rw [ih, hp]) t
      · by_cases hd : a = ':'
        · subst hd
          rw [splitOn_delimiter_cons]
          cases t with
          | nil =>
              rw [List.splitOn_nil, segmentsFit_nil_cons_iff (List.splitOn_ne_nil _ _), hp]
              simp [matchesHere, SegmentsFit]
          | cons c t =>
              by_cases hc : c = ':'
              · subst hc
                rw [splitOn_delimiter_cons,
                  segmentsFit_nil_cons_iff (List.splitOn_ne_nil _ _), ← ih]
                simp [matchesHere]
              · obtain ⟨h, hs, ht⟩ := exists_splitOn_eq_cons t
                have hne : ¬ ':' = c := fun e => hc e.symm
                rw [splitOn_cons_of_ne hc ht,
                  segmentsFit_nil_cons_iff (List.splitOn_ne_nil _ _)]
                simp [matchesHere, hne]
        · rw [splitOn_cons_of_ne hd hp]
          cases t with
          | nil =>
              rw [List.splitOn_nil, segmentsFit_cons_iff ha]
              simp [matchesHere, ha]
          | cons c t =>
              by_cases hc : c = ':'
              · subst hc
                rw [splitOn_delimiter_cons, segmentsFit_cons_iff ha]
                simp [matchesHere, ha, hd]
              · obtain ⟨h, hs, ht⟩ := exists_splitOn_eq_cons t
                rw [splitOn_cons_of_ne hc ht, segmentsFit_cons_iff ha, ← hp]
                simp only [matchesHere, ha, if_false, Bool.and_eq_true, beq_iff_eq, ih, ht]
                constructor
                · rintro ⟨rfl, hfit⟩
                  exact ⟨h, rfl, hfit⟩
                · rintro ⟨r, hr, hfit⟩
                  cases hr
                  exact ⟨rfl, hfit⟩

/-- The segments are compared position by position. -/
theorem segmentsFit_iff_getElem? (ps cs : List (List Char)) :
    SegmentsFit ps cs ↔
      ps.length ≤ cs.length ∧
        ∀ i p c, ps[i]? = some p → cs[i]? = some c →
          (i + 1 < ps.length → Denotes p c) ∧ (i + 1 = ps.length → DenotesPrefix p c) := by
  induction ps generalizing cs with
  | nil => simp [SegmentsFit]
  | cons p ps ih =>
      cases cs with
      | nil => simp [SegmentsFit]
      | cons c cs =>
          cases ps with
          | nil =>
              simp only [SegmentsFit]
              constructor
              · intro h
                refine ⟨by simp, ?_⟩
                intro i q d hq hd
                cases i with
                | zero =>
                    simp only [List.getElem?_cons_zero, Option.some.injEq] at hq hd
                    subst hq hd
                    exact ⟨by simp, fun _ => h⟩
                | succ i => simp at hq
              · rintro ⟨_, h⟩
                exact (h 0 p c rfl rfl).2 rfl
          | cons q ps =>
              simp only [SegmentsFit, ih cs]
              constructor
              · rintro ⟨hp, hlen, hrest⟩
                refine ⟨by simpa using hlen, ?_⟩
                intro i p' c' hp' hc'
                cases i with
                | zero =>
                    simp only [List.getElem?_cons_zero, Option.some.injEq] at hp' hc'
                    subst hp' hc'
                    exact ⟨fun _ => hp, by simp⟩
                | succ i =>
                    obtain ⟨h1, h2⟩ := hrest i p' c' hp' hc'
                    exact ⟨fun hi => h1 (by simpa using hi), fun hi => h2 (by simpa using hi)⟩
              · rintro ⟨hlen, hall⟩
                refine ⟨(hall 0 p c rfl rfl).1 (by simp), by simpa using hlen, ?_⟩
                intro i p' c' hp' hc'
                obtain ⟨h1, h2⟩ := hall (i + 1) p' c' hp' hc'
                exact ⟨fun hi => h1 (by simpa using hi), fun hi => h2 (by simpa using hi)⟩

end Glob
end Warrant
