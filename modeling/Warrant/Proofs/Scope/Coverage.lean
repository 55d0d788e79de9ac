import Warrant.Proofs.Scope.Obtainable
import Warrant.Proofs.Scope.PatternSource
import Warrant.Scope.Covers

/-!
# Coverage of scopes and their patterns

A scope is compared with another one in two ways: subject by subject, which is coverage, and as a
pattern for the text of the other one.  Where all subjects have ids, no segment holds the
delimiter, and a wildcard stands only for a whole segment, both compare the same segments in the
same order, and they differ in one thing: a pattern is not anchored at the end, so it takes its
last segment for the front of the one at its place, while coverage takes it for the whole.

The pattern of a scope exists only below a limit on its wildcards.  Coverage has no such limit.

**Results.**
* `covers_iff_agree`: coverage, component by component.
* `accepts_iff_components`: acceptance by the pattern, component by component.
* `accepts_of_covers_or_cutShort`: what the pattern accepts beyond what the scope covers.
* `covers_without_pattern`: a scope that covers itself and has no pattern.
-/

namespace Warrant

namespace Glob

theorem denotes_iff_eq
    {p t : List Char}
    (hp : '*' ∉ p) :
    Denotes p t ↔ p = t := by
  induction p generalizing t with
  | nil => rw [denotes_nil_iff, eq_comm]
  | cons a p ih =>
      have ha : a ≠ '*' := fun h => hp (h ▸ List.mem_cons_self)
      have hrest : '*' ∉ p := fun h => hp (List.mem_cons_of_mem a h)
      rw [denotes_cons_iff ha]
      constructor
      · rintro ⟨r, rfl, hr⟩
        rw [(ih hrest).1 hr]
      · rintro rfl
        exact ⟨p, rfl, (ih hrest).2 rfl⟩

theorem denotes_star (t : List Char) : Denotes ['*'] t :=
  (denotes_star_iff [] t).2 ⟨[], List.nil_suffix, Denotes.nil⟩

/-- A wildcard stands only for the whole segment. -/
def WholeWildcard (segment : String) : Prop :=
  '*' ∈ segment.toList → segment = wildcard

theorem denotes_segment_iff
    {p c : String}
    (hp : WholeWildcard p) :
    Denotes p.toList c.toList ↔ p = wildcard ∨ p = c := by
  by_cases hstar : '*' ∈ p.toList
  · rw [hp hstar]
    exact ⟨fun _ => Or.inl rfl, fun _ => denotes_star c.toList⟩
  · have hne : p ≠ wildcard := by
      rintro rfl
      exact hstar (by decide)
    rw [denotes_iff_eq hstar, String.toList_inj]
    exact ⟨Or.inr, fun h => h.resolve_left hne⟩

theorem denotesPrefix_segment_iff
    {p c : String}
    (hp : WholeWildcard p) :
    DenotesPrefix p.toList c.toList ↔ p = wildcard ∨ p.toList <+: c.toList := by
  by_cases hstar : '*' ∈ p.toList
  · rw [hp hstar]
    exact ⟨fun _ => Or.inl rfl, fun _ => ⟨c.toList, List.prefix_refl _, denotes_star _⟩⟩
  · have hne : p ≠ wildcard := by
      rintro rfl
      exact hstar (by decide)
    constructor
    · rintro ⟨front, hfront, h⟩
      rw [denotes_iff_eq hstar] at h
      exact Or.inr (h ▸ hfront)
    · intro h
      exact ⟨p.toList, h.resolve_left hne, (denotes_iff_eq hstar).2 rfl⟩

end Glob

namespace Scope

/-- The types and ids of a scope in order. -/
def components (s : Scope) : List String :=
  s.subjects.flatMap subjectSegments

/-- Every subject of the scope has an id. -/
def Identified (s : Scope) : Prop :=
  ∀ subject ∈ s.subjects, subject.id ≠ none

theorem identified_cons_iff
    {subject : Subject} {subjects : List Subject} :
    Identified ⟨subject :: subjects⟩ ↔
      (∃ id, subject.id = some id) ∧ Identified ⟨subjects⟩ := by
  simp [Identified, Option.ne_none_iff_exists']

theorem length_components
    {s : Scope}
    (h : s.Identified) :
    s.components.length = 2 * s.length := by
  obtain ⟨subjects⟩ := s
  induction subjects with
  | nil => rfl
  | cons subject subjects ih =>
      obtain ⟨⟨id, hid⟩, hrest⟩ := identified_cons_iff.1 h
      have ih := ih hrest
      simp only [components, length] at ih
      simp only [components, length, List.flatMap_cons, subjectSegments, hid, Option.toList_some,
        List.length_append, List.length_cons, List.length_nil, ih]
      omega

theorem length_components_le_iff
    {a b : Scope}
    (ha : a.Identified)
    (hb : b.Identified) :
    a.components.length ≤ b.components.length ↔ a.length ≤ b.length := by
  rw [length_components ha, length_components hb]
  exact Nat.mul_le_mul_left_iff (by decide)

/-- The components at the same places are the same, or a wildcard in the first list. -/
def Agree (ps cs : List String) : Prop :=
  ∀ (i : Nat) (p c : String), ps[i]? = some p → cs[i]? = some c → p = wildcard ∨ p = c

theorem agree_cons_iff
    {p c : String}
    {ps cs : List String} :
    Agree (p :: ps) (c :: cs) ↔ (p = wildcard ∨ p = c) ∧ Agree ps cs := by
  constructor
  · intro h
    exact ⟨h 0 p c rfl rfl, fun i => h (i + 1)⟩
  · rintro ⟨hhead, hrest⟩ i q d hq hd
    cases i with
    | zero =>
        cases hq
        cases hd
        exact hhead
    | succ i => exact hrest i q d hq hd

theorem matchesChild_iff
    {p c : Subject}
    {i j : String}
    (hp : p.id = some i)
    (hc : c.id = some j) :
    p.matchesChild c = true ↔
      (p.kind = wildcard ∨ p.kind = c.kind) ∧ (i = wildcard ∨ i = j) := by
  simp only [Subject.matchesChild, hp, hc, Bool.and_eq_true, Bool.or_eq_true, beq_iff_eq,
    Option.some.injEq, eq_comm (a := j)]

/-- Subjects with ids are compared component by component. -/
theorem covers_iff_agree
    {a b : Scope}
    (ha : a.Identified)
    (hb : b.Identified) :
    a.covers b = true ↔ a.length ≤ b.length ∧ Agree a.components b.components := by
  obtain ⟨ps⟩ := a
  obtain ⟨cs⟩ := b
  induction ps generalizing cs with
  | nil => simp [covers, coversSubjects, length, components, Agree]
  | cons p ps ih =>
      cases cs with
      | nil => simp [covers, coversSubjects, length]
      | cons c cs =>
          obtain ⟨⟨i, hi⟩, hps⟩ := identified_cons_iff.1 ha
          obtain ⟨⟨j, hj⟩, hcs⟩ := identified_cons_iff.1 hb
          have ih := ih hps cs hcs
          simp only [covers, length, components] at ih
          simp only [covers, coversSubjects, length, components, Bool.and_eq_true,
            matchesChild_iff hi hj, ih, List.flatMap_cons, subjectSegments, hi, hj,
            Option.toList_some, List.cons_append, List.nil_append, agree_cons_iff,
            List.length_cons, Nat.add_le_add_iff_right]
          tauto

/-- The text of a scope is divided into its components. -/
theorem splitOn_text
    {s : Scope}
    (hundivided : s.Undivided)
    (hne : s.components ≠ []) :
    s.text.toList.splitOn scopeDelimiter = s.components.map String.toList := by
  rw [toList_text]
  apply List.splitOn_intercalate
  · intro chars hchars
    obtain ⟨segment, hsegment, rfl⟩ := List.mem_map.1 hchars
    exact undivided_iff.1 hundivided segment hsegment
  · exact mt List.map_eq_nil_iff.1 hne

/-- A pattern with at least two segments is matched against the components of a scope, even if it
is the global one, which has no component while its text has one, empty segment. -/
theorem segmentsFit_text_iff
    {b : Scope}
    (hundivided : b.Undivided)
    {p q : List Char}
    {ps : List (List Char)} :
    Glob.SegmentsFit (p :: q :: ps) (b.text.toList.splitOn scopeDelimiter) ↔
      Glob.SegmentsFit (p :: q :: ps) (b.components.map String.toList) := by
  by_cases hne : b.components = []
  · have htext : b.text.toList = [] := by
      rw [components] at hne
      rw [toList_text, hne]
      rfl
    rw [htext, hne, List.splitOn_nil]
    simp [Glob.SegmentsFit]
  · rw [splitOn_text hundivided hne]

section Languages

variable [Languages]

theorem chars_of_pattern
    {s : Scope}
    {g : Glob}
    (h : s.pattern = .ok g) :
    g.chars = s.text.toList := by
  unfold pattern at h
  split at h
  · cases h
    rfl
  · cases h

/-- The pattern of a scope is matched against a text component by component. -/
theorem accepts_iff_segmentsFit
    {a b : Scope}
    {g : Glob}
    (hg : a.pattern = .ok g)
    (hidentified : a.Identified)
    (hglobal : a.subjects ≠ [])
    (ha : a.Undivided)
    (hb : b.Undivided) :
    g.accepts b.text = true ↔
      Glob.SegmentsFit (a.components.map String.toList) (b.components.map String.toList) := by
  obtain ⟨subject, subjects, hsubjects⟩ := List.exists_cons_of_ne_nil hglobal
  obtain ⟨id, hid⟩ := Option.ne_none_iff_exists'.1 (hidentified subject (by simp [hsubjects]))
  have hcomponents : a.components = subject.kind :: id :: subjects.flatMap subjectSegments := by
    simp [components, hsubjects, subjectSegments, hid]
  have hsplit := splitOn_text ha (by simp [hcomponents])
  have hflat : Glob.matchesHere a.text.toList b.text.toList = true ↔
      Glob.SegmentsFit (a.text.toList.splitOn scopeDelimiter)
        (b.text.toList.splitOn scopeDelimiter) := Glob.matchesHere_iff_segmentsFit _ _
  rw [Glob.accepts_eq_matchesHere, chars_of_pattern hg, hflat, hsplit, hcomponents]
  exact segmentsFit_text_iff hb

/-- Components at the same places are the same, or a wildcard in the pattern; the last one of the
pattern may also be the front of the other one. -/
theorem accepts_iff_components
    {a b : Scope}
    {g : Glob}
    (hg : a.pattern = .ok g)
    (hidentified : a.Identified)
    (hglobal : a.subjects ≠ [])
    (ha : a.Undivided)
    (hb : b.Undivided)
    (hwildcards : ∀ p ∈ a.components, Glob.WholeWildcard p) :
    g.accepts b.text = true ↔
      a.components.length ≤ b.components.length ∧
        ∀ (i : Nat) (p c : String), a.components[i]? = some p → b.components[i]? = some c →
          (i + 1 < a.components.length → p = wildcard ∨ p = c) ∧
            (i + 1 = a.components.length → p = wildcard ∨ p.toList <+: c.toList) := by
  rw [accepts_iff_segmentsFit hg hidentified hglobal ha hb, Glob.segmentsFit_iff_getElem?,
    List.length_map, List.length_map]
  apply and_congr_right
  intro _
  constructor
  · intro h i p c hp hc
    have hwhole := hwildcards p (List.mem_of_getElem? hp)
    have hi := h i p.toList c.toList (by simp [hp]) (by simp [hc])
    rwa [Glob.denotes_segment_iff hwhole, Glob.denotesPrefix_segment_iff hwhole] at hi
  · intro h i p c hp hc
    rw [List.getElem?_map, Option.map_eq_some_iff] at hp hc
    obtain ⟨p, hp, rfl⟩ := hp
    obtain ⟨c, hc, rfl⟩ := hc
    have hwhole := hwildcards p (List.mem_of_getElem? hp)
    rw [Glob.denotes_segment_iff hwhole, Glob.denotesPrefix_segment_iff hwhole]
    exact h i p c hp hc

end Languages

/-- The first scope is no longer than the second one and agrees with it, but for its last id:
that is no wildcard, and only the front of the id at its place. -/
structure CutShort (a b : Scope) : Prop where
  not_global : a.isGlobal = false
  length_le : a.length ≤ b.length
  agree : Agree a.components.dropLast b.components
  last : ∃ p c, a.components.getLast? = some p ∧
    b.components[a.components.length - 1]? = some c ∧
      p ≠ wildcard ∧ p ≠ c ∧ p.toList <+: c.toList

/-- A place where components do not agree, though the pattern accepts, is the last one. -/
theorem cutShort_of_components
    {a b : Scope}
    (hidentified : a.Identified)
    (hidentified' : b.Identified)
    (hlength : a.components.length ≤ b.components.length)
    (hcomponents : ∀ (i : Nat) (p c : String),
      a.components[i]? = some p → b.components[i]? = some c →
        (i + 1 < a.components.length → p = wildcard ∨ p = c) ∧
          (i + 1 = a.components.length → p = wildcard ∨ p.toList <+: c.toList))
    (hagree : ¬Agree a.components b.components) :
    CutShort a b := by
  simp only [Agree, not_forall, not_or] at hagree
  obtain ⟨i, p, c, hp, hc, hwild, hne⟩ := hagree
  obtain ⟨hi, -⟩ := List.getElem?_eq_some_iff.1 hp
  obtain ⟨hinner, hlast⟩ := hcomponents i p c hp hc
  have hend : i + 1 = a.components.length := by
    by_contra hend
    rcases hinner (by omega) with h | h
    · exact hwild h
    · exact hne h
  have hindex : a.components.length - 1 = i := by omega
  refine ⟨?_, ?_, ?_, p, c, ?_, ?_, hwild, hne, (hlast hend).resolve_left hwild⟩
  · rw [isGlobal, List.isEmpty_eq_false_iff]
    intro hnil
    simp [components, hnil] at hi
  · exact (length_components_le_iff hidentified hidentified').1 hlength
  · intro j q d hq hd
    obtain ⟨hj, -⟩ := List.getElem?_eq_some_iff.1 hq
    rw [List.length_dropLast] at hj
    rw [List.getElem?_dropLast, if_pos (by omega)] at hq
    exact (hcomponents j q d hq hd).1 (by omega)
  · rw [List.getLast?_eq_getElem?, hindex]
    exact hp
  · rw [hindex]
    exact hc

/-- **The pattern of a scope accepts the texts of the scopes that it covers, and those in which
its last id is cut short.**  The scope has a pattern if the source of the pattern compiles. -/
theorem accepts_of_covers_or_cutShort
    [Languages]
    {a b : Scope}
    {g : Glob}
    (hg : a.pattern = .ok g)
    (hidentified : a.Identified)
    (hidentified' : b.Identified)
    (ha : a.Undivided)
    (hb : b.Undivided)
    (hwildcards : ∀ p ∈ a.components, Glob.WholeWildcard p) :
    (a.covers b = true → g.accepts b.text = true) ∧
      (g.accepts b.text = true → a.covers b = false → CutShort a b) := by
  by_cases hglobal : a.subjects = []
  · have hchars : g.chars = [] := by
      rw [chars_of_pattern hg, text, hglobal]
      rfl
    have haccepts : g.accepts b.text = true := by
      rw [Glob.accepts_eq_matchesHere, hchars]
      rfl
    have hcovers : a.covers b = true := by
      rw [covers, hglobal]
      rfl
    exact ⟨fun _ => haccepts, fun _ hfalse => absurd hcovers (by simp [hfalse])⟩
  · rw [accepts_iff_components hg hidentified hglobal ha hb hwildcards, ← Bool.not_eq_true,
      covers_iff_agree hidentified hidentified', ← length_components_le_iff hidentified hidentified']
    constructor
    · rintro ⟨hlength, hagree⟩
      refine ⟨hlength, ?_⟩
      intro i p c hp hc
      have hpc := hagree i p c hp hc
      refine ⟨fun _ => hpc, fun _ => hpc.imp_right ?_⟩
      rintro rfl
      exact List.prefix_refl _
    · rintro ⟨hlength, hcomponents⟩ hcovers
      exact cutShort_of_components hidentified hidentified' hlength hcomponents
        fun hagree => hcovers ⟨hlength, hagree⟩

/-- A grant for two types in an organisation, and scopes that it covers or is cut short in. -/
theorem accepts_of_covers_or_cutShort_app :
    Scope.pattern ⟨[⟨"org", some "*"⟩, ⟨"app", some "4"⟩]⟩ = .ok ⟨"org:*:app:4".toList⟩ ∧
      Glob.accepts ⟨"org:*:app:4".toList⟩
        (text ⟨[⟨"org", some "1"⟩, ⟨"app", some "4"⟩, ⟨"role", some "7"⟩]⟩) = true ∧
      CutShort ⟨[⟨"org", some "*"⟩, ⟨"app", some "4"⟩]⟩
        ⟨[⟨"org", some "1"⟩, ⟨"app", some "42"⟩]⟩ := by
  have hpattern : Scope.pattern ⟨[⟨"org", some "*"⟩, ⟨"app", some "4"⟩]⟩ =
      .ok ⟨"org:*:app:4".toList⟩ := by
    rw [pattern_standard, if_pos (by decide)]
    rfl
  have hidentified : Identified ⟨[⟨"org", some "*"⟩, ⟨"app", some "4"⟩]⟩ := by
    simp [Identified]
  have hundivided : Undivided ⟨[⟨"org", some "*"⟩, ⟨"app", some "4"⟩]⟩ := by
    simp [Undivided, scopeDelimiter]
  have hwildcards : ∀ p ∈ components ⟨[⟨"org", some "*"⟩, ⟨"app", some "4"⟩]⟩,
      Glob.WholeWildcard p := by
    simp [components, subjectSegments, Glob.WholeWildcard, wildcard]
  refine ⟨hpattern, ?_, ?_⟩
  · refine (accepts_of_covers_or_cutShort hpattern hidentified ?_ hundivided ?_ hwildcards).1 ?_
    · simp [Identified]
    · simp [Undivided, scopeDelimiter]
    · decide
  · refine (accepts_of_covers_or_cutShort hpattern hidentified ?_ hundivided ?_ hwildcards).2 ?_ ?_
    · simp [Identified]
    · simp [Undivided, scopeDelimiter]
    · decide
    · decide

/-! A scope without a pattern of this library. -/

/-- A scope of wildcards has as many of them in its text as it has components. -/
theorem count_text_of_wildcards
    {s : Scope}
    (h : ∀ p ∈ s.components, p = wildcard) :
    s.text.toList.count '*' = s.components.length := by
  have hcount : ∀ piece ∈ s.components.map String.toList, piece.count '*' = 1 := by
    rw [List.forall_mem_map]
    intro p hp
    rw [h p hp]
    decide
  have htext : s.text.toList = [scopeDelimiter].intercalate (s.components.map String.toList) :=
    toList_text s
  rw [htext, Text.count_joined (by decide) hcount, List.length_map, Nat.mul_one]

/-- A scope with so many wildcards that its pattern is too large. -/
def allWildcards : Scope :=
  ⟨List.replicate 15000 ⟨wildcard, some wildcard⟩⟩

theorem eq_wildcard_of_mem_allWildcards
    {p : String}
    (hp : p ∈ allWildcards.components) :
    p = wildcard := by
  obtain ⟨subject, hsubject, hp⟩ := List.mem_flatMap.1 hp
  rw [List.eq_of_mem_replicate hsubject] at hp
  simpa [subjectSegments] using hp

/-- **A scope that covers itself may have no pattern at all**, and so none that accepts its
text. -/
theorem covers_without_pattern :
    allWildcards.Identified ∧ allWildcards.Undivided ∧
      (∀ p ∈ allWildcards.components, Glob.WholeWildcard p) ∧
      allWildcards.covers allWildcards = true ∧
      allWildcards.pattern = .error .patternTooLarge ∧
      ¬∃ g, allWildcards.pattern = .ok g ∧ g.accepts allWildcards.text = true := by
  have hidentified : allWildcards.Identified := by
    intro subject hsubject
    rw [List.eq_of_mem_replicate hsubject]
    exact Option.some_ne_none wildcard
  have hundivided : allWildcards.Undivided := by
    rw [undivided_iff]
    intro p hp
    rw [eq_wildcard_of_mem_allWildcards hp]
    decide
  have hcovers : allWildcards.covers allWildcards = true := by
    rw [covers_iff_agree hidentified hidentified]
    refine ⟨Nat.le_refl _, ?_⟩
    intro i p c hp hc
    exact Or.inr (Option.some.inj (hp.symm.trans hc))
  have hpattern : allWildcards.pattern = .error .patternTooLarge := by
    have hlength : allWildcards.length = 15000 := List.length_replicate
    have hcount := count_text_of_wildcards fun p => eq_wildcard_of_mem_allWildcards (p := p)
    rw [length_components hidentified, hlength] at hcount
    rw [pattern_standard, hcount, Regex.sizeLimit, if_neg (by omega)]
  refine ⟨hidentified, hundivided, ?_, hcovers, hpattern, ?_⟩
  · intro p hp _
    exact eq_wildcard_of_mem_allWildcards hp
  · rintro ⟨g, hg, -⟩
    rw [hpattern] at hg
    cases hg

end Scope
end Warrant
