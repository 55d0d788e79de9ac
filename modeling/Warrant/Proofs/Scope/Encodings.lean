import Mathlib.Data.Nat.Find
import Warrant.Proofs.Scope.Reading
import Warrant.Scope.Encoding

/-!
# The encodings of a scope agree

A list of strings gives a scope in four ways: joined by the delimiter and read as a text, read as
a flat list of segments, read as a list of texts in a data value, and paired up as subjects, which
may also stand as objects in a data value.  All of them give the same scope, or none gives one.

They fail exactly if a type is blank, that is, if a string at an even position is.  The flat forms
name the first such position; a list of subjects has no positions to name.

**Results.**
* `normalizeSegment_eq_empty_iff`: nothing is left of a segment exactly if it is blank.
* `subjectsOfSegments_eq_error_iff`: which types are refused, and at which position.
* `mapM_normalizeSubject_pairUp`: subjects are normalised like the segments they are made of.
* `encodings_agree`: the four ways in which a list of strings gives a scope.
-/

namespace Warrant

/-! Blank segments. -/

/-- Nothing is left of a segment exactly if it is blank. -/
theorem normalizeSegment_eq_empty_iff {segment : String} :
    normalizeSegment segment = "" ↔ Text.isAllBlank segment.toList = true := by
  rw [normalizeSegment, ← Text.trim_eq_nil_iff, ← Text.lowercase_eq_nil_iff]
  exact String.ofList_eq_empty_iff

namespace Scope

/-! Flat lists of segments. -/

/-- The first blank type of a flat list stands at a position.  Types stand at even positions. -/
structure FirstBlankType (segments : List String) (i : Nat) : Prop where
  even : i % 2 = 0
  blank : ∃ segment ∈ segments[i]?, Text.isAllBlank segment.toList = true
  first : ∀ j < i, j % 2 = 0 → ∀ segment ∈ segments[j]?, Text.isAllBlank segment.toList = false

section FirstBlankType

variable {kind id : String} {segments : List String} {i : Nat}

theorem not_firstBlankType_nil : ¬FirstBlankType [] i := by
  rintro ⟨-, ⟨segment, hsegment, -⟩, -⟩
  cases hsegment

theorem firstBlankType_zero
    (hkind : Text.isAllBlank kind.toList = true) :
    FirstBlankType (kind :: segments) 0 :=
  ⟨rfl, ⟨kind, rfl, hkind⟩, fun _ hj => absurd hj (Nat.not_lt_zero _)⟩

theorem FirstBlankType.eq_zero
    (h : FirstBlankType (kind :: segments) i)
    (hkind : Text.isAllBlank kind.toList = true) :
    i = 0 := by
  by_contra hi
  have hfirst := h.first 0 (Nat.pos_of_ne_zero hi) rfl kind rfl
  rw [hkind] at hfirst
  cases hfirst

theorem not_firstBlankType_singleton
    (hkind : ¬Text.isAllBlank kind.toList = true) :
    ¬FirstBlankType [kind] i := by
  rintro ⟨-, ⟨segment, hsegment, hblank⟩, -⟩
  cases i with
  | zero =>
      cases hsegment
      exact hkind hblank
  | succ i => cases hsegment

/-- Behind a type that is not blank the search goes on with the next pair. -/
theorem firstBlankType_cons_cons_iff
    (hkind : ¬Text.isAllBlank kind.toList = true) :
    FirstBlankType (kind :: id :: segments) i ↔ ∃ j, i = j + 2 ∧ FirstBlankType segments j := by
  constructor
  · rintro ⟨heven, ⟨segment, hsegment, hblank⟩, hfirst⟩
    match i with
    | 0 =>
        cases hsegment
        exact absurd hblank hkind
    | 1 => cases heven
    | j + 2 =>
        refine ⟨j, rfl, by omega, ⟨segment, hsegment, hblank⟩, ?_⟩
        intro k hk hkeven
        exact hfirst (k + 2) (by omega) (by omega)
  · rintro ⟨j, rfl, heven, hblank, hfirst⟩
    refine ⟨by omega, hblank, ?_⟩
    intro k hk hkeven segment hsegment
    match k with
    | 0 =>
        cases hsegment
        exact Bool.eq_false_iff.2 hkind
    | 1 => cases hkeven
    | k + 2 => exact hfirst k (by omega) (by omega) segment hsegment

end FirstBlankType

/-- If any type is blank, one of them is the first. -/
theorem exists_firstBlankType_iff
    {segments : List String} :
    (∃ i, FirstBlankType segments i) ↔
      ∃ i, i % 2 = 0 ∧ ∃ segment ∈ segments[i]?, Text.isAllBlank segment.toList = true := by
  classical
  constructor
  · rintro ⟨i, heven, hblank, -⟩
    exact ⟨i, heven, hblank⟩
  · intro h
    obtain ⟨heven, hblank⟩ := Nat.find_spec h
    refine ⟨Nat.find h, heven, hblank, ?_⟩
    intro j hj hjeven segment hsegment
    have hnot := Nat.find_min h hj
    exact Bool.eq_false_iff.2 fun htrue => hnot ⟨hjeven, segment, hsegment, htrue⟩

/-- A flat list is refused for its first blank type. -/
theorem subjectsOfSegments_eq_error_iff
    {position : Nat}
    {segments : List String}
    {e : ScopeError} :
    subjectsOfSegments position segments = .error e ↔
      ∃ i, FirstBlankType segments i ∧ e = .emptyType (position + i) := by
  induction position, segments using subjectsOfSegments.induct generalizing e with
  | case1 position =>
      constructor
      · rintro ⟨⟩
      · rintro ⟨i, hi, -⟩
        exact absurd hi not_firstBlankType_nil
  | case2 position kind hempty =>
      have hblank := normalizeSegment_eq_empty_iff.1 hempty
      rw [subjectsOfSegments, if_pos hempty]
      constructor
      · rintro ⟨⟩
        exact ⟨0, firstBlankType_zero hblank, rfl⟩
      · rintro ⟨i, hi, rfl⟩
        rw [hi.eq_zero hblank, Nat.add_zero]
  | case3 position kind hempty =>
      have hblank := mt normalizeSegment_eq_empty_iff.2 hempty
      rw [subjectsOfSegments, if_neg hempty]
      constructor
      · rintro ⟨⟩
      · rintro ⟨i, hi, -⟩
        exact absurd hi (not_firstBlankType_singleton hblank)
  | case4 position kind id rest hempty =>
      have hblank := normalizeSegment_eq_empty_iff.1 hempty
      rw [subjectsOfSegments, if_pos hempty]
      constructor
      · rintro ⟨⟩
        exact ⟨0, firstBlankType_zero hblank, rfl⟩
      · rintro ⟨i, hi, rfl⟩
        rw [hi.eq_zero hblank, Nat.add_zero]
  | case5 position kind id rest hempty ih =>
      have hblank := mt normalizeSegment_eq_empty_iff.2 hempty
      rw [subjectsOfSegments, if_neg hempty, map_eq_error_iff, ih]
      simp only [firstBlankType_cons_cons_iff hblank]
      constructor
      · rintro ⟨i, hi, rfl⟩
        exact ⟨i + 2, ⟨i, rfl, hi⟩, by rw [Nat.add_assoc, Nat.add_comm 2 i]⟩
      · rintro ⟨_, ⟨i, rfl, hi⟩, rfl⟩
        exact ⟨i, hi, by rw [Nat.add_assoc, Nat.add_comm 2 i]⟩

theorem ofSegments_eq_error_iff
    {segments : List String}
    {e : ScopeError} :
    ofSegments segments = .error e ↔ ∃ i, FirstBlankType segments i ∧ e = .emptyType i := by
  rw [ofSegments, map_eq_error_iff, subjectsOfSegments_eq_error_iff]
  simp only [Nat.zero_add]

/-! Joined segments. -/

/-- The text of a list of segments that is not the text of nothing. -/
theorem isAllBlank_joined
    {first second : List Char}
    {rest : List (List Char)} :
    Text.isAllBlank ([scopeDelimiter].intercalate (first :: second :: rest)) = false := by
  rw [Text.joined_cons, List.flatMap_cons]
  simp [Text.isAllBlank, scopeDelimiter, Text.isBlank]

/-- A text is read as the segments it was joined from. -/
theorem ofText_joined
    {segments : List String}
    (hdelimiter : ∀ segment ∈ segments, scopeDelimiter ∉ segment.toList)
    (hblank : ∀ segment, segments = [segment] → Text.isAllBlank segment.toList = false) :
    ofText (String.intercalate ":" segments) = ofSegments segments := by
  have hchars : (String.intercalate ":" segments).toList =
      [scopeDelimiter].intercalate (segments.map String.toList) := by
    rw [String.toList_intercalate]
    rfl
  cases segments with
  | nil => rfl
  | cons first rest =>
      have hsplit : splitSegments (String.intercalate ":" (first :: rest)).toList =
          first :: rest := by
        rw [splitSegments, hchars, List.splitOn_intercalate, List.map_map]
        · simp
        · intro chars hmem
          obtain ⟨segment, hsegment, rfl⟩ := List.mem_map.1 hmem
          exact hdelimiter segment hsegment
        · simp
      have hfull : Text.isAllBlank (String.intercalate ":" (first :: rest)).toList = false := by
        rw [hchars]
        cases rest with
        | nil =>
            rw [List.map_cons, List.map_nil, List.intercalate_singleton]
            exact hblank first rfl
        | cons second rest => exact isAllBlank_joined
      rw [ofText, if_neg (Bool.eq_false_iff.1 hfull), hsplit]

/-! Segments as texts in a data value. -/

theorem ofJson_strings (segments : List String) :
    ofJson (.array (segments.map Json.string)) = ofSegments segments := by
  cases segments with
  | nil => rfl
  | cons first rest =>
      have hall : ((first :: rest).map Json.string).all Json.isString = true := by
        simp [Json.isString, Json.asString?]
      have hback : ((first :: rest).map Json.string).filterMap Json.asString? = first :: rest := by
        simp [List.filterMap_map, Function.comp_def, Json.asString?]
      rw [ofJson, if_neg (by simp), if_pos hall, hback]

/-! Segments in pairs. -/

/-- The subjects that are made of a flat list.  The last one of an odd number has no id. -/
def pairUp : List String → List Subject
  | [] => []
  | [kind] => [⟨kind, none⟩]
  | kind :: id :: rest => ⟨kind, some id⟩ :: pairUp rest

theorem normalizeSubject_eq
    (kind : String)
    (id : Option String) :
    normalizeSubject ⟨kind, id⟩ =
      if normalizeSegment kind = "" then .error .emptySubjectType
      else .ok ⟨normalizeSegment kind, normalizeId id⟩ := rfl

/-- Subjects are normalised like the segments they are made of. -/
theorem mapM_normalizeSubject_pairUp
    (position : Nat)
    (segments : List String) :
    (pairUp segments).mapM normalizeSubject =
      (subjectsOfSegments position segments).mapError fun _ => .emptySubjectType := by
  induction position, segments using subjectsOfSegments.induct with
  | case1 position => rfl
  | case2 position kind hempty =>
      rw [subjectsOfSegments, if_pos hempty, pairUp, List.mapM_cons, normalizeSubject_eq,
        if_pos hempty]
      rfl
  | case3 position kind hempty =>
      rw [subjectsOfSegments, if_neg hempty, pairUp, List.mapM_cons, normalizeSubject_eq,
        if_neg hempty]
      rfl
  | case4 position kind id rest hempty =>
      rw [subjectsOfSegments, if_pos hempty, pairUp, List.mapM_cons, normalizeSubject_eq,
        if_pos hempty]
      rfl
  | case5 position kind id rest hempty ih =>
      rw [subjectsOfSegments, if_neg hempty, pairUp, List.mapM_cons, normalizeSubject_eq,
        if_neg hempty, ih]
      cases subjectsOfSegments (position + 2) rest <;> rfl

theorem ofSubjects_pairUp (segments : List String) :
    ofSubjects (pairUp segments) =
      (ofSegments segments).mapError fun _ => .emptySubjectType := by
  rw [ofSubjects, ofSegments, mapM_normalizeSubject_pairUp 0]
  cases subjectsOfSegments 0 segments <;> rfl

end Scope

/-- The object that describes a subject. -/
def Subject.entries (s : Subject) : Object :=
  ("type", .string s.kind) :: (s.id.map fun id => ("id", Json.string id)).toList

theorem Subject.ofObject_entries (s : Subject) : Subject.ofObject s.entries = .ok s := by
  obtain ⟨kind, id⟩ := s
  cases id <;> rfl

namespace Scope

/-- Subjects as objects in a data value are read as the subjects. -/
theorem ofJson_objects (subjects : List Subject) :
    ofJson (.array (subjects.map fun s => .object s.entries)) = ofSubjects subjects := by
  cases subjects with
  | nil => rfl
  | cons first rest =>
      have hdecode : decodeSubjects ((first :: rest).map Subject.entries) = .ok (first :: rest) := by
        rw [decodeSubjects, mapM_eq_ok_iff, List.forall₂_map_left_iff, List.forall₂_same]
        intro s _
        rw [Subject.ofObject_entries]
        rfl
      have hall : ((first :: rest).map fun s => Json.object s.entries).all Json.isObject = true := by
        simp [Json.isObject, Json.asObject?]
      have hback : ((first :: rest).map fun s => Json.object s.entries).filterMap Json.asObject? =
          (first :: rest).map Subject.entries := by
        simp [List.filterMap_map, Function.comp_def, Json.asObject?]
      rw [ofJson, if_neg (by simp), if_neg (by simp [Json.isString, Json.asString?]), if_pos hall,
        hback, hdecode]
      simp only [bind, Except.bind]

/-- **The encodings of a scope agree.**  A list of strings without the delimiter, other than one
blank string alone, gives the same in every flat form: a scope, or a fault that names the first
position at which a type is blank.  Paired up as subjects, in either form, it gives the same scope,
and fails if the flat forms do. -/
theorem encodings_agree
    {segments : List String}
    (hdelimiter : ∀ segment ∈ segments, scopeDelimiter ∉ segment.toList)
    (hblank : ∀ segment, segments = [segment] → Text.isAllBlank segment.toList = false) :
    ofText (String.intercalate ":" segments) = ofSegments segments ∧
      ofJson (.array (segments.map .string)) = ofSegments segments ∧
      ((∃ e, ofSegments segments = .error e) ↔
        ∃ i, i % 2 = 0 ∧ ∃ segment ∈ segments[i]?, Text.isAllBlank segment.toList = true) ∧
      (∀ e, ofSegments segments = .error e ↔
        ∃ i, FirstBlankType segments i ∧ e = .emptyType i ∧
          e.message = "Invalid scope format: " ++ (if i = 0 then "leading" else "internal") ++
            " empty type segment at position " ++ DecodeError.count i) ∧
      (∀ s, ofSubjects (pairUp segments) = .ok s ↔ ofSegments segments = .ok s) ∧
      ofJson (.array ((pairUp segments).map fun s => .object s.entries)) =
        ofSubjects (pairUp segments) := by
  refine ⟨ofText_joined hdelimiter hblank, ofJson_strings segments, ?_, ?_, ?_,
    ofJson_objects (pairUp segments)⟩
  · rw [← exists_firstBlankType_iff]
    simp only [ofSegments_eq_error_iff]
    constructor
    · rintro ⟨e, i, hi, -⟩
      exact ⟨i, hi⟩
    · rintro ⟨i, hi⟩
      exact ⟨.emptyType i, i, hi, rfl⟩
  · intro e
    rw [ofSegments_eq_error_iff]
    constructor
    · rintro ⟨i, hi, rfl⟩
      exact ⟨i, hi, rfl, rfl⟩
    · rintro ⟨i, hi, he, -⟩
      exact ⟨i, hi, he⟩
  · intro s
    rw [ofSubjects_pairUp, mapError_eq_ok_iff]

/-- Mixed case, a blank id and a type without an id at the end. -/
def mixedSegments : List String :=
  [" ORG", "1", "App\t", "\u00a0", "user"]

/-- The same segments with a blank type in the second pair. -/
def untypedSegments : List String :=
  [" ORG", "1", "\u00a0", "App\t", "user"]

theorem encodings_agree_mixedSegments :
    (∀ segment ∈ mixedSegments ++ untypedSegments, scopeDelimiter ∉ segment.toList) ∧
      ofText (String.intercalate ":" mixedSegments) =
        .ok ⟨[⟨"org", some "1"⟩, ⟨"app", none⟩, ⟨"user", none⟩]⟩ ∧
      ofSubjects (pairUp mixedSegments) =
        .ok ⟨[⟨"org", some "1"⟩, ⟨"app", none⟩, ⟨"user", none⟩]⟩ ∧
      ofText (String.intercalate ":" untypedSegments) = .error (.emptyType 2) ∧
      ∀ s, ofSubjects (pairUp untypedSegments) ≠ .ok s := by
  have hmixed : ∀ segment ∈ mixedSegments, scopeDelimiter ∉ segment.toList := by
    simp [mixedSegments, scopeDelimiter]
  have huntyped : ∀ segment ∈ untypedSegments, scopeDelimiter ∉ segment.toList := by
    simp [untypedSegments, scopeDelimiter]
  have hread : ofSegments mixedSegments =
      .ok ⟨[⟨"org", some "1"⟩, ⟨"app", none⟩, ⟨"user", none⟩]⟩ :=
    rfl
  have hrefused : ofSegments untypedSegments = .error (.emptyType 2) := rfl
  obtain ⟨htext, -, -, -, hpaired, -⟩ := encodings_agree hmixed (by simp [mixedSegments])
  obtain ⟨huntypedText, -, -, -, huntypedPaired, -⟩ :=
    encodings_agree huntyped (by simp [untypedSegments])
  refine ⟨List.forall_mem_append.2 ⟨hmixed, huntyped⟩, htext.trans hread, (hpaired _).2 hread,
    huntypedText.trans hrefused, ?_⟩
  intro s hs
  rw [huntypedPaired, hrefused] at hs
  cases hs

end Scope
end Warrant
