import Warrant.Proofs.Outcome
import Warrant.Proofs.Text.Lowercase
import Warrant.Proofs.Text.Pieces
import Warrant.Scope.Basic

/-!
# What a scope text is read as

The segments of a scope that was read are segments of the text in normalised form, and none of
them is empty.  Normalising adds no blanks in front and no braces, so the text of the scope is
free of them if the text it was read from is.

Normalising again changes nothing, so the text of a scope that was read gives the same segments
once more.  They are paired from the front, though: a type without an id takes the type behind it
for its id, unless it is the last one.

**Results.**
* `normalizeSegment_normalizeSegment`: normalising twice is normalising once.
* `segment_of_subjectsOfSegments`: where the segments of a read scope come from.
* `stops_text_of_ofText`: the text of a read scope does not begin with a blank.
* `no_brace_of_ofText`: it holds no brace if the text it was read from holds none.
* `exists_ofText_text`: the text of a read scope reads, and when it gives the same scope.
-/

namespace Warrant

theorem mem_of_mem_normalizeSegment
    {part : String} {c : Char}
    (hc : c ∈ (normalizeSegment part).toList)
    (hmark : Text.isMark c = true) :
    c ∈ part.toList := by
  rw [normalizeSegment, String.toList_ofList] at hc
  exact Text.mem_of_mem_trim (Text.mem_of_mem_lowercase hc hmark)

theorem stops_normalizeSegment (part : String) :
    Text.Stops Text.isBlank (normalizeSegment part).toList := by
  rw [normalizeSegment, String.toList_ofList]
  exact Text.stops_lowercase (fun _ => Text.isMark_of_isBlank) (Text.stops_trim part.toList)

theorem stops_reverse_normalizeSegment (part : String) :
    Text.Stops Text.isBlank (normalizeSegment part).toList.reverse := by
  rw [normalizeSegment, String.toList_ofList]
  exact Text.stops_reverse_lowercase (fun _ => Text.isMark_of_isBlank)
    (Text.stops_reverse_trim part.toList)

/-- Normalising twice is normalising once. -/
theorem normalizeSegment_normalizeSegment (part : String) :
    normalizeSegment (normalizeSegment part) = normalizeSegment part := by
  have htrim := Text.trim_of_stops (stops_normalizeSegment part)
    (stops_reverse_normalizeSegment part)
  rw [normalizeSegment, htrim]
  simp only [normalizeSegment, String.toList_ofList, Text.lowercase_lowercase]

theorem normalizeId_eq_some
    {id : Option String} {i : String}
    (h : normalizeId id = some i) :
    i ≠ "" ∧ ∃ part ∈ id, i = normalizeSegment part := by
  unfold normalizeId at h
  rw [Option.filter_eq_some_iff] at h
  obtain ⟨hmap, hne⟩ := h
  obtain ⟨part, hpart, rfl⟩ := Option.map_eq_some_iff.1 hmap
  exact ⟨by simpa using hne, part, hpart, rfl⟩

/-- A normalised id that is not empty is kept. -/
theorem normalizeId_of_normalized
    {id : String}
    (hne : id ≠ "")
    (hnormalized : normalizeSegment id = id) :
    normalizeId (some id) = some id := by
  rw [normalizeId, Option.map_some, hnormalized]
  exact Option.filter_some_pos (by simpa using hne)

namespace Scope

/-- A segment of a read scope is not empty, and is the normalised form of a segment that was
read. -/
theorem segment_of_subjectsOfSegments
    {position : Nat}
    {segments : List String}
    {subjects : List Subject}
    (h : subjectsOfSegments position segments = .ok subjects) :
    ∀ segment ∈ subjects.flatMap subjectSegments,
      segment ≠ "" ∧ ∃ part ∈ segments, segment = normalizeSegment part := by
  induction position, segments using subjectsOfSegments.induct generalizing subjects with
  | case1 position =>
      cases h
      simp
  | case2 position kind hempty =>
      rw [subjectsOfSegments, if_pos hempty] at h
      cases h
  | case3 position kind hempty =>
      rw [subjectsOfSegments, if_neg hempty] at h
      cases h
      intro segment hsegment
      have hkind : segment = normalizeSegment kind := by simpa [subjectSegments] using hsegment
      rw [hkind]
      exact ⟨hempty, kind, List.mem_cons_self, rfl⟩
  | case4 position kind id rest hempty =>
      rw [subjectsOfSegments, if_pos hempty] at h
      cases h
  | case5 position kind id rest hempty ih =>
      rw [subjectsOfSegments, if_neg hempty] at h
      obtain ⟨tail, hrest, rfl⟩ := exists_of_map_eq_ok h
      intro segment hsegment
      simp only [List.flatMap_cons, subjectSegments, List.cons_append, List.mem_cons,
        List.mem_append] at hsegment
      rcases hsegment with rfl | hid | htail
      · exact ⟨hempty, kind, List.mem_cons_self, rfl⟩
      · have hid : normalizeId (some id) = some segment := Option.mem_toList.1 hid
        obtain ⟨hne, part, hpart, hnormal⟩ := normalizeId_eq_some hid
        cases hpart
        exact ⟨hne, id, by simp, hnormal⟩
      · obtain ⟨hne, part, hpart, hnormal⟩ := ih hrest segment htail
        exact ⟨hne, part, by simp [hpart], hnormal⟩

theorem toList_text (s : Scope) :
    s.text.toList = [scopeDelimiter].intercalate
      ((s.subjects.flatMap subjectSegments).map String.toList) := by
  rw [text, String.toList_intercalate]
  rfl

/-- A segment of a read scope is not empty, and is the normalised form of a piece of the text. -/
theorem segment_of_ofText
    {text : String} {s : Scope}
    (h : ofText text = .ok s) :
    ∀ segment ∈ s.subjects.flatMap subjectSegments,
      segment ≠ "" ∧
        ∃ piece ∈ text.toList.splitOn scopeDelimiter,
          segment = normalizeSegment (String.ofList piece) := by
  unfold ofText at h
  split at h
  · cases h
    simp [global]
  · obtain ⟨subjects, hread, rfl⟩ := exists_of_map_eq_ok h
    intro segment hsegment
    obtain ⟨hne, part, hpart, hnormal⟩ := segment_of_subjectsOfSegments hread segment hsegment
    obtain ⟨piece, hpiece, rfl⟩ := List.mem_map.1 hpart
    exact ⟨hne, piece, hpiece, hnormal⟩

/-- The first segment of a read scope is the normalised form of the first segment. -/
theorem head_of_subjectsOfSegments
    {position : Nat}
    {part : String} {parts : List String}
    {subjects : List Subject}
    (h : subjectsOfSegments position (part :: parts) = .ok subjects) :
    ∃ rest, subjects.flatMap subjectSegments = normalizeSegment part :: rest := by
  cases parts with
  | nil =>
      rw [subjectsOfSegments] at h
      split at h
      · cases h
      · cases h
        exact ⟨[], rfl⟩
  | cons id parts =>
      rw [subjectsOfSegments] at h
      split at h
      · cases h
      · obtain ⟨tail, -, rfl⟩ := exists_of_map_eq_ok h
        exact ⟨_, rfl⟩

/-- The text of a read scope begins with a mark only if the first piece of the text that was read
does, but for blanks. -/
theorem stops_text_of_first_piece
    {p : Char → Bool}
    {text : String} {s : Scope}
    (hp : ∀ c, p c = true → Text.isMark c = true)
    (h : ofText text = .ok s)
    (hfirst : ∀ piece pieces, text.toList.splitOn scopeDelimiter = piece :: pieces →
      Text.Stops p (Text.trim piece)) :
    Text.Stops p s.text.toList := by
  have hsegments := segment_of_ofText h
  rw [toList_text]
  unfold ofText at h
  split at h
  · cases h
    exact Text.stops_nil
  · obtain ⟨subjects, hread, rfl⟩ := exists_of_map_eq_ok h
    obtain ⟨piece, pieces, hsplit⟩ := List.exists_cons_of_ne_nil
      (List.splitOn_ne_nil scopeDelimiter text.toList)
    rw [splitSegments, hsplit, List.map_cons] at hread
    obtain ⟨rest, hcons⟩ := head_of_subjectsOfSegments hread
    rw [hcons] at hsegments ⊢
    obtain ⟨hne, -⟩ := hsegments _ List.mem_cons_self
    refine Text.stops_joined (by simpa using hne) ?_ scopeDelimiter _
    rw [normalizeSegment, String.toList_ofList, String.toList_ofList]
    exact Text.stops_lowercase hp (hfirst piece pieces hsplit)

/-- The text of a read scope does not begin with a blank. -/
theorem stops_text_of_ofText
    {text : String} {s : Scope}
    (h : ofText text = .ok s) :
    Text.Stops Text.isBlank s.text.toList :=
  stops_text_of_first_piece (fun _ => Text.isMark_of_isBlank) h fun piece _ _ =>
    Text.stops_trim piece

/-- The text of a read scope holds no brace if the text that was read holds none. -/
theorem no_brace_of_ofText
    {text : String} {s : Scope}
    (h : ofText text = .ok s)
    (htext : ∀ c ∈ text.toList, Text.isBrace c = false) :
    ∀ c ∈ s.text.toList, Text.isBrace c = false := by
  intro c hc
  rw [toList_text] at hc
  rcases Text.eq_or_mem_of_mem_joined hc with rfl | ⟨chars, hchars, hc⟩
  · rfl
  · obtain ⟨segment, hsegment, rfl⟩ := List.mem_map.1 hchars
    obtain ⟨-, piece, hpiece, hnormal⟩ := segment_of_ofText h segment hsegment
    cases hbrace : Text.isBrace c with
    | false => rfl
    | true =>
        have hmark : Text.isMark c = true := by simp [Text.isMark, hbrace]
        rw [hnormal] at hc
        have hmem := mem_of_mem_normalizeSegment hc hmark
        rw [String.toList_ofList] at hmem
        rw [htext c (Text.mem_of_mem_splitOn hpiece hmem)] at hbrace
        exact hbrace.symm

/-! Reading the text of a scope that was read. -/

/-- A segment as it stands in a scope that was read: in normalised form, not empty, and without
the delimiter. -/
structure IsNormal (segment : String) : Prop where
  ne_empty : segment ≠ ""
  normalized : normalizeSegment segment = segment
  no_delimiter : scopeDelimiter ∉ segment.toList

theorem IsNormal.normalizeId_eq
    {id : String}
    (h : IsNormal id) :
    normalizeId (some id) = some id :=
  normalizeId_of_normalized h.ne_empty h.normalized

/-- The segments of a scope that was read are normal. -/
theorem isNormal_of_ofText
    {text : String} {s : Scope}
    (h : ofText text = .ok s) :
    ∀ segment ∈ s.subjects.flatMap subjectSegments, IsNormal segment := by
  intro segment hsegment
  obtain ⟨hne, piece, hpiece, rfl⟩ := segment_of_ofText h segment hsegment
  refine ⟨hne, normalizeSegment_normalizeSegment _, ?_⟩
  intro hmem
  have hpart := mem_of_mem_normalizeSegment hmem rfl
  rw [String.toList_ofList] at hpart
  exact Text.not_mem_of_mem_splitOn hpiece hpart

/-- Every subject of the scope but the last has an id. -/
def Paired (s : Scope) : Prop :=
  ∀ subject ∈ s.subjects.dropLast, subject.id ≠ none

theorem paired_cons_iff
    {subject : Subject} {subjects : List Subject} :
    Paired ⟨subject :: subjects⟩ ↔
      (subjects ≠ [] → subject.id ≠ none) ∧ Paired ⟨subjects⟩ := by
  cases subjects with
  | nil => simp [Paired]
  | cons next subjects => simp [Paired]

/-- Normal segments are read in pairs, and all of them are kept. -/
theorem exists_subjectsOfSegments
    {segments : List String}
    (h : ∀ segment ∈ segments, IsNormal segment)
    (position : Nat) :
    ∃ subjects, subjectsOfSegments position segments = .ok subjects ∧
      subjects.flatMap subjectSegments = segments ∧ Paired ⟨subjects⟩ := by
  induction position, segments using subjectsOfSegments.induct with
  | case1 position => exact ⟨[], rfl, rfl, by simp [Paired]⟩
  | case2 position kind hempty =>
      have hkind := h kind List.mem_cons_self
      rw [hkind.normalized] at hempty
      exact absurd hempty hkind.ne_empty
  | case3 position kind hempty =>
      have hkind := h kind List.mem_cons_self
      refine ⟨[⟨kind, none⟩], ?_, rfl, by simp [Paired]⟩
      rw [subjectsOfSegments, if_neg hempty, hkind.normalized]
  | case4 position kind id rest hempty =>
      have hkind := h kind List.mem_cons_self
      rw [hkind.normalized] at hempty
      exact absurd hempty hkind.ne_empty
  | case5 position kind id rest hempty ih =>
      obtain ⟨hkind, hid, hrest⟩ : IsNormal kind ∧ IsNormal id ∧ ∀ s ∈ rest, IsNormal s := by
        simpa using h
      obtain ⟨subjects, hread, hsegments, hpaired⟩ := ih hrest
      refine ⟨⟨kind, some id⟩ :: subjects, ?_, ?_, ?_⟩
      · rw [subjectsOfSegments, if_neg hempty, hread, hkind.normalized, hid.normalizeId_eq]
        rfl
      · rw [List.flatMap_cons, hsegments]
        rfl
      · exact paired_cons_iff.2 ⟨fun _ => Option.some_ne_none id, hpaired⟩

/-- Subjects of which only the last may lack an id are read from their segments. -/
theorem subjectsOfSegments_of_paired
    {subjects : List Subject}
    (h : ∀ segment ∈ subjects.flatMap subjectSegments, IsNormal segment)
    (hpaired : Paired ⟨subjects⟩)
    (position : Nat) :
    subjectsOfSegments position (subjects.flatMap subjectSegments) = .ok subjects := by
  induction subjects generalizing position with
  | nil => rfl
  | cons subject subjects ih =>
      obtain ⟨kind, id⟩ := subject
      obtain ⟨hid, hrest⟩ := paired_cons_iff.1 hpaired
      simp only [List.flatMap_cons, subjectSegments, List.cons_append, List.forall_mem_cons,
        List.forall_mem_append] at h
      obtain ⟨hkind, hid', hsegments⟩ := h
      have hne : normalizeSegment kind ≠ "" := by
        rw [hkind.normalized]
        exact hkind.ne_empty
      cases id with
      | some id =>
          have hnormal := hid' id (by simp)
          simp only [List.flatMap_cons, subjectSegments, Option.toList_some, List.cons_append,
            List.nil_append]
          rw [subjectsOfSegments, if_neg hne, ih hsegments hrest, hkind.normalized,
            hnormal.normalizeId_eq]
          rfl
      | none =>
          have hnil : subjects = [] := by
            by_contra hcons
            exact hid hcons rfl
          subst hnil
          rw [List.flatMap_cons, List.flatMap_nil, List.append_nil]
          change subjectsOfSegments position [kind] = _
          rw [subjectsOfSegments, if_neg hne, hkind.normalized]

theorem IsNormal.stops
    {segment : String}
    (h : IsNormal segment) :
    Text.Stops Text.isBlank segment.toList := by
  rw [← h.normalized]
  exact stops_normalizeSegment segment

/-- The text of a scope with normal segments is read as these segments. -/
theorem ofText_text
    {s : Scope}
    (h : ∀ segment ∈ s.subjects.flatMap subjectSegments, IsNormal segment) :
    ofText s.text = ofSegments (s.subjects.flatMap subjectSegments) := by
  have htext := toList_text s
  generalize s.subjects.flatMap subjectSegments = segments at h htext ⊢
  unfold ofText
  cases segments with
  | nil =>
      rw [htext]
      rfl
  | cons first rest =>
      obtain ⟨hfirst, -⟩ := List.forall_mem_cons.1 h
      have hstops := Text.stops_joined (by simpa using hfirst.ne_empty) hfirst.stops
        scopeDelimiter (rest.map String.toList)
      have hsplit : splitSegments s.text.toList = first :: rest := by
        rw [splitSegments, htext, List.splitOn_intercalate, List.map_map]
        · simp
        · intro chars hchars
          obtain ⟨segment, hsegment, rfl⟩ := List.mem_map.1 hchars
          exact (h segment hsegment).no_delimiter
        · simp
      have hblank : ¬Text.isAllBlank s.text.toList = true := by
        rw [List.map_cons] at htext
        rw [← htext] at hstops
        cases hchars : s.text.toList with
        | nil =>
            rw [splitSegments, hchars, List.splitOn_nil] at hsplit
            cases hsplit
            exact absurd rfl hfirst.ne_empty
        | cons c chars =>
            rw [hchars] at hstops
            simp [Text.isAllBlank, hstops.head]
      rw [if_neg hblank, hsplit]

/-- The text of a scope that was read reads, with the same segments, and gives the same scope
exactly if no type without an id stands in front of another one. -/
theorem exists_ofText_text
    {text : String} {s : Scope}
    (h : ofText text = .ok s) :
    ∃ t, ofText s.text = .ok t ∧
      t.subjects.flatMap subjectSegments = s.subjects.flatMap subjectSegments ∧
        (t = s ↔ s.Paired) := by
  have hnormal := isNormal_of_ofText h
  obtain ⟨subjects, hread, hsegments, hpaired⟩ := exists_subjectsOfSegments hnormal 0
  refine ⟨⟨subjects⟩, ?_, hsegments, ?_⟩
  · rw [ofText_text hnormal, ofSegments, hread]
    rfl
  · constructor
    · rintro rfl
      exact hpaired
    · intro hs
      rw [subjectsOfSegments_of_paired hnormal hs 0] at hread
      cases hread
      rfl

end Scope
end Warrant
