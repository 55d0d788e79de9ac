import Warrant.Proofs.Scope.Reading
import Warrant.Scope.Encoding

/-!
# Scopes that can be obtained

A scope is read from one of its encodings, or made of other scopes: joined to one another, or cut
down to the parent.  In whatever way it was obtained, its types and ids are normalised and not
empty, for every reader normalises them and nothing else changes them.

They may hold the delimiter, though, unless the scope was read from a text: a segment of a list
and a part of a subject are taken as they are.  So it depends on the scope whether its own text is
read as the scope again.

**Results.**
* `Obtainable.normalized`: the invariant of all scopes that can be obtained.
* `isGlobal_of_ofText_text`: none of them has a blank text but the global one.
* `ofText_text_eq_ok_iff`: which of them are the reading of their own text.
-/

namespace Warrant
namespace Scope

/-- The scopes that the readers of the encodings and the operations on scopes give. -/
inductive Obtainable : Scope → Prop
  | global : Obtainable global
  | ofText {text : String} {s : Scope} :
      ofText text = .ok s →
      Obtainable s
  | ofSegments {segments : List String} {s : Scope} :
      ofSegments segments = .ok s →
      Obtainable s
  | ofSubjects {subjects : List Subject} {s : Scope} :
      ofSubjects subjects = .ok s →
      Obtainable s
  | ofJson {v : Json} {s : Scope} :
      ofJson v = .ok s →
      Obtainable s
  | decode {v : Json} {s : Scope} :
      decode v = .ok s →
      Obtainable s
  | join {s t : Scope} :
      Obtainable s →
      Obtainable t →
      Obtainable (s.join t)
  | parent {s t : Scope} :
      Obtainable s →
      s.parent? = some t →
      Obtainable t
  | concat {sources : List ScopeSource} {s : Scope} :
      (∀ t, ScopeSource.scope t ∈ sources → Obtainable t) →
      concat sources = .ok s →
      Obtainable s

/-- Every type and every id of the scope is in normalised form and not empty. -/
def Normalized (s : Scope) : Prop :=
  ∀ segment ∈ s.subjects.flatMap subjectSegments,
    segment ≠ "" ∧ normalizeSegment segment = segment

/-! The readers normalise. -/

theorem normalized_global : global.Normalized := by
  simp [Normalized, global]

theorem normalized_of_ofSegments
    {segments : List String} {s : Scope}
    (h : ofSegments segments = .ok s) :
    s.Normalized := by
  obtain ⟨subjects, hread, rfl⟩ := exists_of_map_eq_ok h
  intro segment hsegment
  obtain ⟨hne, part, -, rfl⟩ := segment_of_subjectsOfSegments hread segment hsegment
  exact ⟨hne, normalizeSegment_normalizeSegment part⟩

theorem normalized_of_ofText
    {text : String} {s : Scope}
    (h : ofText text = .ok s) :
    s.Normalized := by
  intro segment hsegment
  have hnormal := isNormal_of_ofText h segment hsegment
  exact ⟨hnormal.ne_empty, hnormal.normalized⟩

theorem segment_of_normalizeSubject
    {subject normal : Subject}
    (h : normalizeSubject subject = .ok normal) :
    ∀ segment ∈ subjectSegments normal, segment ≠ "" ∧ normalizeSegment segment = segment := by
  unfold normalizeSubject at h
  split at h
  · cases h
  next hkind =>
    cases h
    intro segment hsegment
    rcases List.mem_cons.1 hsegment with rfl | hid
    · exact ⟨hkind, normalizeSegment_normalizeSegment _⟩
    · obtain ⟨hne, part, -, rfl⟩ := normalizeId_eq_some (Option.mem_toList.1 hid)
      exact ⟨hne, normalizeSegment_normalizeSegment part⟩

theorem normalized_of_ofSubjects
    {subjects : List Subject} {s : Scope}
    (h : ofSubjects subjects = .ok s) :
    s.Normalized := by
  obtain ⟨normals, hnormals, rfl⟩ := exists_of_map_eq_ok h
  intro segment hsegment
  obtain ⟨normal, hmem, hsegment⟩ := List.mem_flatMap.1 hsegment
  obtain ⟨subject, -, hsubject⟩ := exists_left_of_forall₂ (mapM_eq_ok_iff.1 hnormals) hmem
  exact segment_of_normalizeSubject hsubject segment hsegment

theorem normalized_of_ofJson
    {v : Json} {s : Scope}
    (h : ofJson v = .ok s) :
    s.Normalized := by
  unfold ofJson at h
  split at h
  · cases h
    exact normalized_global
  · exact normalized_of_ofText h
  · split_ifs at h
    · cases h
      exact normalized_global
    · exact normalized_of_ofSegments h
    · obtain ⟨subjects, -, hsubjects⟩ := exists_of_bind_eq_ok h
      exact normalized_of_ofSubjects hsubjects
  · cases h

theorem normalized_of_decode
    {v : Json} {s : Scope}
    (h : decode v = .ok s) :
    s.Normalized := by
  unfold decode at h
  cases hread : ofJson v with
  | error e =>
      rw [hread] at h
      cases h
  | ok t =>
      rw [hread] at h
      cases h
      exact normalized_of_ofJson hread

/-! The operations change no type and no id. -/

theorem Normalized.join
    {s t : Scope}
    (hs : s.Normalized)
    (ht : t.Normalized) :
    (s.join t).Normalized := by
  intro segment hsegment
  rw [Scope.join, List.flatMap_append, List.mem_append] at hsegment
  rcases hsegment with hsegment | hsegment
  · exact hs segment hsegment
  · exact ht segment hsegment

theorem Normalized.parent
    {s t : Scope}
    (hs : s.Normalized)
    (h : s.parent? = some t) :
    t.Normalized := by
  unfold parent? at h
  split at h
  · cases h
  · cases h
    intro segment hsegment
    obtain ⟨subject, hsubject, hsegment⟩ := List.mem_flatMap.1 hsegment
    have hmem := List.dropLast_subset _ hsubject
    exact hs segment (List.mem_flatMap.2 ⟨subject, hmem, hsegment⟩)

theorem Normalized.foldl_join
    {scopes : List Scope} {s : Scope}
    (hs : s.Normalized)
    (hscopes : ∀ t ∈ scopes, t.Normalized) :
    (scopes.foldl Scope.join s).Normalized := by
  induction scopes generalizing s with
  | nil => exact hs
  | cons t scopes ih =>
      obtain ⟨ht, hrest⟩ := List.forall_mem_cons.1 hscopes
      exact ih (hs.join ht) hrest

theorem normalized_of_toScope
    {source : ScopeSource} {s : Scope}
    (hscope : ∀ t, source = .scope t → t.Normalized)
    (h : source.toScope = .ok s) :
    s.Normalized := by
  cases source with
  | text text => exact normalized_of_ofText h
  | segments parts => exact normalized_of_ofSegments h
  | subjects parts => exact normalized_of_ofSubjects h
  | value v => exact normalized_of_ofJson h
  | optional text =>
      cases text with
      | none =>
          cases h
          exact normalized_global
      | some text => exact normalized_of_ofText h
  | scope t =>
      cases h
      exact hscope s rfl

theorem normalized_of_concat
    {sources : List ScopeSource} {s : Scope}
    (hscopes : ∀ t, ScopeSource.scope t ∈ sources → t.Normalized)
    (h : concat sources = .ok s) :
    s.Normalized := by
  obtain ⟨scopes, hread, hjoin⟩ := exists_of_bind_eq_ok h
  cases hjoin
  apply normalized_global.foldl_join
  intro t ht
  obtain ⟨source, hmem, hsource⟩ := exists_left_of_forall₂ (mapM_eq_ok_iff.1 hread) ht
  refine normalized_of_toScope ?_ hsource
  rintro u rfl
  exact hscopes u hmem

/-- Every type and every id of a scope that can be obtained is in normalised form and not
empty. -/
theorem Obtainable.normalized
    {s : Scope}
    (h : s.Obtainable) :
    s.Normalized := by
  induction h with
  | global => exact normalized_global
  | ofText h => exact normalized_of_ofText h
  | ofSegments h => exact normalized_of_ofSegments h
  | ofSubjects h => exact normalized_of_ofSubjects h
  | ofJson h => exact normalized_of_ofJson h
  | decode h => exact normalized_of_decode h
  | join _ _ hs ht => exact hs.join ht
  | parent _ h hs => exact hs.parent h
  | concat _ h hscopes => exact normalized_of_concat hscopes h

/-! The text of a scope that can be obtained. -/

/-- No type and no id of the scope holds the delimiter. -/
def Undivided (s : Scope) : Prop :=
  ∀ subject ∈ s.subjects, scopeDelimiter ∉ subject.kind.toList ∧
    ∀ id ∈ subject.id, scopeDelimiter ∉ id.toList

theorem undivided_iff
    {s : Scope} :
    s.Undivided ↔
      ∀ segment ∈ s.subjects.flatMap subjectSegments, scopeDelimiter ∉ segment.toList := by
  simp only [Undivided, List.mem_flatMap, subjectSegments, List.mem_cons, Option.mem_toList,
    Option.mem_def]
  constructor
  · rintro h segment ⟨subject, hsubject, rfl | hid⟩
    · exact (h subject hsubject).1
    · exact (h subject hsubject).2 segment hid
  · intro h subject hsubject
    exact ⟨h subject.kind ⟨subject, hsubject, Or.inl rfl⟩,
      fun id hid => h id ⟨subject, hsubject, Or.inr hid⟩⟩

/-- Only a blank text is read as the global scope. -/
theorem isGlobal_iff_of_ofText
    {text : String} {s : Scope}
    (h : ofText text = .ok s) :
    s.isGlobal = true ↔ Text.isAllBlank text.toList = true := by
  unfold ofText at h
  split at h
  next hblank =>
    cases h
    exact ⟨fun _ => hblank, fun _ => rfl⟩
  next hblank =>
    obtain ⟨subjects, hread, rfl⟩ := exists_of_map_eq_ok h
    obtain ⟨piece, pieces, hsplit⟩ := List.exists_cons_of_ne_nil
      (List.splitOn_ne_nil scopeDelimiter text.toList)
    rw [splitSegments, hsplit, List.map_cons] at hread
    obtain ⟨rest, hcons⟩ := head_of_subjectsOfSegments hread
    refine ⟨fun hglobal => ?_, fun htext => absurd htext hblank⟩
    have hnil : subjects = [] := List.isEmpty_iff.1 hglobal
    rw [hnil] at hcons
    cases hcons

theorem Normalized.isGlobal_iff
    {s : Scope}
    (h : s.Normalized) :
    s.isGlobal = true ↔ Text.isAllBlank s.text.toList = true := by
  constructor
  · intro hglobal
    rw [isGlobal, List.isEmpty_iff] at hglobal
    rw [text, hglobal]
    rfl
  · intro hblank
    by_contra hglobal
    rw [isGlobal, List.isEmpty_iff] at hglobal
    obtain ⟨subject, subjects, hcons⟩ := List.exists_cons_of_ne_nil hglobal
    have hkind : subject.kind ∈ s.subjects.flatMap subjectSegments := by
      rw [hcons]
      simp [subjectSegments]
    obtain ⟨hne, hnormalized⟩ := h subject.kind hkind
    obtain ⟨c, r, hchars⟩ := List.exists_cons_of_ne_nil (mt String.toList_eq_nil_iff.1 hne)
    have hstops := stops_normalizeSegment subject.kind
    rw [hnormalized, hchars] at hstops
    have hmem : c ∈ s.text.toList := by
      rw [toList_text]
      exact Text.mem_joined (List.mem_map_of_mem hkind) (by rw [hchars]; exact List.mem_cons_self)
    rw [Text.isAllBlank, List.all_eq_true] at hblank
    have hhead := hstops.head
    rw [hblank c hmem] at hhead
    cases hhead

/-- The text of a scope that can be obtained is read as the global scope only if the scope is. -/
theorem isGlobal_of_ofText_text
    {s t : Scope}
    (h : s.Obtainable)
    (hread : ofText s.text = .ok t) :
    t.isGlobal = s.isGlobal :=
  Bool.eq_iff_iff.2 ((isGlobal_iff_of_ofText hread).trans h.normalized.isGlobal_iff.symm)

/-- **A scope that can be obtained is the reading of its own text if and only if no type and no id
of it holds the delimiter and every subject of it but the last has an id.** -/
theorem ofText_text_eq_ok_iff
    {s : Scope}
    (h : s.Obtainable) :
    ofText s.text = .ok s ↔ s.Undivided ∧ s.Paired := by
  rw [undivided_iff]
  constructor
  · intro hread
    refine ⟨fun segment hsegment => (isNormal_of_ofText hread segment hsegment).no_delimiter, ?_⟩
    obtain ⟨t, hread', -, hpaired⟩ := exists_ofText_text hread
    rw [hread] at hread'
    exact hpaired.1 (Except.ok.inj hread').symm
  · rintro ⟨hundivided, hpaired⟩
    have hnormal : ∀ segment ∈ s.subjects.flatMap subjectSegments, IsNormal segment := by
      intro segment hsegment
      obtain ⟨hne, hnormalized⟩ := h.normalized segment hsegment
      exact ⟨hne, hnormalized, hundivided segment hsegment⟩
    rw [ofText_text hnormal, ofSegments, subjectsOfSegments_of_paired hnormal hpaired 0]
    rfl

/-- Two scopes of different encodings, joined, are the reading of the text `org:1:app`. -/
theorem ofText_text_joined :
    Obtainable ⟨[⟨"org", some "1"⟩, ⟨"app", none⟩]⟩ ∧
      Undivided ⟨[⟨"org", some "1"⟩, ⟨"app", none⟩]⟩ ∧
      ofText (text ⟨[⟨"org", some "1"⟩, ⟨"app", none⟩]⟩) =
        .ok ⟨[⟨"org", some "1"⟩, ⟨"app", none⟩]⟩ := by
  have horg : ofText " Org: 1" = .ok ⟨[⟨"org", some "1"⟩]⟩ := rfl
  have happ : ofSubjects [⟨"APP", some ""⟩] = .ok ⟨[⟨"app", none⟩]⟩ := rfl
  have hjoined := (Obtainable.ofText horg).join (Obtainable.ofSubjects happ)
  have hundivided : Undivided ⟨[⟨"org", some "1"⟩, ⟨"app", none⟩]⟩ := by
    simp [Undivided, scopeDelimiter]
  refine ⟨hjoined, hundivided, (ofText_text_eq_ok_iff hjoined).2 ⟨hundivided, ?_⟩⟩
  simp [Paired, Scope.join]

end Scope
end Warrant
