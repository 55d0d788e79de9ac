import Warrant.Proofs.Json.StringText
import Warrant.Proofs.Scope.Obtainable
import Warrant.Standard

/-!
# Scopes are stable

Whatever scope can be obtained is settled: to read its subjects again changes nothing, so neither
does any number of readings.  Its text is read alike in every way in which a scope is read from a
text: by itself, as a data value, and as a data value that was written out and read back.  This
gives a scope if no type and no id holds the delimiter.

**Results.**
* `settled_of_normalized`: what normalising leaves as it is, each of its steps does.
* `ofSubjects_of_settled`: settled subjects are read as they are.
* `roundTrip?_eq`: to write a scope out and to read it back is to read its text.
* `stable_of_obtainable`: the invariant of all scopes that can be obtained, and what follows.
-/

namespace Warrant
namespace Scope

/-- A type or an id as it stands in a scope: not empty, and left as it is by normalising, without
blanks at its ends and in lowercase. -/
structure Settled (segment : String) : Prop where
  ne_empty : segment ≠ ""
  normalized : normalizeSegment segment = segment
  trimmed : Text.trim segment.toList = segment.toList
  lowercase : Text.lowercase segment.toList = segment.toList

/-- What normalising leaves as it is, each of its two steps leaves as it is. -/
theorem settled_of_normalized
    {segment : String}
    (hne : segment ≠ "")
    (hnormalized : normalizeSegment segment = segment) :
    Settled segment := by
  have htrim : Text.trim segment.toList = segment.toList := by
    rw [← hnormalized]
    exact Text.trim_of_stops (stops_normalizeSegment segment)
      (stops_reverse_normalizeSegment segment)
  refine ⟨hne, hnormalized, htrim, ?_⟩
  rw [normalizeSegment, htrim] at hnormalized
  rw [← hnormalized, String.toList_ofList, Text.lowercase_lowercase]

/-- The types and the ids of a scope are settled. -/
def AllSettled (s : Scope) : Prop :=
  ∀ subject ∈ s.subjects, Settled subject.kind ∧ ∀ id ∈ subject.id, Settled id

theorem Normalized.allSettled
    {s : Scope}
    (h : s.Normalized) :
    s.AllSettled := by
  intro subject hsubject
  have hsegment : ∀ segment ∈ subjectSegments subject, Settled segment := by
    intro segment hsegment
    obtain ⟨hne, hnormalized⟩ := h segment (List.mem_flatMap.2 ⟨subject, hsubject, hsegment⟩)
    exact settled_of_normalized hne hnormalized
  refine ⟨hsegment _ (by simp [subjectSegments]), ?_⟩
  intro id hid
  exact hsegment _ (by simp [subjectSegments, Option.mem_def.1 hid])

theorem normalizeSubject_of_settled
    {subject : Subject}
    (hkind : Settled subject.kind)
    (hid : ∀ id ∈ subject.id, Settled id) :
    normalizeSubject subject = .ok subject := by
  obtain ⟨kind, id⟩ := subject
  have hnormalId : normalizeId id = id := by
    cases id with
    | none => rfl
    | some id => exact normalizeId_of_normalized (hid id rfl).ne_empty (hid id rfl).normalized
  unfold normalizeSubject
  rw [hkind.normalized, if_neg hkind.ne_empty, hnormalId]

/-- Settled subjects are read as they are. -/
theorem ofSubjects_of_settled
    {s : Scope}
    (h : s.AllSettled) :
    ofSubjects s.subjects = .ok s := by
  have hread : s.subjects.mapM normalizeSubject = .ok s.subjects := by
    refine mapM_eq_ok_iff.2 (List.forall₂_same.2 ?_)
    intro subject hsubject
    exact normalizeSubject_of_settled (h subject hsubject).1 (h subject hsubject).2
  rw [ofSubjects, hread]
  rfl

section Floats

variable [Json.Floats]

/-- The scope that is decoded where a scope was written out as a data text. -/
def roundTrip? (depth : Nat) (s : Scope) : Option Scope :=
  (Json.read? depth (Json.string s.text).print).bind fun v => (decode v).toOption

/-- To write a scope out and to read it back is to read its text. -/
theorem roundTrip?_eq
    (depth : Nat)
    (s : Scope) :
    roundTrip? depth s = (ofText s.text).toOption := by
  rw [roundTrip?, Json.read?_print_string]
  change ((ofText s.text).mapError _).toOption = _
  cases ofText s.text <;> rfl

end Floats

/-- The text of an undivided scope reads. -/
theorem exists_ofText_text_of_undivided
    {s : Scope}
    (h : s.Normalized)
    (hundivided : s.Undivided) :
    ∃ t, ofText s.text = .ok t := by
  have hnormal : ∀ segment ∈ s.subjects.flatMap subjectSegments, IsNormal segment := by
    intro segment hsegment
    obtain ⟨hne, hnormalized⟩ := h segment hsegment
    exact ⟨hne, hnormalized, undivided_iff.1 hundivided segment hsegment⟩
  obtain ⟨subjects, hread, -⟩ := exists_subjectsOfSegments hnormal 0
  refine ⟨⟨subjects⟩, ?_⟩
  rw [ofText_text hnormal, ofSegments, hread]
  rfl

/-- **Every scope that can be obtained is settled.**  So its subjects are read as the scope itself,
its text and its data text give the same scope or are both refused, and if no type and no id of it
holds the delimiter they give one. -/
theorem stable_of_obtainable
    [Json.Floats]
    {s : Scope}
    (h : s.Obtainable) :
    (∀ subject ∈ s.subjects, Settled subject.kind ∧ ∀ id ∈ subject.id, Settled id) ∧
      ofSubjects s.subjects = .ok s ∧
      (∀ depth, roundTrip? depth s = (ofText s.text).toOption) ∧
      (s.Undivided → ∃ t, ofText s.text = .ok t ∧ ∀ depth, roundTrip? depth s = some t) := by
  have hsettled := h.normalized.allSettled
  refine ⟨hsettled, ofSubjects_of_settled hsettled, fun depth => roundTrip?_eq depth s, ?_⟩
  intro hundivided
  obtain ⟨t, hread⟩ := exists_ofText_text_of_undivided h.normalized hundivided
  refine ⟨t, hread, ?_⟩
  intro depth
  rw [roundTrip?_eq, hread]
  rfl

/-- Three scopes of different encodings, one below the other.  The second one has no id. -/
def userOfApp : Scope :=
  ⟨[⟨"org", some "1"⟩, ⟨"app", none⟩, ⟨"user", some "7"⟩]⟩

theorem obtainable_userOfApp : userOfApp.Obtainable := by
  have horg : ofText " Org: 1" = .ok ⟨[⟨"org", some "1"⟩]⟩ := rfl
  have happ : ofJson (.array [.string "App", .string " "]) = .ok ⟨[⟨"app", none⟩]⟩ := rfl
  have huser : ofSubjects [⟨"USER", some "7 "⟩] = .ok ⟨[⟨"user", some "7"⟩]⟩ := rfl
  exact ((Obtainable.ofText horg).join (.ofJson happ)).join (.ofSubjects huser)

/-- The type without an id takes the next type for its id, in both ways of reading. -/
theorem stable_of_obtainable_userOfApp :
    userOfApp.Obtainable ∧
      userOfApp.Undivided ∧
      ofSubjects userOfApp.subjects = .ok userOfApp ∧
      ofText userOfApp.text = .ok ⟨[⟨"org", some "1"⟩, ⟨"app", some "user"⟩, ⟨"7", none⟩]⟩ ∧
      roundTrip? 127 userOfApp =
        some ⟨[⟨"org", some "1"⟩, ⟨"app", some "user"⟩, ⟨"7", none⟩]⟩ := by
  have hundivided : userOfApp.Undivided := by
    simp [Undivided, userOfApp, scopeDelimiter]
  have hread : ofText userOfApp.text =
      .ok ⟨[⟨"org", some "1"⟩, ⟨"app", some "user"⟩, ⟨"7", none⟩]⟩ :=
    rfl
  obtain ⟨-, hsubjects, -, hundividedReads⟩ := stable_of_obtainable obtainable_userOfApp
  obtain ⟨t, ht, htrip⟩ := hundividedReads hundivided
  rw [hread] at ht
  cases ht
  exact ⟨obtainable_userOfApp, hundivided, hsubjects, hread, htrip 127⟩

end Scope
end Warrant
