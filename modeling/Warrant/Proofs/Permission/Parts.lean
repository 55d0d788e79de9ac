import Warrant.Permission.Text
import Warrant.Proofs.Literal.Reading
import Warrant.Proofs.Permission.Sameness

/-!
# The parts of a permission text

A permission text reads if each of its parts does: its names, its scope and its condition block.
Which permission it denotes is then said part by part.

**Results.**
* `readNames_eq_ok_iff`, `readBlock_eq_ok_iff`, `readScope_eq_ok_iff`: when each part reads.
* `parse_eq_ok_iff`: when a text denotes a permission.
* `keysDistinct_of_parse`: the conditions of a text hold no key twice.
-/

namespace Warrant
namespace Permission

theorem readNames_eq_ok_iff
    {fault : PermissionError}
    {part : List Char}
    {names : List String} :
    readNames fault part = .ok names ↔ namesOf part = names ∧ "" ∉ names := by
  have hany : (namesOf part).any (· == "") = true ↔ "" ∈ namesOf part := by
    simp [List.any_eq_true]
  unfold readNames
  split
  next h =>
    constructor
    · rintro ⟨⟩
    · rintro ⟨rfl, hmem⟩
      exact absurd (hany.1 h) hmem
  next h =>
    constructor
    · rintro ⟨⟩
      exact ⟨rfl, fun hmem => h (hany.2 hmem)⟩
    · rintro ⟨rfl, -⟩
      rfl

theorem readBlock_eq_ok_iff
    {text : String}
    {block : List Char}
    {conditions : Option Object} :
    readBlock text block = .ok conditions ↔
      (block = [] ∧ conditions = none) ∨
        ∃ query, block ≠ [] ∧ conditions = some query ∧
          Literal.parseChars block = .ok (.object query) := by
  unfold readBlock
  cases block with
  | nil =>
      rw [if_pos List.isEmpty_nil, Except.ok.injEq]
      constructor
      · rintro rfl
        exact Or.inl ⟨rfl, rfl⟩
      · rintro (⟨-, rfl⟩ | ⟨query, hne, -⟩)
        · rfl
        · exact absurd rfl hne
  | cons c r =>
      rw [if_neg (by simp)]
      constructor
      · intro h
        split at h
        next query hq =>
          cases h
          exact Or.inr ⟨query, by simp, rfl, hq⟩
        next => cases h
      · rintro (⟨h, -⟩ | ⟨query, -, rfl, hq⟩)
        · cases h
        · rw [hq]

theorem readScope_eq_ok_iff
    {parts : List (List Char)}
    {scope : Option Scope} :
    readScope parts = .ok scope ↔
      (parts = [] ∧ scope = none) ∨
        ∃ s, parts ≠ [] ∧ scope = some s ∧
          Scope.ofText (String.ofList ([scopeDelimiter].intercalate parts)) = .ok s := by
  unfold readScope
  cases parts with
  | nil =>
      rw [if_pos List.isEmpty_nil, Except.ok.injEq]
      constructor
      · rintro rfl
        exact Or.inl ⟨rfl, rfl⟩
      · rintro (⟨-, rfl⟩ | ⟨s, hne, -⟩)
        · rfl
        · exact absurd rfl hne
  | cons part parts =>
      rw [if_neg (by simp)]
      constructor
      · intro h
        split at h
        next s hs =>
          cases h
          exact Or.inr ⟨s, by simp, rfl, hs⟩
        next => cases h
      · rintro (⟨h, -⟩ | ⟨s, -, rfl, hs⟩)
        · cases h
        · rw [hs]

theorem ofParts_eq_ok_iff
    {text : String}
    {effect : Effect}
    {conditions : Option Object}
    {parts : List (List Char)}
    {p : Permission} :
    ofParts text effect conditions parts.reverse = .ok p ↔
      p.effect = effect ∧ p.conditions = conditions ∧
        ∃ front subjectPart actionPart,
          parts = front ++ [subjectPart, actionPart] ∧
            namesOf subjectPart = p.subjects ∧ "" ∉ p.subjects ∧
              namesOf actionPart = p.actions ∧ "" ∉ p.actions ∧
                readScope front = .ok p.scope := by
  constructor
  · intro h
    generalize hr : parts.reverse = reversed at h
    have hparts : parts = reversed.reverse := by rw [← hr, List.reverse_reverse]
    match reversed, hparts, h with
    | [], _, h => cases h
    | [_], _, h => cases h
    | actionPart :: subjectPart :: front, hparts, h =>
        obtain ⟨actions, ha, h⟩ := exists_of_bind_eq_ok h
        obtain ⟨subjects, hs, h⟩ := exists_of_bind_eq_ok h
        obtain ⟨scope, ho, h⟩ := exists_of_bind_eq_ok h
        cases h
        rw [readNames_eq_ok_iff] at ha hs
        refine ⟨rfl, rfl, front.reverse, subjectPart, actionPart, ?_, hs.1, hs.2, ha.1, ha.2, ho⟩
        simp [hparts]
  · rintro ⟨rfl, rfl, front, subjectPart, actionPart, rfl, hs, hs', ha, ha', ho⟩
    have hsubjects : readNames (.emptySubject text) subjectPart = .ok p.subjects :=
      readNames_eq_ok_iff.2 ⟨hs, hs'⟩
    have hactions : readNames (.emptyAction text) actionPart = .ok p.actions :=
      readNames_eq_ok_iff.2 ⟨ha, ha'⟩
    simp only [List.reverse_append, List.reverse_cons, List.reverse_nil, List.nil_append,
      List.cons_append, ofParts, hsubjects, hactions, List.reverse_reverse, ho]
    rfl

theorem parse_eq
    {text : String}
    {effect : Effect}
    {rest : List Char}
    (hrest : splitEffect (Text.trim text.toList) = (effect, rest)) :
    parse text = (do
      let conditions ← readBlock text (Text.fromBrace rest)
      ofParts text effect conditions
        ((Text.beforeBrace rest).splitOn scopeDelimiter).reverse) := by
  unfold parse
  rw [hrest]

/-- A text denotes a permission if its parts denote the permission's parts. -/
theorem parse_eq_ok_iff
    {text : String}
    {p : Permission}
    {effect : Effect}
    {rest : List Char}
    (hrest : splitEffect (Text.trim text.toList) = (effect, rest)) :
    parse text = .ok p ↔
      p.effect = effect ∧ readBlock text (Text.fromBrace rest) = .ok p.conditions ∧
        ∃ front subjectPart actionPart,
          (Text.beforeBrace rest).splitOn scopeDelimiter = front ++ [subjectPart, actionPart] ∧
            namesOf subjectPart = p.subjects ∧ "" ∉ p.subjects ∧
              namesOf actionPart = p.actions ∧ "" ∉ p.actions ∧
                readScope front = .ok p.scope := by
  rw [parse_eq hrest]
  cases hb : readBlock text (Text.fromBrace rest) with
  | error e =>
      constructor
      · intro h
        cases h
      · rintro ⟨-, h, -⟩
        cases h
  | ok conditions =>
      refine Iff.trans ofParts_eq_ok_iff ?_
      constructor
      · rintro ⟨he, hc, h⟩
        exact ⟨he, by rw [hc], h⟩
      · rintro ⟨he, hc, h⟩
        cases hc
        exact ⟨he, rfl, h⟩

/-- The conditions of a permission text hold no key twice. -/
theorem keysDistinct_of_parse
    {text : String}
    {p : Permission}
    (h : parse text = .ok p) :
    p.KeysDistinct := by
  obtain ⟨-, hblock, -⟩ := (parse_eq_ok_iff rfl).1 h
  rcases readBlock_eq_ok_iff.1 hblock with ⟨-, hnone⟩ | ⟨query, -, hsome, hquery⟩
  · rw [KeysDistinct, hnone]
    exact conditionsDistinct_none
  · rw [KeysDistinct, hsome, conditionsDistinct_some_iff]
    exact Literal.keysDistinct_of_parseChars hquery

end Permission
end Warrant
