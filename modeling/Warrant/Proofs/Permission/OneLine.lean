import Warrant.Permission.Text
import Warrant.Proofs.Number.Layout
import Warrant.Proofs.Scope.Reading

/-!
# Permissions on one line

The conditions of a permission are written on one line: in strings a newline is escaped, and keys
that stand bare are identifiers.  The names and the scope of a permission are written as they are,
so its text has a newline if and only if one of them has.

**Results.**
* `newline_not_mem_write`: a written literal has no newline.
* `newline_not_mem_chars_iff`: which permissions have their text on one line.
-/

namespace Warrant

/-! Written literals. -/

namespace Literal

theorem newline_not_mem_hexPair : ∀ n < 32, '\n' ∉ Json.hexPair n := by
  decide

theorem newline_not_mem_escapeChar (c : Char) : '\n' ∉ Json.escapeChar c := by
  unfold Json.escapeChar
  split_ifs with _ _ _ _ hnewline _ _ hlow
  · decide
  · decide
  · decide
  · decide
  · decide
  · decide
  · decide
  · intro hmem
    rcases List.mem_append.1 hmem with hmem | hmem
    · exact absurd hmem (by decide)
    · exact newline_not_mem_hexPair c.toNat hlow hmem
  · intro hmem
    exact hnewline (List.mem_singleton.1 hmem).symm

theorem newline_not_mem_stringText (s : String) : '\n' ∉ Json.stringText s := by
  intro hmem
  rw [Json.stringText, List.cons_append, List.mem_cons, List.mem_append, List.mem_flatMap] at hmem
  rcases hmem with hquote | ⟨c, -, hc⟩ | hquote
  · exact absurd hquote (by decide)
  · exact newline_not_mem_escapeChar c hc
  · exact absurd hquote (by decide)

theorem newline_not_mem_keyText (k : String) : '\n' ∉ keyText k := by
  unfold keyText
  split
  next hk =>
    intro hmem
    cases hchars : k.toList with
    | nil =>
        rw [hchars] at hmem
        cases hmem
    | cons c r =>
        rw [hchars] at hk hmem
        rw [isIdentifier, Bool.and_eq_true, List.all_eq_true] at hk
        rcases List.mem_cons.1 hmem with rfl | hr
        · exact absurd hk.1 (by decide)
        · exact absurd (hk.2 _ hr) (by decide)
  next => exact newline_not_mem_stringText k

theorem newline_not_mem_number (n : Number) : '\n' ∉ n.text :=
  fun hmem => absurd (Number.inNumeral_of_mem_text hmem) (by decide)

mutual

theorem newline_not_mem_write : ∀ v, '\n' ∉ write v
  | .null => by decide
  | .bool true => by decide
  | .bool false => by decide
  | .number n => newline_not_mem_number n
  | .string s => newline_not_mem_stringText s
  | .array [] => by decide
  | .array (v :: rest) => by
      simp [write, newline_not_mem_write v, newline_not_mem_writeItems rest]
  | .object [] => by decide
  | .object ((k, v) :: rest) => by
      simp [write, newline_not_mem_keyText k, newline_not_mem_write v,
        newline_not_mem_writeEntries rest]

theorem newline_not_mem_writeItems : ∀ vs, '\n' ∉ writeItems vs
  | [] => by decide
  | v :: rest => by
      simp [writeItems, newline_not_mem_write v, newline_not_mem_writeItems rest]

theorem newline_not_mem_writeEntries : ∀ entries, '\n' ∉ writeEntries entries
  | [] => by decide
  | (k, v) :: rest => by
      simp [writeEntries, newline_not_mem_keyText k, newline_not_mem_write v,
        newline_not_mem_writeEntries rest]

end

end Literal

/-! Permissions. -/

namespace Permission

/-- Every name, and every type and id of the scope, is on one line. -/
def OnOneLine (p : Permission) : Prop :=
  (∀ name ∈ p.subjects, '\n' ∉ name.toList) ∧ (∀ name ∈ p.actions, '\n' ∉ name.toList) ∧
    ∀ s ∈ p.scope, ∀ segment ∈ s.subjects.flatMap Scope.subjectSegments, '\n' ∉ segment.toList

theorem newline_not_mem_joined_iff
    {x : Char} (hx : x ≠ '\n')
    {segments : List String} :
    '\n' ∉ [x].intercalate (segments.map String.toList) ↔
      ∀ segment ∈ segments, '\n' ∉ segment.toList := by
  constructor
  · intro h segment hsegment hmem
    exact h (Text.mem_joined (List.mem_map_of_mem hsegment) hmem)
  · intro h hmem
    rcases Text.eq_or_mem_of_mem_joined hmem with rfl | ⟨piece, hpiece, hmem⟩
    · exact hx rfl
    · obtain ⟨segment, hsegment, rfl⟩ := List.mem_map.1 hpiece
      exact h segment hsegment hmem

theorem newline_not_mem_scopeText_iff
    {scope : Option Scope} :
    '\n' ∉ scopeText scope ↔
      ∀ s ∈ scope, ∀ segment ∈ s.subjects.flatMap Scope.subjectSegments,
        '\n' ∉ segment.toList := by
  cases scope with
  | none => simp [scopeText]
  | some s =>
      have hdelimiter : '\n' ∉ [scopeDelimiter] := by decide
      rw [scopeText, List.mem_append, not_or, Scope.toList_text,
        newline_not_mem_joined_iff (by decide)]
      simp [hdelimiter]

theorem newline_not_mem_blockText (conditions : Option Object) :
    '\n' ∉ blockText conditions := by
  cases conditions with
  | none => exact List.not_mem_nil
  | some query => exact Literal.newline_not_mem_write _

theorem newline_not_mem_effectText (effect : Effect) : '\n' ∉ effectText effect := by
  cases effect <;> decide

/-- The text of a permission is on one line exactly if its names and its scope are. -/
theorem newline_not_mem_chars_iff
    {p : Permission} :
    '\n' ∉ p.chars ↔ p.OnOneLine := by
  have hdelimiter : '\n' ∉ [scopeDelimiter] := by decide
  simp only [chars, List.mem_append, not_or, newline_not_mem_effectText, newline_not_mem_blockText,
    hdelimiter, not_false_eq_true, true_and, and_true, newline_not_mem_scopeText_iff, namesText,
    newline_not_mem_joined_iff (x := nameSeparator) (by decide), OnOneLine]
  tauto

end Permission
end Warrant
