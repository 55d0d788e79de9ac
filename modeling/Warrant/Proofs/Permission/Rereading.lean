import Warrant.Ability.Covers
import Warrant.Proofs.Permission.RoundTrip
import Warrant.Standard

/-!
# Permissions that are kept as texts

A permission that was read from a text may be kept as its compact form and read again.  Its
effect, its names and its conditions come back as they were, and so does the text of its scope;
since a scope only counts by its text when requests are decided, the permission that comes back
covers what the first one did.  The scope itself is divided anew into types and ids.  It comes
back as it was exactly if only its last subject may lack an id.

**Results.**
* `stops_chars_of_parse`: the compact form of a grant that was read is not mistaken for a denial.
* `coversScope_of_segments_eq`: a scope with the same segments covers the same requests.
* `parse_text_of_parse`: what comes back of a permission that was read from a text.
* `parse_text_typeOnly_ne`: a type without an id takes the next type for its id.
-/

namespace Warrant
namespace Permission

open Text (Stops)

/-! A grant that was read does not begin with the mark of a denial. -/

theorem eq_of_splitEffect
    {s rest : List Char}
    (h : splitEffect s = (.can, rest)) :
    rest = s ∧ Stops (· == denialMark) s := by
  cases s with
  | nil =>
      cases h
      exact ⟨rfl, Text.stops_nil⟩
  | cons c s =>
      rw [splitEffect] at h
      split at h
      · cases h
      next hc =>
        cases h
        exact ⟨rfl, Text.stops_cons (by simpa using hc) s⟩

theorem stops_namesText_namesOf
    {p : Char → Bool}
    {part : List Char}
    (hnames : PlainNames (namesOf part))
    (hblank : Stops Text.isBlank part)
    (hpart : Stops p part) :
    Stops p (namesText (namesOf part)) ∧ namesText (namesOf part) ≠ [] := by
  have hne := (stops_reverse_namesText hnames).1
  refine ⟨?_, hne⟩
  obtain ⟨piece, pieces, hsplit⟩ := List.exists_cons_of_ne_nil
    (List.splitOn_ne_nil nameSeparator part)
  have hfirst := Text.stops_trim_of_splitOn hsplit hblank hpart
  have hcons : namesOf part = String.ofList (Text.trim piece) ::
      pieces.map fun name => String.ofList (Text.trim name) := by
    rw [namesOf, hsplit, List.map_cons]
  rw [hcons] at hnames ⊢
  have hname := hnames.plain _ List.mem_cons_self
  refine Text.stops_joined hname.toList_ne_nil ?_ nameSeparator _
  rwa [String.toList_ofList]

/-- The compact form of a grant that was read does not begin with the mark of a denial. -/
theorem stops_chars_of_parse
    {text : String} {p : Permission}
    (h : parse text = .ok p)
    (hcan : p.effect = .can) :
    Stops (· == denialMark) p.chars := by
  have hclear := clear_of_parse h
  obtain ⟨effect, rest, hsplit⟩ : ∃ effect rest,
      splitEffect (Text.trim text.toList) = (effect, rest) := ⟨_, _, rfl⟩
  obtain ⟨heffect, -, front, subjectPart, actionPart, hparts, hsubjects, -, -, -, hscope⟩ :=
    (parse_eq_ok_iff hsplit).1 h
  rw [hcan] at heffect
  subst heffect
  obtain ⟨rfl, hmark⟩ := eq_of_splitEffect hsplit
  -- the body begins like the text, and what is first in it begins like the body
  have hbody : Text.beforeBrace (Text.trim text.toList) <+: Text.trim text.toList :=
    List.takeWhile_prefix _
  have hbodyMark := Text.stops_of_isPrefix hbody hmark
  have hbodyBlank := Text.stops_of_isPrefix hbody (Text.stops_trim text.toList)
  unfold chars
  simp only [List.append_assoc, hcan, effectText, List.nil_append]
  rcases readScope_eq_ok_iff.1 hscope with ⟨rfl, hnone⟩ | ⟨s, -, hsome, hread⟩
  · have hpart := Text.prefix_of_splitOn hparts
    have hplain := hclear.subjects
    rw [← hsubjects] at hplain
    obtain ⟨hstops, hne⟩ := stops_namesText_namesOf hplain
      (Text.stops_of_isPrefix hpart hbodyBlank) (Text.stops_of_isPrefix hpart hbodyMark)
    rw [hnone, scopeText, List.nil_append, ← hsubjects]
    exact Text.stops_append hne hstops
  · have hfront : [scopeDelimiter].intercalate front <+:
        Text.beforeBrace (Text.trim text.toList) := by
      have hjoined : [scopeDelimiter].intercalate (front ++ [subjectPart, actionPart]) =
          Text.beforeBrace (Text.trim text.toList) := by
        rw [← hparts, List.intercalate_splitOn]
      rw [← hjoined]
      exact Text.joined_prefix_append scopeDelimiter front _
    have hstops := Scope.stops_text_of_first_piece (p := (· == denialMark)) ?_ hread ?_
    · rw [hsome, scopeText]
      cases htext : s.text.toList with
      | nil => exact Text.stops_cons rfl _
      | cons c r =>
          rw [htext] at hstops
          have hne := List.cons_ne_nil c r
          exact Text.stops_append (List.append_ne_nil_of_left_ne_nil hne _)
            (Text.stops_append hne hstops)
    · intro c hc
      simp only [denialMark, beq_iff_eq] at hc
      simp [Text.isMark, hc]
    · intro piece pieces hpieces
      rw [String.toList_ofList] at hpieces
      exact Text.stops_trim_of_splitOn hpieces (Text.stops_of_isPrefix hfront hbodyBlank)
        (Text.stops_of_isPrefix hfront hbodyMark)

/-! The scope that comes back. -/

theorem text_eq_of_segments_eq
    {s t : Scope}
    (h : t.subjects.flatMap Scope.subjectSegments = s.subjects.flatMap Scope.subjectSegments) :
    t.text = s.text := by
  rw [Scope.text, Scope.text, h]

theorem isGlobal_eq_of_segments_eq
    {s t : Scope}
    (h : t.subjects.flatMap Scope.subjectSegments = s.subjects.flatMap Scope.subjectSegments) :
    t.isGlobal = s.isGlobal := by
  unfold Scope.isGlobal
  cases hs : s.subjects <;> cases ht : t.subjects <;>
    simp [hs, ht, Scope.subjectSegments] at h ⊢

/-- As a grant, a scope counts by its segments only. -/
theorem coversScope_of_segments_eq
    [Languages]
    {s t : Scope}
    (h : t.subjects.flatMap Scope.subjectSegments = s.subjects.flatMap Scope.subjectSegments)
    (requested : Option Scope) :
    coversScope (some t) requested = coversScope (some s) requested := by
  have hpattern : t.pattern = s.pattern := by
    rw [Scope.pattern, Scope.pattern, Scope.glob, Scope.glob, text_eq_of_segments_eq h]
  cases requested with
  | none => rfl
  | some r => rw [coversScope, coversScope, isGlobal_eq_of_segments_eq h, hpattern]

theorem text_of_scope_eq
    {p q : Permission}
    (hq : q = { p with scope := q.scope })
    (hscope : scopeText q.scope = scopeText p.scope) :
    q.text = p.text := by
  rw [text, text, chars, chars, hscope, hq]

/-- The scope of a permission that was read was read from a text itself. -/
theorem exists_ofText_of_parse
    {text : String} {p : Permission} {s : Scope}
    (h : parse text = .ok p)
    (hs : p.scope = some s) :
    ∃ written, Scope.ofText written = .ok s := by
  obtain ⟨-, -, front, -, -, -, -, -, -, -, hscope⟩ := (parse_eq_ok_iff rfl).1 h
  rcases readScope_eq_ok_iff.1 hscope with ⟨-, hnone⟩ | ⟨t, -, hsome, hread⟩
  · rw [hnone] at hs
    cases hs
  · rw [hsome] at hs
    cases hs
    exact ⟨_, hread⟩

/-- **What comes back of a permission that was read from a text and kept as its compact form:** a
permission that differs in its scope at most, whose text is the same and which covers the same
requests.  It is the permission itself exactly if no subject of its scope but the last lacks an
id. -/
theorem parse_text_of_parse
    [Languages]
    {text : String} {p : Permission}
    (h : parse text = .ok p) :
    ∃ q, parse p.text = .ok q ∧ q = { p with scope := q.scope } ∧ q.text = p.text ∧
      (∀ config request context,
        covers config q request context = covers config p request context) ∧
      (q = p ↔ ∀ s, p.scope = some s → s.Paired) := by
  have hclear := clear_of_parse h
  have hkeys := keysDistinct_of_parse h
  have hmark : p.effect = .cannot ∨ p.chars.head? ≠ some denialMark := by
    cases heffect : p.effect with
    | cannot => exact Or.inl rfl
    | can =>
        refine Or.inr fun hhead => ?_
        have hstops := stops_chars_of_parse h heffect denialMark hhead
        simp at hstops
  cases hscope : p.scope with
  | none =>
      refine ⟨p, (hclear.parses_iff hkeys hmark).2 ⟨rfl, ?_⟩, rfl, rfl, fun _ _ _ => rfl, ?_⟩
      · exact readScope_scopePieces.2 (Or.inl ⟨hscope, hscope⟩)
      · simp
  | some s =>
      obtain ⟨written, hwritten⟩ := exists_ofText_of_parse h hscope
      obtain ⟨t, hread, hsegments, hsame⟩ := Scope.exists_ofText_text hwritten
      refine ⟨{ p with scope := some t }, (hclear.parses_iff hkeys hmark).2 ⟨rfl, ?_⟩, rfl, ?_,
        ?_, ?_⟩
      · exact readScope_scopePieces.2 (Or.inr ⟨s, t, hscope, rfl, hread⟩)
      · apply text_of_scope_eq rfl
        rw [hscope, scopeText, scopeText, text_eq_of_segments_eq hsegments]
      · intro config request context
        simp only [covers, hscope, coversScope_of_segments_eq hsegments]
      · constructor
        · intro hp s' hs'
          cases hs'
          rw [← hp] at hscope
          exact hsame.1 (Option.some.inj hscope)
        · intro hpaired
          rw [hsame.2 (hpaired s rfl), ← hscope]

/-- The reading of `org::app:1:user:read`: its scope has a type without an id in front of another
type. -/
def typeOnlyGrant : Permission where
  subjects := ["user"]
  actions := ["read"]
  scope := some ⟨[⟨"org", none⟩, ⟨"app", some "1"⟩]⟩

/-- A type without an id comes back with the type behind it for its id. -/
theorem parse_text_typeOnly_ne :
    parse "org::app:1:user:read" = .ok typeOnlyGrant ∧
      parse typeOnlyGrant.text =
        .ok { typeOnlyGrant with scope := some ⟨[⟨"org", some "app"⟩, ⟨"1", none⟩]⟩ } ∧
      parse typeOnlyGrant.text ≠ .ok typeOnlyGrant := by
  have hread : parse typeOnlyGrant.text =
      .ok { typeOnlyGrant with scope := some ⟨[⟨"org", some "app"⟩, ⟨"1", none⟩]⟩ } := rfl
  refine ⟨rfl, hread, ?_⟩
  rw [hread]
  intro h
  have hscope := congrArg Permission.scope (Except.ok.inj h)
  exact absurd hscope (by decide)

/-- The reading of `!org:1:app:user,role:read`, however it is written. -/
def denialInApp : Permission where
  subjects := ["user", "role"]
  actions := ["read"]
  effect := .cannot
  scope := some ⟨[⟨"org", some "1"⟩, ⟨"app", none⟩]⟩

/-- A denial whose scope ends with a type only is read back from its compact form. -/
theorem parse_text_of_denial :
    parse " !Org: 1 :App::user, role:read" = .ok denialInApp ∧
      parse "!org:1:app:user,role:read" = .ok denialInApp := by
  have hread : parse " !Org: 1 :App::user, role:read" = .ok denialInApp := rfl
  refine ⟨hread, ?_⟩
  obtain ⟨q, hq, -, -, -, hsame⟩ := parse_text_of_parse hread
  have hpaired : q = denialInApp := hsame.2 (by
    rintro _ ⟨⟩
    simp [Scope.Paired])
  rw [hpaired] at hq
  exact hq

end Permission
end Warrant
