import Mathlib.Data.List.Nodup
import Warrant.Proofs.Text.Runs
import Warrant.Scope.Template

/-!
# Placeholders replaced all at once

A placeholder is a name between braces without a brace in it.  Two placeholders of a text never
overlap, whatever braces stand around them, so a text is cut in one way only into the placeholders
whose names are known and the single characters besides.  Replacing the placeholders of this cut
needs no order: each gives its value, which is not looked at again, and each of the other characters
is kept.  The scan from the left gives the same text.

**Results.**
* `PlaceholderAt.apart`: placeholders do not overlap.
* `Cut.unique`: a text is cut in one way only.
* `substituteChars_placeholder`, `substituteChars_cons`: the scan, piece by piece.
* `exists_cut`: the scan gives the values in the place of the placeholders of the cut.
* `filled_iff`: there is one text that is filled all at once, and the scan gives it.
* `render_fills`: a rendered scope is filled all at once.
-/

namespace Warrant
namespace Template

open Text (isBrace beforeBrace fromBrace brace_parts_iff)

/-- Between `before` and `after` the text has a name in braces, without a brace in it. -/
structure PlaceholderAt (text before name after : List Char) : Prop where
  text_eq : text = before ++ '{' :: (name ++ '}' :: after)
  no_brace : ∀ c ∈ name, isBrace c = false

/-- A name is that of a variable with the given value, but for the case of its letters. -/
def Names (values : List (String × String)) (name value : List Char) : Prop :=
  ∃ v ∈ values, Text.lowercase v.1.toList = Text.lowercase name ∧ v.2.toList = value

/-- No two variables have one name in lowercase. -/
def NamedApart (values : List (String × String)) : Prop :=
  (values.map fun v => Text.lowercase v.1.toList).Nodup

/-- A piece of a text: a character that is kept, or a placeholder for which there is a value. -/
inductive Piece where
  | kept (c : Char)
  | filled (name value : List Char)

namespace Piece

/-- The piece as it stands in the text. -/
def source : Piece → List Char
  | .kept c => [c]
  | .filled name _ => '{' :: (name ++ ['}'])

/-- What stands in its place. -/
def result : Piece → List Char
  | .kept c => [c]
  | .filled _ value => value

theorem source_ne_nil (piece : Piece) : piece.source ≠ [] := by
  cases piece <;> exact List.cons_ne_nil _ _

end Piece

/-- The pieces are those of the text: the placeholders among them are the placeholders of the text
whose names are known, and all of these. -/
structure Cut (values : List (String × String)) (text : List Char) (pieces : List Piece) :
    Prop where
  source_eq : pieces.flatMap Piece.source = text
  names : ∀ name value, Piece.filled name value ∈ pieces →
    (∀ c ∈ name, isBrace c = false) ∧ Names values name value
  complete : ∀ before name after value,
    PlaceholderAt text before name after → Names values name value →
      ∃ front back, pieces = front ++ Piece.filled name value :: back ∧
        front.flatMap Piece.source = before ∧ back.flatMap Piece.source = after

/-- The second text is the first one with values in the place of all placeholders whose names are
known. -/
def Filled (values : List (String × String)) (text result : List Char) : Prop :=
  ∃ pieces, Cut values text pieces ∧ result = pieces.flatMap Piece.result

/-! Placeholders. -/

section Placeholders

variable {name name' after after' : List Char}

/-- The name of a placeholder is read up to the first brace. -/
theorem name_eq_beforeBrace (hname : ∀ c ∈ name, isBrace c = false) (after : List Char) :
    beforeBrace (name ++ '}' :: after) = name ∧ fromBrace (name ++ '}' :: after) = '}' :: after := by
  have hbrace : ∀ c ∈ ('}' :: after).head?, isBrace c = true := by
    intro c hc
    rw [List.head?_cons, Option.mem_some_iff] at hc
    rw [← hc]
    decide
  obtain ⟨hbefore, hfrom⟩ := brace_parts_iff.2 ⟨rfl, hname, hbrace⟩
  exact ⟨hbefore.symm, hfrom.symm⟩

theorem name_unique
    (hname : ∀ c ∈ name, isBrace c = false)
    (hname' : ∀ c ∈ name', isBrace c = false)
    (h : name ++ '}' :: after = name' ++ '}' :: after') :
    name = name' ∧ after = after' := by
  obtain ⟨hbefore, hfrom⟩ := name_eq_beforeBrace hname after
  obtain ⟨hbefore', hfrom'⟩ := name_eq_beforeBrace hname' after'
  rw [h, hbefore'] at hbefore
  rw [h, hfrom'] at hfrom
  exact ⟨hbefore.symm, (List.cons.inj hfrom).2.symm⟩

/-- An opening brace behind a name stands behind the closing brace of the name. -/
theorem openingBrace_behind_name
    {front rest : List Char}
    (hname : ∀ c ∈ name, isBrace c = false)
    (h : name ++ '}' :: after = front ++ '{' :: rest) :
    ∃ between, front = name ++ '}' :: between ∧ after = between ++ '{' :: rest := by
  induction name generalizing front with
  | nil =>
      cases front with
      | nil =>
          have hbrace := (List.cons.inj h).1
          exact absurd hbrace (by decide)
      | cons d front =>
          obtain ⟨rfl, hafter⟩ := List.cons.inj h
          exact ⟨front, rfl, hafter⟩
  | cons c name ih =>
      obtain ⟨hc, hname⟩ := List.forall_mem_cons.1 hname
      cases front with
      | nil =>
          obtain ⟨rfl, -⟩ := List.cons.inj h
          exact absurd hc (by decide)
      | cons d front =>
          obtain ⟨rfl, hrest⟩ := List.cons.inj h
          obtain ⟨between, rfl, hafter⟩ := ih hname hrest
          exact ⟨between, rfl, hafter⟩

namespace PlaceholderAt

/-- In a text that begins with a placeholder, every other one stands behind it. -/
theorem behind
    {before : List Char}
    (hname : ∀ c ∈ name, isBrace c = false)
    (h : PlaceholderAt ('{' :: (name ++ '}' :: after)) before name' after') :
    (before = [] ∧ name' = name ∧ after' = after) ∨
      ∃ between, before = '{' :: (name ++ '}' :: between) ∧
        PlaceholderAt after between name' after' := by
  obtain ⟨htext, hname'⟩ := h
  cases before with
  | nil =>
      obtain ⟨-, hnames⟩ := List.cons.inj htext
      obtain ⟨rfl, rfl⟩ := name_unique hname hname' hnames
      exact .inl ⟨rfl, rfl, rfl⟩
  | cons c before =>
      obtain ⟨rfl, hrest⟩ := List.cons.inj htext
      obtain ⟨between, rfl, hafter⟩ := openingBrace_behind_name hname hrest
      exact .inr ⟨between, rfl, hafter, hname'⟩

theorem append_left
    {text before : List Char}
    (h : PlaceholderAt text before name after)
    (front : List Char) :
    PlaceholderAt (front ++ text) (front ++ before) name after := by
  obtain ⟨rfl, hname⟩ := h
  exact ⟨(List.append_assoc _ _ _).symm, hname⟩

/-- **Placeholders do not overlap.**  Two of them are the same, or the one that begins later begins
behind the end of the other one. -/
theorem apart
    {text before before' : List Char}
    (h : PlaceholderAt text before name after)
    (h' : PlaceholderAt text before' name' after')
    (hle : before.length ≤ before'.length) :
    (before = before' ∧ name = name' ∧ after = after') ∨
      before.length + name.length + 2 ≤ before'.length := by
  obtain ⟨rfl, hname⟩ := h
  obtain ⟨htext, hname'⟩ := h'
  have hprefix : before' <+: before ++ '{' :: (name ++ '}' :: after) := by
    rw [htext]
    exact List.prefix_append _ _
  obtain ⟨front, rfl⟩ := List.prefix_of_prefix_length_le (List.prefix_append _ _) hprefix hle
  rw [List.append_assoc, List.append_cancel_left_eq] at htext
  rcases behind hname ⟨htext, hname'⟩ with ⟨rfl, rfl, rfl⟩ | ⟨between, rfl, -⟩
  · exact .inl ⟨(List.append_nil _).symm, rfl, rfl⟩
  · refine .inr ?_
    simp only [List.length_append, List.length_cons]
    omega

end PlaceholderAt

end Placeholders

/-! Variables. -/

section Variables

variable {values : List (String × String)} {name value value' : List Char}

theorem names_unique
    (hvalues : NamedApart values)
    (h : Names values name value)
    (h' : Names values name value') :
    value = value' := by
  obtain ⟨v, hv, hname, rfl⟩ := h
  obtain ⟨w, hw, hname', rfl⟩ := h'
  rw [List.inj_on_of_nodup_map hvalues hv hw (hname.trans hname'.symm)]

theorem valueOf?_eq_some_iff
    (hvalues : NamedApart values) :
    valueOf? values name = some value ↔ Names values name value := by
  have hsound : ∀ {value}, valueOf? values name = some value → Names values name value := by
    intro value h
    rw [valueOf?, Option.map_eq_some_iff] at h
    obtain ⟨v, hv, rfl⟩ := h
    have hname := List.find?_some hv
    exact ⟨v, List.mem_of_find?_eq_some hv, beq_iff_eq.1 hname, rfl⟩
  refine ⟨hsound, ?_⟩
  intro h
  cases hfound : valueOf? values name with
  | some value' => rw [names_unique hvalues h (hsound hfound)]
  | none =>
      obtain ⟨v, hv, hname, -⟩ := h
      rw [valueOf?, Option.map_eq_none_iff, List.find?_eq_none] at hfound
      exact absurd (beq_iff_eq.2 hname) (hfound v hv)

theorem valueOf?_eq_none_iff
    (hvalues : NamedApart values) :
    valueOf? values name = none ↔ ∀ value, ¬Names values name value := by
  simp only [← valueOf?_eq_some_iff hvalues, Option.eq_none_iff_forall_ne_some, ne_eq]

end Variables

/-! Cuts. -/

namespace Cut

variable {values : List (String × String)} {text : List Char} {piece : Piece} {pieces : List Piece}

theorem nil (values : List (String × String)) : Cut values [] [] := by
  refine ⟨rfl, by simp, ?_⟩
  intro before name after value h
  simpa using h.text_eq

/-- A character is kept if no placeholder with a known name begins at it. -/
theorem keep
    {c : Char}
    (hc : ∀ name after value, PlaceholderAt (c :: text) [] name after →
      ¬Names values name value)
    (h : Cut values text pieces) :
    Cut values (c :: text) (.kept c :: pieces) := by
  refine ⟨?_, ?_, ?_⟩
  · rw [List.flatMap_cons, h.source_eq]
    rfl
  · intro name value hmem
    rcases List.mem_cons.1 hmem with heq | hmem
    · cases heq
    · exact h.names name value hmem
  · intro before name after value hplace hnames
    cases before with
    | nil => exact absurd hnames (hc name after value hplace)
    | cons d before =>
        obtain ⟨htext, hname⟩ := hplace
        obtain ⟨rfl, hrest⟩ := List.cons.inj htext
        obtain ⟨front, back, rfl, rfl, rfl⟩ := h.complete _ _ _ _ ⟨hrest, hname⟩ hnames
        exact ⟨.kept c :: front, back, rfl, rfl, rfl⟩

/-- A placeholder with a known name is filled. -/
theorem fill
    {name value : List Char}
    (hvalues : NamedApart values)
    (hname : ∀ c ∈ name, isBrace c = false)
    (hnames : Names values name value)
    (h : Cut values text pieces) :
    Cut values ('{' :: (name ++ '}' :: text)) (.filled name value :: pieces) := by
  refine ⟨?_, ?_, ?_⟩
  · rw [List.flatMap_cons, h.source_eq]
    simp [Piece.source]
  · intro name' value' hmem
    rcases List.mem_cons.1 hmem with heq | hmem
    · cases heq
      exact ⟨hname, hnames⟩
    · exact h.names name' value' hmem
  · intro before name' after value' hplace hnames'
    rcases hplace.behind hname with ⟨rfl, rfl, rfl⟩ | ⟨between, rfl, hbehind⟩
    · obtain rfl := names_unique hvalues hnames hnames'
      exact ⟨[], pieces, rfl, rfl, h.source_eq⟩
    · obtain ⟨front, back, rfl, rfl, rfl⟩ := h.complete _ _ _ _ hbehind hnames'
      refine ⟨.filled name value :: front, back, rfl, ?_, rfl⟩
      simp [Piece.source]

/-- What follows the first piece is cut into the other pieces. -/
theorem tail
    (h : Cut values (piece.source ++ text) (piece :: pieces)) :
    Cut values text pieces := by
  refine ⟨?_, ?_, ?_⟩
  · have hsource := h.source_eq
    rwa [List.flatMap_cons, List.append_cancel_left_eq] at hsource
  · intro name value hmem
    exact h.names name value (List.mem_cons_of_mem _ hmem)
  · intro before name after value hplace hnames
    obtain ⟨front, back, hpieces, hfront, hback⟩ :=
      h.complete _ _ _ _ (hplace.append_left piece.source) hnames
    cases front with
    | nil => exact absurd (List.append_eq_nil_iff.1 hfront.symm).1 piece.source_ne_nil
    | cons first front =>
        obtain ⟨rfl, rfl⟩ := List.cons.inj hpieces
        rw [List.flatMap_cons, List.append_cancel_left_eq] at hfront
        exact ⟨front, back, rfl, hfront, hback⟩

/-- A cut whose text begins with a known placeholder begins with it. -/
theorem head_of_filled
    {name value : List Char} {others : List Piece}
    (h : Cut values text (.filled name value :: pieces))
    (h' : Cut values text others) :
    ∃ rest, others = .filled name value :: rest := by
  obtain ⟨hname, hnames⟩ := h.names name value List.mem_cons_self
  have hplace : PlaceholderAt text [] name (pieces.flatMap Piece.source) := by
    refine ⟨?_, hname⟩
    rw [← h.source_eq, List.flatMap_cons]
    simp [Piece.source]
  obtain ⟨front, back, rfl, hfront, -⟩ := h'.complete _ _ _ _ hplace hnames
  cases front with
  | nil => exact ⟨back, rfl⟩
  | cons first front =>
      rw [List.flatMap_cons, List.append_eq_nil_iff] at hfront
      exact absurd hfront.1 first.source_ne_nil

/-- **A text is cut in one way only.** -/
theorem unique
    {others : List Piece}
    (h : Cut values text pieces)
    (h' : Cut values text others) :
    pieces = others := by
  induction pieces generalizing text others with
  | nil =>
      cases others with
      | nil => rfl
      | cons other others =>
          have hsource := h'.source_eq.trans h.source_eq.symm
          rw [List.flatMap_cons, List.flatMap_nil, List.append_eq_nil_iff] at hsource
          exact absurd hsource.1 other.source_ne_nil
  | cons piece pieces ih =>
      -- both cuts begin alike, since neither lets a known placeholder pass
      obtain ⟨rest, rfl⟩ : ∃ rest, others = piece :: rest := by
        cases piece with
        | filled name value => exact h.head_of_filled h'
        | kept c =>
            have hsource := h.source_eq.trans h'.source_eq.symm
            cases others with
            | nil => cases hsource
            | cons other others =>
                cases other with
                | filled name value =>
                    obtain ⟨rest, hrest⟩ := h'.head_of_filled h
                    cases hrest
                | kept d =>
                    obtain ⟨rfl, -⟩ := List.cons.inj hsource
                    exact ⟨others, rfl⟩
      have htext := h.source_eq
      rw [List.flatMap_cons] at htext
      subst htext
      rw [ih h.tail h'.tail]

end Cut

/-! The scan. -/

section Scan

variable {values : List (String × String)}

theorem substituteChars_nil (values : List (String × String)) : substituteChars values [] = [] := by
  rw [substituteChars]

theorem substituteChars_cons_of_ne
    {c : Char}
    (hc : c ≠ '{')
    (text : List Char) :
    substituteChars values (c :: text) = c :: substituteChars values text := by
  rw [substituteChars, if_neg hc]

/-- Characters other than opening braces are kept. -/
theorem substituteChars_append
    {front : List Char}
    (hfront : ∀ c ∈ front, c ≠ '{')
    (text : List Char) :
    substituteChars values (front ++ text) = front ++ substituteChars values text := by
  induction front with
  | nil => rfl
  | cons c front ih =>
      obtain ⟨hc, hfront⟩ := List.forall_mem_cons.1 hfront
      rw [List.cons_append, substituteChars_cons_of_ne hc, ih hfront, List.cons_append]

theorem substituteChars_braces
    {name : List Char}
    (hname : ∀ c ∈ name, isBrace c = false)
    (text : List Char) :
    substituteChars values ('{' :: (name ++ '}' :: text)) =
      (valueOf? values name).getD ('{' :: (name ++ ['}'])) ++ substituteChars values text := by
  obtain ⟨hbefore, hfrom⟩ := name_eq_beforeBrace hname text
  rw [substituteChars, if_pos rfl]
  split
  next rest hrest =>
    rw [hfrom] at hrest
    cases hrest
    rw [hbefore]
    rfl
  next hne => exact absurd hfrom (hne text)

/-- A placeholder with a known name gives the value. -/
theorem substituteChars_placeholder
    {name value : List Char}
    (hvalues : NamedApart values)
    (hname : ∀ c ∈ name, isBrace c = false)
    (hnames : Names values name value)
    (text : List Char) :
    substituteChars values ('{' :: (name ++ '}' :: text)) =
      value ++ substituteChars values text := by
  rw [substituteChars_braces hname, (valueOf?_eq_some_iff hvalues).2 hnames, Option.getD_some]

/-- A character at which no placeholder with a known name begins is kept. -/
theorem substituteChars_cons
    {c : Char} {text : List Char}
    (hvalues : NamedApart values)
    (hc : ∀ name after value, PlaceholderAt (c :: text) [] name after →
      ¬Names values name value) :
    substituteChars values (c :: text) = c :: substituteChars values text := by
  by_cases hbrace : c = '{'
  · subst hbrace
    by_cases hclosed : ∃ rest, fromBrace text = '}' :: rest
    · obtain ⟨rest, hrest⟩ := hclosed
      obtain ⟨htext, hname, -⟩ := brace_parts_iff.1 ⟨rfl, hrest.symm⟩
      have hunknown : valueOf? values (beforeBrace text) = none := by
        rw [valueOf?_eq_none_iff hvalues]
        intro value
        refine hc _ rest value ⟨?_, hname⟩
        rw [← htext]
        rfl
      -- the unknown name is put back with its braces, as the scan would have kept it
      have hfront : ∀ c ∈ beforeBrace text ++ ['}'], c ≠ '{' := by
        rintro c hmem rfl
        rcases List.mem_append.1 hmem with hmem | hmem
        · exact absurd (hname _ hmem) (by decide)
        · exact absurd (List.mem_singleton.1 hmem) (by decide)
      have hkept : substituteChars values text =
          beforeBrace text ++ ['}'] ++ substituteChars values rest := by
        rw [← substituteChars_append hfront, List.append_assoc, List.singleton_append, ← htext]
      have hbraces := @substituteChars_braces values _ hname rest
      rw [hunknown, Option.getD_none, ← htext] at hbraces
      rw [hbraces, hkept, List.cons_append]
    · rw [substituteChars, if_pos rfl]
      split
      next rest hrest => exact absurd ⟨rest, hrest⟩ hclosed
      next => rfl
  · exact substituteChars_cons_of_ne hbrace text

/-- The scan gives what is kept of the cut, and the values in the place of its placeholders. -/
theorem exists_cut
    (hvalues : NamedApart values)
    (text : List Char) :
    ∃ pieces, Cut values text pieces ∧
      pieces.flatMap Piece.result = substituteChars values text := by
  cases text with
  | nil => exact ⟨[], Cut.nil values, (substituteChars_nil values).symm⟩
  | cons c text =>
      by_cases hplace : ∃ name after value,
          PlaceholderAt (c :: text) [] name after ∧ Names values name value
      · obtain ⟨name, after, value, ⟨htext, hname⟩, hnames⟩ := hplace
        obtain ⟨rfl, rfl⟩ := List.cons.inj htext
        obtain ⟨pieces, hcut, hresult⟩ := exists_cut hvalues after
        refine ⟨.filled name value :: pieces, hcut.fill hvalues hname hnames, ?_⟩
        rw [List.flatMap_cons, hresult]
        exact (substituteChars_placeholder hvalues hname hnames after).symm
      · have hc : ∀ name after value, PlaceholderAt (c :: text) [] name after →
            ¬Names values name value := by
          intro name after value h hnames
          exact hplace ⟨name, after, value, h, hnames⟩
        obtain ⟨pieces, hcut, hresult⟩ := exists_cut hvalues text
        refine ⟨.kept c :: pieces, hcut.keep hc, ?_⟩
        rw [substituteChars_cons hvalues hc, List.flatMap_cons, hresult]
        rfl
termination_by text.length

/-- There is one text that is filled all at once, and the scan gives it. -/
theorem filled_iff
    {text result : List Char}
    (hvalues : NamedApart values) :
    Filled values text result ↔ result = substituteChars values text := by
  obtain ⟨pieces, hcut, hresult⟩ := exists_cut hvalues text
  constructor
  · rintro ⟨others, hothers, rfl⟩
    rw [← hresult, hcut.unique hothers]
  · rintro rfl
    exact ⟨pieces, hcut, hresult.symm⟩

theorem namedApart_nil : NamedApart [] :=
  List.nodup_nil

/-- Without values a text stays as it is. -/
theorem substituteChars_of_nil (text : List Char) : substituteChars [] text = text := by
  induction text with
  | nil => exact substituteChars_nil []
  | cons c text ih =>
      rw [substituteChars_cons namedApart_nil, ih]
      rintro name after value - ⟨v, hv, -⟩
      cases hv

end Scan

end Template

namespace ScopeSource

open Template

theorem render_eq (source : ScopeSource) (values : List (String × String)) :
    source.render values = source.written.map (substitute values) := by
  rw [render]
  cases source.written with
  | error e => rfl
  | ok rendered =>
      cases values with
      | nil =>
          have hsame : substitute [] rendered = rendered := by
            rw [substitute, substituteChars_of_nil, String.ofList_toList]
          rw [Except.map, hsame]
          rfl
      | cons v values => rfl

theorem render_of_written
    {source : ScopeSource} {values : List (String × String)} {text : String}
    (hvalues : NamedApart values)
    (hwritten : source.written = .ok text) :
    ∃ rendered, source.render values = .ok rendered ∧
      ∀ result, Filled values text.toList result ↔ result = rendered.toList := by
  refine ⟨substitute values text, ?_, ?_⟩
  · rw [render_eq, hwritten]
    rfl
  · intro result
    rw [filled_iff hvalues, substitute, String.toList_ofList]

/-- **A rendered scope is filled all at once.**  Where no two variables have one name in lowercase, a
scope given as a text is rendered as the one text in which the values stand in the place of all
placeholders whose names are known, and every other character is kept; any other scope is rendered
like its text, unless it is refused.  Placeholders never overlap, and without variables a text stays
as it is. -/
theorem render_fills
    {values : List (String × String)}
    (hvalues : NamedApart values) :
    (∀ (source : ScopeSource) (text : String), source.rawText? = some text →
      ∃ rendered, source.render values = .ok rendered ∧
        ∀ result, Filled values text.toList result ↔ result = rendered.toList) ∧
      (∀ (source : ScopeSource) (s : Scope), source.rawText? = none → source.toScope = .ok s →
        ∃ rendered, source.render values = .ok rendered ∧
          ∀ result, Filled values s.text.toList result ↔ result = rendered.toList) ∧
      (∀ (source : ScopeSource) (e : ScopeError), source.rawText? = none →
        source.toScope = .error e → source.render values = .error e) ∧
      (∀ (source : ScopeSource) (text : String), source.rawText? = some text →
        source.render [] = .ok text) ∧
      (∀ text before name after before' name' after' : List Char,
        PlaceholderAt text before name after → PlaceholderAt text before' name' after' →
          before.length ≤ before'.length →
            (before = before' ∧ name = name' ∧ after = after') ∨
              before.length + name.length + 2 ≤ before'.length) := by
  refine ⟨?_, ?_, ?_, ?_, ?_⟩
  · intro source text hraw
    have hwritten : source.written = .ok text := by rw [written, hraw]
    exact render_of_written hvalues hwritten
  · intro source s hraw hscope
    have hwritten : source.written = .ok s.text := by rw [written, hraw, hscope]; rfl
    exact render_of_written hvalues hwritten
  · intro source e hraw hscope
    rw [render, written, hraw, hscope]
    rfl
  · intro source text hraw
    rw [render, written, hraw]
    rfl
  · intro text before name after before' name' after' h h' hle
    exact h.apart h' hle

/-- Two variables; the value of the first one has the form of a placeholder for the second. -/
def lookAlikes : List (String × String) :=
  [("orgId", "{app}"), ("App", "7")]

/-- A text with a name in other letters, with two opening braces in a row and with an unknown
name. -/
def nestedText : String :=
  "Org:\x7bORGID\x7d:\x7b\x7bapp\x7d:\x7bx\x7d"

/-- The text with the values in it. -/
def nestedRendered : String :=
  "Org:\x7bapp\x7d:\x7b7:\x7bx\x7d"

/-- Names are found in any case, a value that looks like a placeholder is not replaced in turn, and
an unknown name and a brace on its own stay. -/
theorem render_fills_nestedText :
    (NamedApart lookAlikes ∧ (ScopeSource.text nestedText).rawText? = some nestedText) ∧
      (ScopeSource.text nestedText).render lookAlikes = .ok nestedRendered ∧
      Filled lookAlikes nestedText.toList nestedRendered.toList := by
  have hvalues : NamedApart lookAlikes := by
    unfold NamedApart
    decide +kernel
  have hsubstitute : substitute lookAlikes nestedText = nestedRendered := by
    decide +kernel
  have hrender : (ScopeSource.text nestedText).render lookAlikes = .ok nestedRendered := by
    rw [render_eq, ← hsubstitute]
    rfl
  obtain ⟨rendered, hrendered, hfilled⟩ :=
    (render_fills hvalues).1 (ScopeSource.text nestedText) _ rfl
  rw [hrender] at hrendered
  cases hrendered
  exact ⟨⟨hvalues, rfl⟩, hrender, (hfilled _).2 rfl⟩

end ScopeSource
end Warrant
