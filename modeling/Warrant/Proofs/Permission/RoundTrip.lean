import Warrant.Proofs.Literal.RoundTrip
import Warrant.Proofs.Permission.Parts
import Warrant.Proofs.Scope.Reading

/-!
# Permission texts that read back

The compact form of a permission is read back exactly if none of its parts is mistaken for
another one: names that hold no delimiter and no blank at an end, a scope that is the reading of
its own text, and no denial mark in front of a grant.  In the other direction nothing else is ever
read from a text, so a permission that comes back has all of this.

**Results.**
* `namesOf_namesText`, `plainNames_of_namesOf`: the lists of names that read back.
* `trim_chars`, `splitOn_body`: where the parts of a compact form begin and end.
* `parse_text_eq_ok_iff`: the permissions that their compact form denotes.
-/

namespace Warrant
namespace Permission

open Text (Stops)

/-! Names. -/

/-- A name is not empty, has no blank at either end, and holds no character that delimits the
parts of a permission text. -/
structure PlainName (name : String) : Prop where
  ne_empty : name ≠ ""
  trimmed : String.ofList (Text.trim name.toList) = name
  clear : ∀ c ∈ name.toList, c ≠ ',' ∧ c ≠ ':' ∧ c ≠ '\x7b' ∧ c ≠ '\x7d'

/-- A list of names is not empty, and its names can stand in a permission text. -/
structure PlainNames (names : List String) : Prop where
  ne_nil : names ≠ []
  plain : ∀ name ∈ names, PlainName name

theorem PlainName.toList_ne_nil
    {name : String}
    (h : PlainName name) :
    name.toList ≠ [] := by
  intro hnil
  exact h.ne_empty (String.toList_eq_nil_iff.1 hnil)

theorem PlainName.trim_eq
    {name : String}
    (h : PlainName name) :
    Text.trim name.toList = name.toList := by
  have htrimmed := congrArg String.toList h.trimmed
  rwa [String.toList_ofList] at htrimmed

theorem PlainName.stops
    {name : String}
    (h : PlainName name) :
    Stops Text.isBlank name.toList :=
  (Text.trim_eq_self_iff.1 h.trim_eq).1

theorem PlainName.stops_reverse
    {name : String}
    (h : PlainName name) :
    Stops Text.isBlank name.toList.reverse :=
  (Text.trim_eq_self_iff.1 h.trim_eq).2

theorem namesOf_namesText
    {names : List String}
    (h : PlainNames names) :
    namesOf (namesText names) = names := by
  have hsplit : (namesText names).splitOn nameSeparator = names.map String.toList := by
    refine List.splitOn_intercalate nameSeparator ?_ (by simpa using h.ne_nil)
    intro chars hchars hmem
    obtain ⟨name, hname, rfl⟩ := List.mem_map.1 hchars
    exact ((h.plain name hname).clear _ hmem).1 rfl
  rw [namesOf, hsplit, List.map_map]
  conv_rhs => rw [← List.map_id names]
  exact List.map_congr_left fun name hname => (h.plain name hname).trimmed

/-- The names of a part that holds no other delimiter can stand in a permission text. -/
theorem plainNames_of_namesOf
    {part : List Char} {names : List String}
    (h : namesOf part = names)
    (hempty : "" ∉ names)
    (hcolon : ':' ∉ part)
    (hbrace : ∀ c ∈ part, Text.isBrace c = false) :
    PlainNames names := by
  subst h
  constructor
  · rw [namesOf, ne_eq, List.map_eq_nil_iff]
    exact List.splitOn_ne_nil nameSeparator part
  · intro name hname
    have hne : name ≠ "" := by
      rintro rfl
      exact hempty hname
    obtain ⟨piece, hpiece, rfl⟩ := List.mem_map.1 hname
    refine ⟨hne, ?_, ?_⟩
    · rw [String.toList_ofList]
      congr 1
      exact Text.trim_of_stops (Text.stops_trim piece) (Text.stops_reverse_trim piece)
    · intro c hc
      rw [String.toList_ofList] at hc
      have hmem := Text.mem_of_mem_trim hc
      have hpart := Text.mem_of_mem_splitOn hpiece hmem
      have hclear := hbrace c hpart
      refine ⟨?_, ?_, ?_, ?_⟩
      · rintro rfl
        exact Text.not_mem_of_mem_splitOn hpiece hmem
      · rintro rfl
        exact hcolon hpart
      · rintro rfl
        cases hclear
      · rintro rfl
        cases hclear

theorem mem_namesText
    {names : List String}
    (h : PlainNames names)
    {c : Char}
    (hc : c ∈ namesText names) :
    c ≠ ':' ∧ Text.isBrace c = false := by
  rcases Text.eq_or_mem_of_mem_joined hc with rfl | ⟨chars, hchars, hc⟩
  · exact ⟨by decide, rfl⟩
  · obtain ⟨name, hname, rfl⟩ := List.mem_map.1 hchars
    obtain ⟨-, hcolon, hopen, hclose⟩ := (h.plain name hname).clear c hc
    refine ⟨hcolon, ?_⟩
    simp [Text.isBrace, hopen, hclose]

theorem stops_namesText
    {names : List String}
    (h : PlainNames names) :
    Stops Text.isBlank (namesText names) := by
  cases names with
  | nil => exact absurd rfl h.ne_nil
  | cons name names =>
      have hname := h.plain name List.mem_cons_self
      exact Text.stops_joined hname.toList_ne_nil hname.stops nameSeparator _

theorem stops_reverse_namesText
    {names : List String}
    (h : PlainNames names) :
    namesText names ≠ [] ∧ Stops Text.isBlank (namesText names).reverse := by
  refine Text.stops_reverse_joined (by simpa using h.ne_nil) ?_ nameSeparator
  intro chars hchars
  obtain ⟨name, hname, rfl⟩ := List.mem_map.1 hchars
  exact ⟨(h.plain name hname).toList_ne_nil, (h.plain name hname).stops_reverse⟩

/-! The condition block. -/

theorem blockText_some
    (query : Object) :
    ∃ inner, blockText (some query) = '\x7b' :: inner ++ ['\x7d'] := by
  cases query with
  | nil => exact ⟨[], by rw [blockText, Literal.write]; rfl⟩
  | cons e query =>
      obtain ⟨k, v⟩ := e
      exact ⟨_, by rw [blockText, Literal.write]; rfl⟩

theorem stops_blockText (conditions : Option Object) :
    Stops (fun c => !Text.isBrace c) (blockText conditions) := by
  cases conditions with
  | none => exact Text.stops_nil
  | some query =>
      obtain ⟨inner, hblock⟩ := blockText_some query
      rw [hblock]
      exact Text.stops_cons rfl _

theorem readBlock_blockText
    {conditions : Option Object}
    (h : ConditionsDistinct conditions)
    (text : String) :
    readBlock text (blockText conditions) = .ok conditions := by
  rw [readBlock_eq_ok_iff]
  cases conditions with
  | none => exact Or.inl ⟨rfl, rfl⟩
  | some query =>
      refine Or.inr ⟨query, ?_, rfl, ?_⟩
      · obtain ⟨inner, hblock⟩ := blockText_some query
        rw [hblock]
        exact List.cons_ne_nil _ _
      · exact Literal.parseChars_write (conditionsDistinct_some_iff.1 h)

/-! Where the parts of a compact form begin and end. -/

/-- The text between the mark of the effect and the condition block. -/
def body (p : Permission) : List Char :=
  scopeText p.scope ++ namesText p.subjects ++ [scopeDelimiter] ++ namesText p.actions

/-- The pieces of the text of a scope. -/
def scopePieces : Option Scope → List (List Char)
  | none => []
  | some s => s.text.toList.splitOn scopeDelimiter

/-- No character of a part of the compact form is mistaken for the end of that part. -/
structure Clear (p : Permission) : Prop where
  subjects : PlainNames p.subjects
  actions : PlainNames p.actions
  stops_scope : ∀ s, p.scope = some s → Stops Text.isBlank s.text.toList
  no_brace_scope : ∀ s, p.scope = some s → ∀ c ∈ s.text.toList, Text.isBrace c = false

variable {p : Permission}

theorem chars_eq (p : Permission) :
    p.chars = effectText p.effect ++ (p.body ++ blockText p.conditions) := by
  unfold chars body
  simp only [List.append_assoc]

theorem Clear.no_brace_body
    (h : p.Clear) :
    ∀ c ∈ p.body, Text.isBrace c = false := by
  intro c hc
  unfold body at hc
  simp only [List.mem_append, List.mem_singleton] at hc
  rcases hc with ((hscope | hsubjects) | rfl) | hactions
  · cases hs : p.scope with
    | none =>
        rw [hs] at hscope
        cases hscope
    | some s =>
        rw [hs, scopeText] at hscope
        rcases List.mem_append.1 hscope with hc | hc
        · exact h.no_brace_scope s hs c hc
        · rw [List.mem_singleton.1 hc]
          rfl
  · exact (mem_namesText h.subjects hsubjects).2
  · rfl
  · exact (mem_namesText h.actions hactions).2

theorem Clear.beforeBrace_body
    (h : p.Clear) :
    Text.beforeBrace (p.body ++ blockText p.conditions) = p.body := by
  refine Text.takeWhile_run ?_ (stops_blockText p.conditions)
  intro c hc
  rw [h.no_brace_body c hc]
  rfl

theorem Clear.fromBrace_body
    (h : p.Clear) :
    Text.fromBrace (p.body ++ blockText p.conditions) = blockText p.conditions := by
  refine Text.dropWhile_run ?_ (stops_blockText p.conditions)
  intro c hc
  rw [h.no_brace_body c hc]
  rfl

theorem splitOn_namesText
    {names : List String}
    (h : PlainNames names) :
    (namesText names).splitOn scopeDelimiter = [namesText names] := by
  apply List.splitOn_eq_singleton
  intro hmem
  exact (mem_namesText h hmem).1 rfl

/-- The body falls into the pieces of the scope and the two lists of names. -/
theorem Clear.splitOn_body
    (h : p.Clear) :
    p.body.splitOn scopeDelimiter =
      scopePieces p.scope ++ [namesText p.subjects, namesText p.actions] := by
  have hnames : (namesText p.subjects ++ scopeDelimiter :: namesText p.actions).splitOn
      scopeDelimiter = [namesText p.subjects, namesText p.actions] := by
    rw [List.splitOn_append_cons_self, splitOn_namesText h.subjects, splitOn_namesText h.actions]
    rfl
  unfold body
  cases p.scope with
  | none =>
      simp only [scopeText, List.nil_append, List.append_assoc, List.cons_append]
      exact hnames
  | some s =>
      simp only [scopeText, List.append_assoc, List.cons_append, List.nil_append]
      rw [List.splitOn_append_cons_self, hnames]
      rfl

theorem Clear.stops_body
    (h : p.Clear)
    (rest : List Char) :
    Stops Text.isBlank (p.body ++ rest) := by
  unfold body
  cases hs : p.scope with
  | none =>
      simp only [scopeText, List.nil_append, List.append_assoc]
      exact Text.stops_append (stops_reverse_namesText h.subjects).1 (stops_namesText h.subjects)
  | some s =>
      simp only [scopeText, List.append_assoc, List.cons_append]
      cases htext : s.text.toList with
      | nil => exact Text.stops_cons rfl _
      | cons c t =>
          have hstops := h.stops_scope s hs
          rw [htext] at hstops
          exact Text.stops_append (List.cons_ne_nil c t) hstops

theorem Clear.stops_reverse_chars
    (h : p.Clear) :
    Stops Text.isBlank p.chars.reverse := by
  unfold chars
  rw [List.reverse_append]
  cases p.conditions with
  | none =>
      obtain ⟨hne, hstops⟩ := stops_reverse_namesText h.actions
      simp only [blockText, List.reverse_nil, List.nil_append, List.reverse_append]
      exact Text.stops_append (List.reverse_ne_nil_iff.2 hne) hstops
  | some query =>
      obtain ⟨inner, hblock⟩ := blockText_some query
      rw [hblock, List.reverse_append]
      exact Text.stops_cons rfl _

/-- A compact form has no blanks at its ends. -/
theorem Clear.trim_chars
    (h : p.Clear) :
    Text.trim p.chars = p.chars := by
  refine Text.trim_of_stops ?_ h.stops_reverse_chars
  rw [chars_eq]
  cases p.effect with
  | can => exact h.stops_body _
  | cannot => exact Text.stops_cons rfl _

/-- The mark of a denial is found again, and none is found in front of a grant. -/
theorem Clear.splitEffect_chars
    (h : p.Clear)
    (hmark : p.effect = .cannot ∨ p.chars.head? ≠ some denialMark) :
    splitEffect (Text.trim p.chars) = (p.effect, p.body ++ blockText p.conditions) := by
  rw [h.trim_chars]
  rw [chars_eq] at hmark ⊢
  cases heffect : p.effect with
  | cannot => rfl
  | can =>
      rw [heffect] at hmark
      have hhead := hmark.resolve_left (by decide)
      rw [effectText, List.nil_append] at hhead ⊢
      cases hbody : p.body ++ blockText p.conditions with
      | nil => rfl
      | cons c r =>
          rw [hbody] at hhead
          have hc : c ≠ denialMark := by
            rintro rfl
            exact hhead rfl
          rw [splitEffect, if_neg hc]

/-- The pieces of the text of a scope are read as that text is. -/
theorem readScope_scopePieces
    {scope read : Option Scope} :
    readScope (scopePieces scope) = .ok read ↔
      (scope = none ∧ read = none) ∨
        ∃ s t, scope = some s ∧ read = some t ∧ Scope.ofText s.text = .ok t := by
  rw [readScope_eq_ok_iff]
  cases scope with
  | none => simp [scopePieces]
  | some s =>
      rw [scopePieces, List.intercalate_splitOn, String.ofList_toList]
      constructor
      · rintro (⟨h, -⟩ | ⟨t, -, ht, hread⟩)
        · exact absurd h (List.splitOn_ne_nil _ _)
        · exact Or.inr ⟨s, t, rfl, ht, hread⟩
      · rintro (⟨⟨⟩, -⟩ | ⟨_, t, ⟨⟩, ht, hread⟩)
        exact Or.inr ⟨t, List.splitOn_ne_nil _ _, ht, hread⟩

/-- If every part is clear, only the scope may come back as another one. -/
theorem Clear.parses_iff
    {q : Permission}
    (h : p.Clear)
    (hkeys : p.KeysDistinct)
    (hmark : p.effect = .cannot ∨ p.chars.head? ≠ some denialMark) :
    parse p.text = .ok q ↔
      q = { p with scope := q.scope } ∧ readScope (scopePieces p.scope) = .ok q.scope := by
  have hrest : splitEffect (Text.trim p.text.toList) =
      (p.effect, p.body ++ blockText p.conditions) := by
    rw [text, String.toList_ofList]
    exact h.splitEffect_chars hmark
  rw [parse_eq_ok_iff hrest, h.beforeBrace_body, h.fromBrace_body, h.splitOn_body,
    readBlock_blockText hkeys]
  constructor
  · rintro ⟨heffect, hconditions, front, subjectPart, actionPart, hparts, hsubjects, -, hactions,
      -, hscope⟩
    obtain ⟨rfl, hlists⟩ := List.append_inj' hparts rfl
    cases hlists
    rw [namesOf_namesText h.subjects] at hsubjects
    rw [namesOf_namesText h.actions] at hactions
    have hconditions := Except.ok.inj hconditions
    exact ⟨by rw [hsubjects, hactions, ← heffect, hconditions], hscope⟩
  · rintro ⟨hq, hscope⟩
    have hempty : ∀ {names : List String}, PlainNames names → "" ∉ names :=
      fun hnames hmem => (hnames.plain "" hmem).ne_empty rfl
    rw [hq]
    exact ⟨rfl, rfl, scopePieces p.scope, namesText p.subjects, namesText p.actions, rfl,
      namesOf_namesText h.subjects, hempty h.subjects, namesOf_namesText h.actions,
      hempty h.actions, hscope⟩

/-- If every part is clear, only the scope decides whether the compact form is read back. -/
theorem Clear.parse_text_iff
    (h : p.Clear)
    (hkeys : p.KeysDistinct)
    (hmark : p.effect = .cannot ∨ p.chars.head? ≠ some denialMark) :
    parse p.text = .ok p ↔ ∀ s, p.scope = some s → Scope.ofText s.text = .ok s := by
  rw [h.parses_iff hkeys hmark, readScope_scopePieces]
  constructor
  · rintro ⟨-, hread⟩ s hs
    rcases hread with ⟨hnone, -⟩ | ⟨t, t', ht, ht', hread⟩
    · rw [hnone] at hs
      cases hs
    · rw [hs] at ht ht'
      cases ht
      cases ht'
      exact hread
  · intro hread
    refine ⟨rfl, ?_⟩
    cases hs : p.scope with
    | none => exact Or.inl ⟨rfl, rfl⟩
    | some s => exact Or.inr ⟨s, s, rfl, rfl, hread s hs⟩

/-! What is read from a text. -/

theorem no_brace_of_mem_beforeBrace
    {s : List Char} {c : Char}
    (hc : c ∈ Text.beforeBrace s) :
    Text.isBrace c = false := by
  have hall : (Text.beforeBrace s).all (!Text.isBrace ·) = true := List.all_takeWhile
  have hnot := List.all_eq_true.1 hall c hc
  rwa [Bool.not_eq_true'] at hnot

/-- A permission that was read from a text has clear parts. -/
theorem clear_of_parse
    {text : String}
    (h : parse text = .ok p) :
    p.Clear := by
  obtain ⟨-, -, front, subjectPart, actionPart, hparts, hsubjects, hsubjects', hactions,
    hactions', hscope⟩ := (parse_eq_ok_iff rfl).1 h
  have hpiece : ∀ piece ∈ front ++ [subjectPart, actionPart],
      ':' ∉ piece ∧ ∀ c ∈ piece, Text.isBrace c = false := by
    intro piece hmem
    rw [← hparts] at hmem
    exact ⟨Text.not_mem_of_mem_splitOn hmem,
      fun c hc => no_brace_of_mem_beforeBrace (Text.mem_of_mem_splitOn hmem hc)⟩
  have hsubject := hpiece subjectPart (by simp)
  have haction := hpiece actionPart (by simp)
  have hread : ∀ s, p.scope = some s →
      Scope.ofText (String.ofList ([scopeDelimiter].intercalate front)) = .ok s := by
    intro s hs
    rcases readScope_eq_ok_iff.1 hscope with ⟨-, hnone⟩ | ⟨t, -, hsome, hread⟩
    · rw [hnone] at hs
      cases hs
    · rw [hsome] at hs
      cases hs
      exact hread
  refine ⟨plainNames_of_namesOf hsubjects hsubjects' hsubject.1 hsubject.2,
    plainNames_of_namesOf hactions hactions' haction.1 haction.2,
    fun s hs => Scope.stops_text_of_ofText (hread s hs),
    fun s hs => Scope.no_brace_of_ofText (hread s hs) ?_⟩
  intro c hc
  rw [String.toList_ofList] at hc
  rcases Text.eq_or_mem_of_mem_joined hc with rfl | ⟨piece, hmem, hc⟩
  · rfl
  · exact (hpiece piece (List.mem_append_left _ hmem)).2 c hc

/-- What begins with the mark of a denial is read as a denial. -/
theorem effect_of_parse
    {text : String}
    (h : parse text = .ok p)
    (hmark : text.toList.head? = some denialMark) :
    p.effect = .cannot := by
  obtain ⟨t, ht⟩ := List.head?_eq_some_iff.1 hmark
  obtain ⟨r, hr⟩ := Text.exists_trim_eq_cons (c := denialMark) rfl t
  rw [← ht] at hr
  have hrest : splitEffect (Text.trim text.toList) = (.cannot, r) := by
    rw [hr]
    rfl
  exact ((parse_eq_ok_iff hrest).1 h).1

/-- A permission is read back from its compact form exactly if its names are plain, its scope is
the reading of its own text, which holds no brace, and no grant begins with the mark of a
denial. -/
theorem parse_text_eq_ok_iff
    {p : Permission}
    (hkeys : p.KeysDistinct) :
    parse p.text = .ok p ↔
      (PlainNames p.subjects ∧ PlainNames p.actions) ∧
        (∀ s, p.scope = some s →
          (∀ c ∈ s.text.toList, c ≠ '\x7b' ∧ c ≠ '\x7d') ∧ Scope.ofText s.text = .ok s) ∧
        (p.effect = .cannot ∨ p.text.toList.head? ≠ some denialMark) := by
  have hbrace : ∀ c : Char, Text.isBrace c = false ↔ c ≠ '\x7b' ∧ c ≠ '\x7d' := by
    intro c
    simp [Text.isBrace]
  have htext : p.text.toList = p.chars := by rw [text, String.toList_ofList]
  constructor
  · intro h
    have hclear := clear_of_parse h
    have hmark : p.effect = .cannot ∨ p.text.toList.head? ≠ some denialMark := by
      by_cases hhead : p.text.toList.head? = some denialMark
      · exact Or.inl (effect_of_parse h hhead)
      · exact Or.inr hhead
    have hscope := (hclear.parse_text_iff hkeys (by rwa [htext] at hmark)).1 h
    refine ⟨⟨hclear.subjects, hclear.actions⟩, ?_, hmark⟩
    intro s hs
    exact ⟨fun c hc => (hbrace c).1 (hclear.no_brace_scope s hs c hc), hscope s hs⟩
  · rintro ⟨⟨hsubjects, hactions⟩, hscope, hmark⟩
    have hclear : p.Clear :=
      ⟨hsubjects, hactions, fun s hs => Scope.stops_text_of_ofText (hscope s hs).2,
        fun s hs c hc => (hbrace c).2 ((hscope s hs).1 c hc)⟩
    rw [htext] at hmark
    exact (hclear.parse_text_iff hkeys hmark).2 fun s hs => (hscope s hs).2

/-- A denial with a scope, two subjects and a condition under a key that needs quotes. -/
def scopedDenial : Permission where
  subjects := ["user", "role"]
  actions := ["read"]
  effect := .cannot
  conditions := some [("active", .bool true), ("org id", .array [.null])]
  scope := some ⟨[⟨"org", some "123"⟩]⟩

theorem parse_text_scopedDenial :
    scopedDenial.KeysDistinct ∧ parse scopedDenial.text = .ok scopedDenial := by
  have hkeys : scopedDenial.KeysDistinct := by
    rw [KeysDistinct, scopedDenial, conditionsDistinct_some_iff, Json.keysDistinct_object_iff]
    exact ⟨by decide, by simp [Json.KeysDistinct, Json.ItemsDistinct]⟩
  have hsubjects : PlainNames scopedDenial.subjects := by
    refine ⟨List.cons_ne_nil _ _, ?_⟩
    intro name hname
    simp only [scopedDenial, List.mem_cons, List.not_mem_nil, or_false] at hname
    rcases hname with rfl | rfl
    · exact ⟨by decide, rfl, by simp⟩
    · exact ⟨by decide, rfl, by simp⟩
  have hactions : PlainNames scopedDenial.actions := by
    refine ⟨List.cons_ne_nil _ _, ?_⟩
    intro name hname
    rw [List.mem_singleton.1 hname]
    exact ⟨by decide, rfl, by simp⟩
  refine ⟨hkeys, (parse_text_eq_ok_iff hkeys).2 ⟨⟨hsubjects, hactions⟩, ?_, Or.inl rfl⟩⟩
  rintro _ ⟨⟩
  exact ⟨by simp [Scope.text, Scope.subjectSegments], rfl⟩

end Permission
end Warrant
