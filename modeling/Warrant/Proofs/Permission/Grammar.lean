import Warrant.Proofs.Permission.Parts
import Warrant.Proofs.Text.Runs

/-!
# The grammar of permission texts

Which texts are permissions, said part by part.  Without the blanks around it and without one mark
in front, a text is a body without braces and a condition block, which is missing or begins at the
first brace.  The body is divided at the delimiter: the last two parts are names, subjects before
actions, and what stands in front of them is a scope.

A text may have several defects.  They are looked for in an order of their own, which is not that
of reading: the condition block first, then the number of parts, the actions, the subjects and the
scope.  The first defect in this order is the one that is reported.

**Results.**
* `divides_iff`: a text is divided in one way only.
* `parse_eq_ok_iff_textSays`: a text reads as the permission that its parts say.
* `parse_eq_error_iff_firstDefect`: a text is refused for the first of its defects.
* `parse_says_or_firstDefect`: both, and what a closing brace in front of a block does.
-/

namespace Warrant

/-- The place of a fault in the order in which the defects of a text are looked for. -/
def PermissionError.rank : PermissionError → Nat
  | .badConditions _ _ => 0
  | .tooFewParts _ => 1
  | .emptyAction _ => 2
  | .emptySubject _ => 3
  | .badScope _ => 4

theorem PermissionError.rank_lt (e : PermissionError) : e.rank < 5 := by
  cases e <;> simp only [rank] <;> decide

namespace Permission

/-! The three parts of a text. -/

/-- A text, but for the blanks around it, is the mark of an effect, a body without braces, and a
block that is empty or begins with a brace.  What follows no mark does not begin with one. -/
structure Divides (text : String) (effect : Effect) (body block : List Char) : Prop where
  trimmed : Text.trim text.toList = effectText effect ++ (body ++ block)
  unmarked : effect = .can → (body ++ block).head? ≠ some denialMark
  no_brace : ∀ c ∈ body, Text.isBrace c = false
  from_brace : ∀ c ∈ block.head?, Text.isBrace c = true

theorem splitEffect_eq_iff
    {s rest : List Char}
    {effect : Effect} :
    splitEffect s = (effect, rest) ↔
      s = effectText effect ++ rest ∧ (effect = .can → rest.head? ≠ some denialMark) := by
  constructor
  · intro h
    cases s with
    | nil =>
        cases h
        exact ⟨rfl, fun _ hhead => by cases hhead⟩
    | cons c s =>
        rw [splitEffect] at h
        split at h
        next hc =>
          cases h
          exact ⟨by rw [hc]; rfl, fun heffect => by cases heffect⟩
        next hc =>
          cases h
          refine ⟨rfl, fun _ hhead => hc ?_⟩
          exact Option.some.inj hhead
  · rintro ⟨rfl, hmark⟩
    cases effect with
    | cannot => rfl
    | can =>
        rw [effectText, List.nil_append]
        cases rest with
        | nil => rfl
        | cons c rest =>
            have hc : c ≠ denialMark := fun hc => hmark rfl (congrArg some hc)
            rw [splitEffect, if_neg hc]

/-- A text is divided in one way only. -/
theorem divides_iff
    {text : String}
    {effect : Effect}
    {body block : List Char} :
    Divides text effect body block ↔
      effect = (splitEffect (Text.trim text.toList)).1 ∧
        body = Text.beforeBrace (splitEffect (Text.trim text.toList)).2 ∧
        block = Text.fromBrace (splitEffect (Text.trim text.toList)).2 := by
  obtain ⟨⟨effect', rest⟩, hsplit⟩ : ∃ split, splitEffect (Text.trim text.toList) = split :=
    ⟨_, rfl⟩
  rw [hsplit]
  obtain ⟨htext, hmark⟩ := splitEffect_eq_iff.1 hsplit
  rw [Text.brace_parts_iff]
  constructor
  · rintro ⟨htrimmed, hunmarked, hbody, hblock⟩
    have heq := splitEffect_eq_iff.2 ⟨htrimmed, hunmarked⟩
    rw [hsplit] at heq
    cases heq
    exact ⟨rfl, rfl, hbody, hblock⟩
  · rintro ⟨rfl, rfl, hbody, hblock⟩
    exact ⟨htext, hmark, hbody, hblock⟩

/-! What the parts say. -/

/-- One of the names between the separators is blank. -/
def BlankName (part : List Char) : Prop :=
  ∃ name ∈ part.splitOn nameSeparator, Text.isAllBlank name = true

/-- A part is a list of names, none of them blank, with blanks around them. -/
def NamesSay (part : List Char) (names : List String) : Prop :=
  ¬BlankName part ∧
    names = (part.splitOn nameSeparator).map fun name => String.ofList (Text.trim name)

/-- A block is missing, or it is a literal that denotes an object. -/
inductive BlockSays : List Char → Option Object → Prop
  | absent : BlockSays [] none
  | object {block : List Char} {query : Object} :
      block ≠ [] →
      Literal.parse (String.ofList block) = .ok (.object query) →
      BlockSays block (some query)

/-- There are no parts in front of the names, or they are the text of a scope. -/
inductive ScopeSays : List (List Char) → Option Scope → Prop
  | absent : ScopeSays [] none
  | scope {parts : List (List Char)} {s : Scope} :
      parts ≠ [] →
      Scope.ofText (String.ofList ([scopeDelimiter].intercalate parts)) = .ok s →
      ScopeSays parts (some s)

/-- A text says a permission: each of its parts says what the permission has there. -/
inductive Says (text : String) (p : Permission) : Prop
  | intro {body block subjectPart actionPart : List Char} {front : List (List Char)} :
      Divides text p.effect body block →
      BlockSays block p.conditions →
      body.splitOn scopeDelimiter = front ++ [subjectPart, actionPart] →
      NamesSay actionPart p.actions →
      NamesSay subjectPart p.subjects →
      ScopeSays front p.scope →
      Says text p

/-- A defect of a text, from its block and the parts of its body.  The faults are said each by
itself; a text may have several of them. -/
inductive Defect (text : String) (block : List Char) (parts : List (List Char)) :
    PermissionError → Prop
  | conditions :
      block ≠ [] →
      (∀ query, Literal.parse (String.ofList block) ≠ .ok (.object query)) →
      Defect text block parts (.badConditions (String.ofList block) text)
  | parts :
      parts.length < 2 →
      Defect text block parts (.tooFewParts text)
  | actions {subjectPart actionPart : List Char} {front : List (List Char)} :
      parts = front ++ [subjectPart, actionPart] →
      BlankName actionPart →
      Defect text block parts (.emptyAction text)
  | subjects {subjectPart actionPart : List Char} {front : List (List Char)} :
      parts = front ++ [subjectPart, actionPart] →
      BlankName subjectPart →
      Defect text block parts (.emptySubject text)
  | scope {subjectPart actionPart : List Char} {front : List (List Char)} {fault : ScopeError} :
      parts = front ++ [subjectPart, actionPart] →
      front ≠ [] →
      Scope.ofText (String.ofList ([scopeDelimiter].intercalate front)) = .error fault →
      Defect text block parts (.badScope fault)

/-- The first of the defects of a text. -/
inductive FirstDefect (text : String) (e : PermissionError) : Prop
  | intro {effect : Effect} {body block : List Char} :
      Divides text effect body block →
      Defect text block (body.splitOn scopeDelimiter) e →
      (∀ e', Defect text block (body.splitOn scopeDelimiter) e' → e.rank ≤ e'.rank) →
      FirstDefect text e

/-! The readers of the parts. -/

section Readers

variable {text : String} {part block : List Char} {parts front : List (List Char)}

theorem empty_mem_namesOf_iff : "" ∈ namesOf part ↔ BlankName part := by
  simp only [namesOf, BlankName, List.mem_map, String.ofList_eq_empty_iff, Text.trim_eq_nil_iff]

theorem namesSay_iff
    {names : List String} :
    NamesSay part names ↔ namesOf part = names ∧ "" ∉ names := by
  rw [NamesSay, ← empty_mem_namesOf_iff]
  constructor
  · rintro ⟨hmem, rfl⟩
    exact ⟨rfl, hmem⟩
  · rintro ⟨rfl, hmem⟩
    exact ⟨hmem, rfl⟩

theorem not_blankName_of_readNames
    {fault : PermissionError}
    {names : List String}
    (h : readNames fault part = .ok names) :
    ¬BlankName part :=
  (namesSay_iff.2 (readNames_eq_ok_iff.1 h)).1

theorem readNames_eq_error_iff
    {fault e : PermissionError} :
    readNames fault part = .error e ↔ BlankName part ∧ e = fault := by
  rw [← empty_mem_namesOf_iff]
  unfold readNames
  simp only [List.any_eq_true, beq_iff_eq, exists_eq_right]
  split
  next hmem =>
    constructor
    · rintro ⟨⟩
      exact ⟨hmem, rfl⟩
    · rintro ⟨-, rfl⟩
      rfl
  next hmem => exact ⟨nofun, fun h => absurd h.1 hmem⟩

theorem readBlock_eq_ok_iff_blockSays
    {conditions : Option Object} :
    readBlock text block = .ok conditions ↔ BlockSays block conditions := by
  rw [readBlock_eq_ok_iff]
  constructor
  · rintro (⟨rfl, rfl⟩ | ⟨query, hne, rfl, hquery⟩)
    · exact BlockSays.absent
    · exact BlockSays.object hne (by rwa [Literal.parse, String.toList_ofList])
  · intro h
    cases h with
    | absent => exact Or.inl ⟨rfl, rfl⟩
    | @object _ query hne hquery =>
        rw [Literal.parse, String.toList_ofList] at hquery
        exact Or.inr ⟨query, hne, rfl, hquery⟩

theorem readBlock_eq_error_iff
    {e : PermissionError} :
    readBlock text block = .error e ↔
      block ≠ [] ∧ (∀ query, Literal.parse (String.ofList block) ≠ .ok (.object query)) ∧
        e = .badConditions (String.ofList block) text := by
  rw [Literal.parse, String.toList_ofList]
  unfold readBlock
  cases block with
  | nil =>
      rw [if_pos List.isEmpty_nil]
      exact ⟨nofun, fun h => absurd rfl h.1⟩
  | cons c r =>
      rw [if_neg (by simp)]
      split
      next query hquery => exact ⟨nofun, fun h => absurd hquery (h.2.1 query)⟩
      next hne =>
        constructor
        · rintro ⟨⟩
          exact ⟨by simp, hne, rfl⟩
        · rintro ⟨-, -, rfl⟩
          rfl

theorem readScope_eq_ok_iff_scopeSays
    {scope : Option Scope} :
    readScope front = .ok scope ↔ ScopeSays front scope := by
  rw [readScope_eq_ok_iff]
  constructor
  · rintro (⟨rfl, rfl⟩ | ⟨s, hne, rfl, hs⟩)
    · exact ScopeSays.absent
    · exact ScopeSays.scope hne hs
  · intro h
    cases h with
    | absent => exact Or.inl ⟨rfl, rfl⟩
    | scope hne hs => exact Or.inr ⟨_, hne, rfl, hs⟩

theorem readScope_eq_error_iff
    {e : PermissionError} :
    readScope front = .error e ↔
      front ≠ [] ∧ ∃ fault,
        Scope.ofText (String.ofList ([scopeDelimiter].intercalate front)) = .error fault ∧
          e = .badScope fault := by
  unfold readScope
  cases front with
  | nil =>
      rw [if_pos List.isEmpty_nil]
      exact ⟨nofun, fun h => absurd rfl h.1⟩
  | cons part front =>
      rw [if_neg (by simp)]
      split
      next s hs =>
        refine ⟨nofun, ?_⟩
        rintro ⟨-, fault, hfault, -⟩
        rw [hs] at hfault
        cases hfault
      next fault hfault =>
        constructor
        · rintro ⟨⟩
          exact ⟨by simp, fault, hfault, rfl⟩
        · rintro ⟨-, fault', hfault', rfl⟩
          rw [hfault] at hfault'
          cases hfault'
          rfl

end Readers

/-! The order of the defects. -/

section Order

variable {text : String} {block subjectPart actionPart : List Char}
  {parts front : List (List Char)} {e : PermissionError}

theorem last_two_inj
    {front' : List (List Char)} {subjectPart' actionPart' : List Char}
    (h : parts = front ++ [subjectPart, actionPart])
    (h' : parts = front' ++ [subjectPart', actionPart']) :
    front' = front ∧ subjectPart' = subjectPart ∧ actionPart' = actionPart := by
  rw [h] at h'
  have hinj := List.append_inj' h' rfl
  simp only [List.cons.injEq, and_true] at hinj
  exact ⟨hinj.1.symm, hinj.2.1.symm, hinj.2.2.symm⟩

theorem Defect.rank_ne_zero
    {conditions : Option Object}
    (hblock : BlockSays block conditions)
    (h : Defect text block parts e) :
    e.rank ≠ 0 := by
  cases h with
  | conditions hne hquery =>
      cases hblock with
      | absent => exact absurd rfl hne
      | object _ hread => exact absurd hread (hquery _)
  | _ => exact nofun

theorem Defect.rank_ne_one
    (hparts : parts = front ++ [subjectPart, actionPart])
    (h : Defect text block parts e) :
    e.rank ≠ 1 := by
  cases h with
  | parts hshort =>
      rw [hparts, List.length_append] at hshort
      exact absurd hshort (by simp)
  | _ => exact nofun

theorem Defect.rank_ne_two
    (hparts : parts = front ++ [subjectPart, actionPart])
    (hactions : ¬BlankName actionPart)
    (h : Defect text block parts e) :
    e.rank ≠ 2 := by
  cases h with
  | actions hparts' hblank =>
      obtain ⟨-, -, rfl⟩ := last_two_inj hparts hparts'
      exact absurd hblank hactions
  | _ => exact nofun

theorem Defect.rank_ne_three
    (hparts : parts = front ++ [subjectPart, actionPart])
    (hsubjects : ¬BlankName subjectPart)
    (h : Defect text block parts e) :
    e.rank ≠ 3 := by
  cases h with
  | subjects hparts' hblank =>
      obtain ⟨-, rfl, -⟩ := last_two_inj hparts hparts'
      exact absurd hblank hsubjects
  | _ => exact nofun

theorem Defect.rank_ne_four
    {scope : Option Scope}
    (hparts : parts = front ++ [subjectPart, actionPart])
    (hscope : ScopeSays front scope)
    (h : Defect text block parts e) :
    e.rank ≠ 4 := by
  cases h with
  | scope hparts' hne hfault =>
      obtain ⟨rfl, -, -⟩ := last_two_inj hparts hparts'
      cases hscope with
      | absent => exact absurd rfl hne
      | scope _ hread =>
          rw [hread] at hfault
          cases hfault
  | _ => exact nofun

/-- There is only one defect of each kind. -/
theorem Defect.eq_of_rank_eq
    {e' : PermissionError}
    (h : Defect text block parts e)
    (h' : Defect text block parts e')
    (hrank : e.rank = e'.rank) :
    e = e' := by
  cases h with
  | conditions _ _ =>
      cases h' with
      | conditions _ _ => rfl
      | _ => cases hrank
  | parts _ =>
      cases h' with
      | parts _ => rfl
      | _ => cases hrank
  | actions _ _ =>
      cases h' with
      | actions _ _ => rfl
      | _ => cases hrank
  | subjects _ _ =>
      cases h' with
      | subjects _ _ => rfl
      | _ => cases hrank
  | scope hparts _ hfault =>
      cases h' with
      | scope hparts' _ hfault' =>
          obtain ⟨rfl, -, -⟩ := last_two_inj hparts hparts'
          rw [hfault] at hfault'
          cases hfault'
          rfl
      | _ => cases hrank

/-- The parts of a body are too few, or the last two are set apart. -/
theorem parts_cases (parts : List (List Char)) :
    parts.length < 2 ∨
      ∃ front subjectPart actionPart, parts = front ++ [subjectPart, actionPart] := by
  rcases List.eq_nil_or_concat parts with rfl | ⟨init, actionPart, rfl⟩
  · exact Or.inl (by decide)
  · rcases List.eq_nil_or_concat init with rfl | ⟨front, subjectPart, rfl⟩
    · exact Or.inl (by simp)
    · exact Or.inr ⟨front, subjectPart, actionPart, by simp⟩

/-- A body with a readable block is refused for the first defect of its parts. -/
theorem defect_of_ofParts
    {effect : Effect}
    {conditions : Option Object}
    (hblock : BlockSays block conditions)
    (h : ofParts text effect conditions parts.reverse = .error e) :
    Defect text block parts e ∧ ∀ e', Defect text block parts e' → e.rank ≤ e'.rank := by
  -- After each check that passes, a defect has to come later in the order.
  have from1 : ∀ e', Defect text block parts e' → 1 ≤ e'.rank :=
    fun e' h' => Nat.one_le_iff_ne_zero.2 (h'.rank_ne_zero hblock)
  rcases parts_cases parts with hshort | ⟨front, subjectPart, actionPart, hparts⟩
  · have heq : e = .tooFewParts text := by
      match parts, hshort, h with
      | [], _, h => exact (Except.error.inj h).symm
      | [_], _, h => exact (Except.error.inj h).symm
    subst heq
    exact ⟨Defect.parts hshort, from1⟩
  · rw [hparts, List.reverse_append] at h
    simp only [List.reverse_cons, List.reverse_nil, List.nil_append, List.cons_append, ofParts,
      List.reverse_reverse] at h
    have from2 : ∀ e', Defect text block parts e' → 2 ≤ e'.rank :=
      fun e' h' => Nat.lt_of_le_of_ne (from1 e' h') (h'.rank_ne_one hparts).symm
    rcases bind_eq_error_iff.1 h with hactions | ⟨actions, hactions, h⟩
    · obtain ⟨hblank, rfl⟩ := readNames_eq_error_iff.1 hactions
      exact ⟨Defect.actions hparts hblank, from2⟩
    have hactions := not_blankName_of_readNames hactions
    have from3 : ∀ e', Defect text block parts e' → 3 ≤ e'.rank :=
      fun e' h' => Nat.lt_of_le_of_ne (from2 e' h') (h'.rank_ne_two hparts hactions).symm
    rcases bind_eq_error_iff.1 h with hsubjects | ⟨subjects, hsubjects, h⟩
    · obtain ⟨hblank, rfl⟩ := readNames_eq_error_iff.1 hsubjects
      exact ⟨Defect.subjects hparts hblank, from3⟩
    have hsubjects := not_blankName_of_readNames hsubjects
    have from4 : ∀ e', Defect text block parts e' → 4 ≤ e'.rank :=
      fun e' h' => Nat.lt_of_le_of_ne (from3 e' h') (h'.rank_ne_three hparts hsubjects).symm
    rcases bind_eq_error_iff.1 h with hscope | ⟨scope, -, ⟨⟩⟩
    obtain ⟨hne, fault, hfault, rfl⟩ := readScope_eq_error_iff.1 hscope
    exact ⟨Defect.scope hparts hne hfault, from4⟩

end Order

/-! What a text is read as. -/

section Whole

variable {text : String} {p : Permission} {e : PermissionError}

/-- A text reads as the permission that its parts say. -/
theorem parse_eq_ok_iff_textSays : parse text = .ok p ↔ Says text p := by
  rw [parse_eq_ok_iff rfl, readBlock_eq_ok_iff_blockSays]
  constructor
  · rintro ⟨heffect, hblock, front, subjectPart, actionPart, hparts, hsubjects, hsubjects',
      hactions, hactions', hscope⟩
    exact Says.intro (divides_iff.2 ⟨heffect, rfl, rfl⟩) hblock hparts
      (namesSay_iff.2 ⟨hactions, hactions'⟩) (namesSay_iff.2 ⟨hsubjects, hsubjects'⟩)
      (readScope_eq_ok_iff_scopeSays.1 hscope)
  · rintro ⟨hdivides, hblock, hparts, hactions, hsubjects, hscope⟩
    obtain ⟨heffect, rfl, rfl⟩ := divides_iff.1 hdivides
    obtain ⟨hactions, hactions'⟩ := namesSay_iff.1 hactions
    obtain ⟨hsubjects, hsubjects'⟩ := namesSay_iff.1 hsubjects
    exact ⟨heffect, hblock, _, _, _, hparts, hsubjects, hsubjects', hactions, hactions',
      readScope_eq_ok_iff_scopeSays.2 hscope⟩

theorem Divides.unique
    {effect effect' : Effect} {body body' block block' : List Char}
    (h : Divides text effect body block)
    (h' : Divides text effect' body' block') :
    effect' = effect ∧ body' = body ∧ block' = block := by
  obtain ⟨rfl, rfl, rfl⟩ := divides_iff.1 h
  exact divides_iff.1 h'

/-- A text that says a permission has no defect. -/
theorem not_firstDefect_of_textSays
    (h : Says text p) :
    ¬FirstDefect text e := by
  rintro ⟨hdivides', hdefect, -⟩
  obtain ⟨hdivides, hblock, hparts, hactions, hsubjects, hscope⟩ := h
  obtain ⟨-, rfl, rfl⟩ := hdivides.unique hdivides'
  have h0 := hdefect.rank_ne_zero hblock
  have h1 := hdefect.rank_ne_one hparts
  have h2 := hdefect.rank_ne_two hparts hactions.1
  have h3 := hdefect.rank_ne_three hparts hsubjects.1
  have h4 := hdefect.rank_ne_four hparts hscope
  have h5 := e.rank_lt
  omega

theorem FirstDefect.unique
    {e' : PermissionError}
    (h : FirstDefect text e)
    (h' : FirstDefect text e') :
    e = e' := by
  obtain ⟨hdivides, hdefect, hfirst⟩ := h
  obtain ⟨hdivides', hdefect', hfirst'⟩ := h'
  obtain ⟨-, rfl, rfl⟩ := hdivides.unique hdivides'
  exact hdefect.eq_of_rank_eq hdefect' (Nat.le_antisymm (hfirst _ hdefect') (hfirst' _ hdefect))

theorem firstDefect_of_parse
    (h : parse text = .error e) :
    FirstDefect text e := by
  obtain ⟨⟨effect, rest⟩, hsplit⟩ : ∃ split, splitEffect (Text.trim text.toList) = split :=
    ⟨_, rfl⟩
  have hdivides : Divides text effect (Text.beforeBrace rest) (Text.fromBrace rest) := by
    rw [divides_iff, hsplit]
    exact ⟨rfl, rfl, rfl⟩
  rw [parse_eq hsplit] at h
  rcases bind_eq_error_iff.1 h with hblock | ⟨conditions, hblock, hparts⟩
  · obtain ⟨hne, hquery, rfl⟩ := readBlock_eq_error_iff.1 hblock
    exact FirstDefect.intro hdivides (Defect.conditions hne hquery) fun e' _ => Nat.zero_le _
  · obtain ⟨hdefect, hfirst⟩ := defect_of_ofParts (readBlock_eq_ok_iff_blockSays.1 hblock) hparts
    exact FirstDefect.intro hdivides hdefect hfirst

/-- A text is refused for the first of its defects. -/
theorem parse_eq_error_iff_firstDefect : parse text = .error e ↔ FirstDefect text e := by
  constructor
  · exact firstDefect_of_parse
  · intro h
    cases hparse : parse text with
    | ok p => exact absurd h (not_firstDefect_of_textSays (parse_eq_ok_iff_textSays.1 hparse))
    | error e' => rw [(firstDefect_of_parse hparse).unique h]

/-- No literal begins with a closing brace. -/
theorem parse_closingBrace_ne_ok
    (rest : List Char)
    (v : Json) :
    Literal.parse (String.ofList ('\x7d' :: rest)) ≠ .ok v := by
  rw [Literal.parse, String.toList_ofList]
  intro h
  obtain ⟨r, hread, -⟩ := Literal.parseChars_eq_ok_iff.1 h
  have hvalue := Literal.reads_iff.1 hread
  rw [Literal.plain_value] at hvalue
  cases hvalue

end Whole

/-- **A text reads as the permission that its parts say, and is refused for the first of its
defects.**  A block that a closing brace opens is always refused as conditions, whatever other
defects the text has. -/
theorem parse_says_or_firstDefect (text : String) :
    (∀ p, parse text = .ok p ↔ Says text p) ∧
      (∀ e, parse text = .error e ↔ FirstDefect text e) ∧
      ∀ effect body rest, Divides text effect body ('\x7d' :: rest) →
        parse text = .error (.badConditions (String.ofList ('\x7d' :: rest)) text) := by
  refine ⟨fun p => parse_eq_ok_iff_textSays, fun e => parse_eq_error_iff_firstDefect, ?_⟩
  intro effect body rest hdivides
  have hdefect : Defect text ('\x7d' :: rest) (body.splitOn scopeDelimiter)
      (.badConditions (String.ofList ('\x7d' :: rest)) text) :=
    Defect.conditions (List.cons_ne_nil _ _) fun query =>
      parse_closingBrace_ne_ok rest (.object query)
  exact parse_eq_error_iff_firstDefect.2
    (FirstDefect.intro hdivides hdefect fun e' _ => Nat.zero_le _)

/-- A text with blank names and a stray brace is refused for its brace. -/
theorem parse_says_or_firstDefect_strayBrace :
    Divides " !doc:,\x7d" .cannot "doc:,".toList ['\x7d'] ∧
      parse " !doc:,\x7d" = .error (.badConditions "\x7d" " !doc:,\x7d") ∧
      FirstDefect " !doc:,\x7d" (.badConditions "\x7d" " !doc:,\x7d") := by
  have hdivides : Divides " !doc:,\x7d" .cannot "doc:,".toList ['\x7d'] :=
    divides_iff.2 ⟨by decide, by decide, by decide⟩
  have hparse := (parse_says_or_firstDefect " !doc:,\x7d").2.2 .cannot _ [] hdivides
  exact ⟨hdivides, hparse, ((parse_says_or_firstDefect " !doc:,\x7d").2.1 _).1 hparse⟩

end Permission
end Warrant
