import Warrant.Languages
import Warrant.Scope.Basic

/-!
# Patterns of scopes

A scope is also a pattern for scope texts: a `*` anywhere in it stands for any run of characters
other than the delimiter, and every other character stands for itself.  The pattern is anchored
at the front only, so it also accepts every text that goes on after a match.

Whether a scope has a pattern at all is left to the language of patterns, which may refuse a source
for its size.  What a source matches is not: it is made of the anchor, of characters and of runs
`[^:]*` only, and these mean the same in every such language.

`Glob.accepts` answers in one pass over the pattern from its end.  It keeps one answer for each
position of the text, so its cost is the product of the two lengths.

**Results.**
* `matchRow_eq_map_tails`: the row of answers is the direct definition at every position.
* `accepts_eq_matchesHere`: the pass and the direct definition agree.
-/

namespace Warrant

/-- A pattern: a text in which `*` is special. -/
structure Glob where
  chars : List Char
deriving DecidableEq

namespace Glob

/-- The texts that are left after a run of characters other than the delimiter. -/
def afterRun : List Char → List (List Char)
  | [] => [[]]
  | c :: cs => (c :: cs) :: if c = ':' then [] else afterRun cs

/-- Whether the pattern matches at the front of a text, as it is defined. -/
def matchesHere : List Char → List Char → Bool
  | [], _ => true
  | p :: ps, t =>
      if p = '*' then (afterRun t).any (matchesHere ps)
      else
        match t with
        | [] => false
        | c :: cs => p == c && matchesHere ps cs

theorem matchesHere_star_cons (ps : List Char) (c : Char) (cs : List Char) :
    matchesHere ('*' :: ps) (c :: cs) =
      (matchesHere ps (c :: cs) || (c != ':' && matchesHere ('*' :: ps) cs)) := by
  by_cases h : c = ':'
  · simp [matchesHere, afterRun, h]
  · have hb : (c != ':') = true := by simpa using h
    simp [matchesHere, afterRun, h, hb]

/-- The answers for `*` in front of a pattern, from the text and the answers for the pattern. -/
def starRow : List Char → List Bool → List Bool
  | c :: cs, b :: bs =>
      let row := starRow cs bs
      (b || (c != ':' && row.headD false)) :: row
  | _, bs => bs

/-- The answers for a character in front of a pattern. -/
def charRow (p : Char) : List Char → List Bool → List Bool
  | c :: cs, _ :: bs => (p == c && bs.headD false) :: charRow p cs bs
  | _, _ => [false]

/-- The answers of a pattern at every position of the text, its end included. -/
def matchRow (text : List Char) : List Char → List Bool
  | [] => List.replicate (text.length + 1) true
  | p :: ps =>
      if p = '*' then starRow text (matchRow text ps) else charRow p text (matchRow text ps)

/-- Whether the pattern accepts a text. -/
def accepts (g : Glob) (text : String) : Bool :=
  (matchRow text.toList g.chars).headD false

/-- The positions of a text, as the texts that begin there. -/
def suffixes : List Char → List (List Char)
  | [] => [[]]
  | c :: cs => (c :: cs) :: suffixes cs

theorem suffixes_eq_cons (t : List Char) : ∃ ts, suffixes t = t :: ts := by
  cases t <;> exact ⟨_, rfl⟩

theorem starRow_eq_map (ps t : List Char) :
    starRow t ((suffixes t).map (matchesHere ps)) =
      (suffixes t).map (matchesHere ('*' :: ps)) := by
  induction t with
  | nil => simp [suffixes, starRow, matchesHere, afterRun]
  | cons c cs ih =>
      obtain ⟨ts, hts⟩ := suffixes_eq_cons cs
      simp only [suffixes, List.map_cons, starRow, ih, matchesHere_star_cons]
      simp [hts]

theorem charRow_eq_map (p : Char) (hp : p ≠ '*') (ps t : List Char) :
    charRow p t ((suffixes t).map (matchesHere ps)) =
      (suffixes t).map (matchesHere (p :: ps)) := by
  induction t with
  | nil => simp [suffixes, charRow, matchesHere, hp]
  | cons c cs ih =>
      obtain ⟨ts, hts⟩ := suffixes_eq_cons cs
      simp only [suffixes, List.map_cons, charRow, ih]
      simp [hts, matchesHere, hp]

theorem map_matchesHere_nil (t : List Char) :
    (suffixes t).map (matchesHere []) = List.replicate (t.length + 1) true := by
  induction t with
  | nil => rfl
  | cons c cs ih =>
      rw [suffixes, List.map_cons, ih]
      simp [matchesHere, List.replicate_succ]

/-- The row of answers of a pattern is its definition at every position. -/
theorem matchRow_eq_map_tails (t ps : List Char) :
    matchRow t ps = (suffixes t).map (matchesHere ps) := by
  induction ps with
  | nil => rw [matchRow, map_matchesHere_nil]
  | cons p ps ih =>
      by_cases hp : p = '*'
      · subst hp; simp [matchRow, ih, starRow_eq_map]
      · simp [matchRow, ih, hp, charRow_eq_map p hp]

/-- **The pass over the pattern decides the direct definition.** -/
theorem accepts_eq_matchesHere (g : Glob) (text : String) :
    g.accepts text = matchesHere g.chars text.toList := by
  obtain ⟨ts, hts⟩ := suffixes_eq_cons text.toList
  simp [accepts, matchRow_eq_map_tails, hts]

/-- A character that is special in pattern sources and stands behind a backslash there. -/
def isSpecial (c : Char) : Bool :=
  ['\\', '.', '+', '*', '?', '(', ')', '|', '[', ']', '{', '}', '^', '$', '#', '&', '-',
    '~'].contains c

/-- A character of the pattern source. -/
def sourceChar (c : Char) : List Char :=
  if c = '*' then ['[', '^', ':', ']', '*']
  else if isSpecial c then ['\\', c]
  else [c]

/-- The pattern as the source text of a regular expression. -/
def source (g : Glob) : String :=
  String.ofList ('^' :: g.chars.flatMap sourceChar)

end Glob

namespace Scope

/-- The text of a scope as a pattern. -/
def glob (s : Scope) : Glob :=
  ⟨s.text.toList⟩

/-- The pattern of a scope, if its source compiles.  Sources are well-formed, so one that does not
compile is too large. -/
def pattern [Languages] (s : Scope) : Except ScopeError Glob :=
  if (Languages.patterns.compile false s.glob.source).isSome then .ok s.glob
  else .error .patternTooLarge

end Scope
end Warrant
