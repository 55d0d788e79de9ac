import Warrant.Expression.Numeral
import Warrant.Expression.Quoted
import Warrant.Text.Blank

/-!
# Dividing expressions into tokens

Blanks and comments, which go from `//` to the end of the line, stand between tokens.  At each
place the longest token is taken, so `1-1` is the two numerals `1` and `-1`.
-/

namespace Warrant
namespace Expression

open Text (Shorter)

/-- The mark at the front of a text. -/
def markAt? (s : List Char) : Option String :=
  marks.find? fun m => m.toList.isPrefixOf s

/-- A quoted text behind its opening quote. -/
def quoted (raw : Bool) (quote : Char) (s : List Char) : Option (Option Token × Shorter s) :=
  match h : quotedBody quote s with
  | none => none
  | some (body, rest) =>
      let text := if raw then some (unescapeRaw quote body) else unescape quote body
      some (text.map fun t => .text (String.ofList t), ⟨rest, length_lt_of_quotedBody h⟩)

/-- Whether a character is a quote. -/
def isQuote (c : Char) : Bool :=
  c == '\'' || c == '"'

/-- A raw text, which begins with its letter and a quote. -/
def rawAt? (s : List Char) : Option (Option Token × Shorter s) :=
  match s with
  | c :: q :: r =>
      if (c = 'r' ∨ c = 'R') ∧ isQuote q then
        (quoted true q r).map fun (t, ⟨rest, h⟩) =>
          (t, ⟨rest, by simp only [List.length_cons]; omega⟩)
      else none
  | _ => none

/-- The token of a word. -/
def wordToken (word : List Char) : Token :=
  let s := String.ofList word
  if reservedWords.contains s then .mark s else .name s

/-- The rest of a text behind its first `n + 1` characters. -/
def dropMore (n : Nat) (c : Char) (r : List Char) : Shorter (c :: r) :=
  ⟨r.drop n, by simp only [List.length_drop, List.length_cons]; omega⟩

/-- The token at the front of a text, which begins with `c`, and what follows. -/
def tokenAt? (c : Char) (r : List Char) : Option (Token × Shorter (c :: r)) :=
  match rawAt? (c :: r) with
  | some (t, rest) => t.map fun t => (t, rest)
  | none =>
      if isQuote c then
        match quoted false c r with
        | some (t, ⟨rest, h⟩) => t.map fun t => (t, ⟨rest, Text.lt_length_cons_of_lt _ h⟩)
        | none => none
      else if startsName c then
        let word := c :: r.takeWhile inName
        some (wordToken word,
          ⟨r.dropWhile inName, Nat.lt_succ_of_le (Text.length_dropWhile_le _ r)⟩)
      else
        match numeralAt? (c :: r) with
        | some (t, n) => t.map fun t => (t, dropMore (n - 1) c r)
        | none => (markAt? (c :: r)).map fun m => (.mark m, dropMore (m.length - 1) c r)

/-- Whether a text begins with a comment. -/
def startsComment : List Char → Bool
  | '/' :: '/' :: _ => true
  | _ => false

/-- Whether a character ends a line. -/
def isLineEnd (c : Char) : Bool :=
  c == '\n' || c == '\r'

/-- The tokens of a text; nothing if some part of it is no token. -/
def tokens (s : List Char) : Option (List Token) :=
  match _h : s.dropWhile Text.isBlank with
  | [] => some []
  | c :: r =>
      if startsComment (c :: r) then tokens (r.dropWhile fun d => !isLineEnd d)
      else
        match tokenAt? c r with
        | none => none
        | some (t, ⟨rest, _⟩) => (tokens rest).map (t :: ·)
termination_by s.length
decreasing_by
  · exact Nat.lt_of_le_of_lt (Text.length_dropWhile_le _ r) (Text.length_lt_of_dropWhile _h)
  · next hr =>
      exact Nat.lt_of_lt_of_le hr (Nat.succ_le_of_lt (Text.length_lt_of_dropWhile _h))

end Expression
end Warrant
