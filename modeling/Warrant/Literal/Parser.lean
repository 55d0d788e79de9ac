import Warrant.Literal.Error
import Warrant.Number.Hexadecimal
import Warrant.Text.Blank
import Warrant.Text.Rest

/-!
# Reading object literals

A relaxed form of data text: keys may be bare identifiers, strings may stand between quotes of
either kind, numbers may have signs and points that the strict grammar refuses, and a comma may
follow the last element.  Strings that are values must be quoted; the only bare words are `true`,
`false` and `null`.  A key that comes again replaces the earlier value in its place.

Each reader takes the text from where it starts and returns what it read with the rest of the
text, or a failure with the text that is left where the fault was noticed.

**Results.**
* `length_lt_of_characters`: reading a string uses up text.
-/

namespace Warrant
namespace Literal

open Text (Shorter)

/-- The text from its first character that is not blank. -/
def skipBlanks (s : List Char) : List Char :=
  s.dropWhile Text.isBlank

theorem length_lt_of_skipBlanks {s r : List Char} {c : Char} (h : skipBlanks s = c :: r) :
    r.length < s.length :=
  Text.length_lt_of_dropWhile h

/-- Whether a character is an ASCII letter. -/
def isLetter (c : Char) : Bool :=
  ('a' ≤ c && c ≤ 'z') || ('A' ≤ c && c ≤ 'Z')

/-- Whether an identifier may begin with a character. -/
def startsIdentifier (c : Char) : Bool :=
  isLetter c || c == '_' || c == '$'

/-- Whether a character may stand in an identifier. -/
def inIdentifier (c : Char) : Bool :=
  startsIdentifier c || Decimal.isDigit c

/-- Whether a text is an identifier. -/
def isIdentifier : List Char → Bool
  | [] => false
  | c :: r => startsIdentifier c && r.all inIdentifier

/-- Whether a numeral may begin with a character. -/
def startsNumeral (c : Char) : Bool :=
  Decimal.isDigit c || c == '-' || c == '+' || c == '.'

/-- Whether a character may stand in a numeral. -/
def inNumeral (c : Char) : Bool :=
  startsNumeral c || c == 'e' || c == 'E'

/-- The text behind its first `n` bytes, if a character begins there. -/
def afterBytes : Nat → List Char → Option (List Char)
  | 0, s => some s
  | _ + 1, [] => none
  | n + 1, c :: r => if c.utf8Size ≤ n + 1 then afterBytes (n + 1 - c.utf8Size) r else none
termination_by _ s => s.length

/-- The number of an escape by code point: four hexadecimal digits, of which the first may be a
plus sign. -/
def escapeNumber? (a b c d : Char) : Option Nat :=
  if a = '+' then hexNumber? [b, c, d] else hexNumber? [a, b, c, d]

/-- What is wrong with an escape by code point that is not four hexadecimal digits. -/
def escapeFault (s : List Char) : Cause :=
  match afterBytes 4 s with
  | some _ => .badUnicode
  | none => .truncatedUnicode

/-- The character with a given number, unless that is a surrogate. -/
def charOf? (n : Nat) : Option Char :=
  if n.isValidChar then some (Char.ofNat n) else none

/-- The character that a backslash and a character stand for. -/
def unescape (c : Char) : Char :=
  match c with
  | 'n' => '\n'
  | 't' => '\t'
  | 'r' => '\r'
  | 'b' => '\x08'
  | 'f' => '\x0c'
  | c => c

/-- Puts a character in front of what is read after it. -/
def consRead (c : Char) (read : Except Failure (List Char × List Char)) :
    Except Failure (List Char × List Char) :=
  read.map fun p => (c :: p.1, p.2)

/-- The characters of a string up to its closing quote, and the text behind that. -/
def characters (quote : Char) : List Char → Except Failure (List Char × List Char)
  | [] => .error ⟨.unterminatedString, []⟩
  | ['\\'] => .error ⟨.unterminatedEscape, []⟩
  | '\\' :: 'u' :: a :: b :: c :: d :: r =>
      match escapeNumber? a b c d with
      | none => .error ⟨escapeFault (a :: b :: c :: d :: r), a :: b :: c :: d :: r⟩
      | some n =>
          match charOf? n with
          | none => .error ⟨.badCodePoint, r⟩
          | some e => consRead e (characters quote r)
  | '\\' :: c :: r =>
      if c = 'u' then .error ⟨escapeFault r, r⟩
      else consRead (unescape c) (characters quote r)
  | c :: r => if c = quote then .ok ([], r) else consRead c (characters quote r)

theorem exists_of_consRead {c : Char} {read : Except Failure (List Char × List Char)}
    {cs rest : List Char} (h : consRead c read = .ok (cs, rest)) :
    ∃ ds, cs = c :: ds ∧ read = .ok (ds, rest) := by
  cases read with
  | error e => simp [consRead, Except.map] at h
  | ok p =>
      obtain ⟨ds, r⟩ := p
      simp only [consRead, Except.map, Except.ok.injEq, Prod.mk.injEq] at h
      exact ⟨ds, h.1.symm, by rw [h.2]⟩

/-- What follows a string is shorter than the text behind its opening quote. -/
theorem length_lt_of_characters {quote : Char} {s cs rest : List Char}
    (h : characters quote s = .ok (cs, rest)) : rest.length < s.length := by
  fun_induction characters quote s generalizing cs with
  | case1 => simp at h
  | case2 => simp at h
  | case3 => simp at h
  | case4 => simp at h
  | case5 a b c d r n _ e _ ih =>
      obtain ⟨ds, _, hr⟩ := exists_of_consRead h
      have := ih hr
      simp only [List.length_cons]
      omega
  | case6 => simp at h
  | case7 c r _ _ ih =>
      obtain ⟨ds, _, hr⟩ := exists_of_consRead h
      have := ih hr
      simp only [List.length_cons]
      omega
  | case8 => simp_all
  | case9 c r _ _ _ _ ih =>
      obtain ⟨ds, _, hr⟩ := exists_of_consRead h
      have := ih hr
      simp only [List.length_cons]
      omega

/-- A string behind its opening quote. -/
def stringBody (quote : Char) (s : List Char) : Except Failure (String × Shorter s) :=
  match h : characters quote s with
  | .error e => .error e
  | .ok (cs, rest) => .ok (String.ofList cs, ⟨rest, length_lt_of_characters h⟩)

/-- The number of a numeral: an integer of 64 bits if it is one, and else a binary64 number. -/
def numberOf? (numeral : List Char) : Option Number :=
  match (Decimal.readInteger? numeral).bind Integer.ofInt? with
  | some n => some (.integer n)
  | none => ((Decimal.read? numeral).bind Decimal.toBinary64?).map .float

/-- A numeral without the plus signs in front of it. -/
def withoutPlus (numeral : List Char) : List Char :=
  numeral.dropWhile (· == '+')

/-- A number at the front of a text that begins with `c`. -/
def number (c : Char) (r : List Char) : Except Failure (Json × Shorter (c :: r)) :=
  let numeral := withoutPlus (c :: r.takeWhile inNumeral)
  match numberOf? numeral with
  | some n =>
    .ok (.number n, ⟨r.dropWhile inNumeral, Nat.lt_succ_of_le (Text.length_dropWhile_le _ r)⟩)
  | none => .error ⟨.badNumber numeral, c :: r⟩

/-- A bare word at the front of a text that begins with the letter `c`. -/
def keyword (c : Char) (r : List Char) : Except Failure (Json × Shorter (c :: r)) :=
  let word := c :: r.takeWhile inIdentifier
  let rest : Shorter (c :: r) :=
    ⟨r.dropWhile inIdentifier, Nat.lt_succ_of_le (Text.length_dropWhile_le _ r)⟩
  if word = ['t', 'r', 'u', 'e'] then .ok (.bool true, rest)
  else if word = ['f', 'a', 'l', 's', 'e'] then .ok (.bool false, rest)
  else if word = ['n', 'u', 'l', 'l'] then .ok (.null, rest)
  else .error ⟨.unquoted word, c :: r⟩

/-- The key of an entry at the front of a text that begins with `c`. -/
def key (c : Char) (r : List Char) : Except Failure (String × Shorter (c :: r)) :=
  if c = '"' ∨ c = '\'' then
    match stringBody c r with
    | .error e => .error e
    | .ok (k, ⟨rest, h⟩) => .ok (k, ⟨rest, Text.lt_length_cons_of_lt _ h⟩)
  else if startsIdentifier c then
    .ok (String.ofList (c :: r.takeWhile inIdentifier),
      ⟨r.dropWhile inIdentifier, Nat.lt_succ_of_le (Text.length_dropWhile_le _ r)⟩)
  else .error ⟨.objectKey, c :: r⟩

mutual

/-- A value, after any blanks. -/
def value (s : List Char) : Except Failure (Json × Shorter s) :=
  match h : skipBlanks s with
  | [] => .error ⟨.unexpectedEnd, []⟩
  | c :: r =>
      have hr : r.length < s.length := length_lt_of_skipBlanks h
      if c = '{' then
        match members r [] with
        | .error e => .error e
        | .ok (o, ⟨rest, hrest⟩) => .ok (.object o, ⟨rest, Nat.lt_trans hrest hr⟩)
      else if c = '[' then
        match items r with
        | .error e => .error e
        | .ok (vs, ⟨rest, hrest⟩) => .ok (.array vs, ⟨rest, Nat.lt_trans hrest hr⟩)
      else if c = '"' ∨ c = '\'' then
        match stringBody c r with
        | .error e => .error e
        | .ok (t, ⟨rest, hrest⟩) => .ok (.string t, ⟨rest, Nat.lt_trans hrest hr⟩)
      else if startsNumeral c then
        match number c r with
        | .error e => .error e
        | .ok (v, ⟨rest, hrest⟩) =>
            .ok (v, ⟨rest, Nat.lt_of_lt_of_le hrest (Nat.succ_le_of_lt hr)⟩)
      else if isLetter c then
        match keyword c r with
        | .error e => .error e
        | .ok (v, ⟨rest, hrest⟩) =>
            .ok (v, ⟨rest, Nat.lt_of_lt_of_le hrest (Nat.succ_le_of_lt hr)⟩)
      else .error ⟨.unexpected c, c :: r⟩
termination_by (s.length, 0)

/-- The entries of an object up to its closing brace, inserted after those read before. -/
def members (s : List Char) (before : Object) : Except Failure (Object × Shorter s) :=
  match h : skipBlanks s with
  | [] => .error ⟨.unterminatedObject, []⟩
  | c :: r =>
      have hr : r.length < s.length := length_lt_of_skipBlanks h
      if c = '}' then .ok (before, ⟨r, hr⟩)
      else
        match key c r with
        | .error e => .error e
        | .ok (k, ⟨r1, h1⟩) =>
            have hr1 : r1.length < s.length := Nat.lt_of_lt_of_le h1 (Nat.succ_le_of_lt hr)
            match h2 : skipBlanks r1 with
            | [] => .error ⟨.expected ':' none, []⟩
            | c2 :: r2 =>
                have hr2 : r2.length < s.length := Nat.lt_trans (length_lt_of_skipBlanks h2) hr1
                if c2 = ':' then
                  match value r2 with
                  | .error e => .error e
                  | .ok (v, ⟨r3, h3⟩) =>
                      have hr3 : r3.length < s.length := Nat.lt_trans h3 hr2
                      match h4 : skipBlanks r3 with
                      | [] => .error ⟨.objectSeparator, []⟩
                      | c4 :: r4 =>
                          have hr4 : r4.length < s.length :=
                            Nat.lt_trans (length_lt_of_skipBlanks h4) hr3
                          if c4 = ',' then
                            match members r4 (before.insert k v) with
                            | .error e => .error e
                            | .ok (o, ⟨rest, hrest⟩) => .ok (o, ⟨rest, Nat.lt_trans hrest hr4⟩)
                          else if c4 = '}' then .ok (before.insert k v, ⟨r4, hr4⟩)
                          else .error ⟨.objectSeparator, r4⟩
                else .error ⟨.expected ':' (some c2), r2⟩
termination_by (s.length, 1)

/-- The items of a list up to its closing bracket. -/
def items (s : List Char) : Except Failure (List Json × Shorter s) :=
  match h : skipBlanks s with
  | ']' :: r => .ok ([], ⟨r, length_lt_of_skipBlanks h⟩)
  | _ =>
      match value s with
      | .error e => .error e
      | .ok (v, ⟨r1, h1⟩) =>
          match h2 : skipBlanks r1 with
          | [] => .error ⟨.arraySeparator, []⟩
          | c2 :: r2 =>
              have hr2 : r2.length < s.length := Nat.lt_trans (length_lt_of_skipBlanks h2) h1
              if c2 = ',' then
                match items r2 with
                | .error e => .error e
                | .ok (vs, ⟨rest, hrest⟩) => .ok (v :: vs, ⟨rest, Nat.lt_trans hrest hr2⟩)
              else if c2 = ']' then .ok ([v], ⟨r2, hr2⟩)
              else .error ⟨.arraySeparator, r2⟩
termination_by (s.length, 1)

end

/-- The value of a complete text: nothing but blanks follows it. -/
def parseChars (s : List Char) : Except Error Json :=
  match value s with
  | .error f => .error (f.locate s)
  | .ok (v, rest) =>
      match skipBlanks rest.1 with
      | [] => .ok v
      | left => .error ((⟨.trailing, left⟩ : Failure).locate s)

/-- The value that a literal denotes. -/
def parse (text : String) : Except Error Json :=
  parseChars text.toList

end Literal
end Warrant
