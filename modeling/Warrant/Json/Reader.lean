import Warrant.Json.Basic
import Warrant.Number.Hexadecimal
import Warrant.Text.Rest

/-!
# Reading data texts

The grammar of RFC 8259.  A reading consumes characters from the front of a text and hands on
the rest; that the rest is shorter is part of its type, so the readers call each other on ever
shorter texts and need no other bound.

Which binary64 number a numeral stands for that is no integer of 64 bits is a parameter.
Containers may be nested only as deep as a limit says, and numerals without a number and unpaired
surrogates are refused.  Where the content of a value is not wanted (limit `none`) the text is
checked for its form only.  Entries are kept as they stand in the text, also when a key comes
again; `Json.settle` keeps one of each.

**Results.**
* `length_lt_of_skipBlanks`: what follows a character after blanks is shorter than the text.
-/

namespace Warrant
namespace Json

/-- The binary64 numbers that numerals are read as; a numeral out of range has none. -/
class Floats where
  float? : List Char → Option Binary64

namespace Reader

open Text (Shorter)

/-- The blanks of the grammar. -/
def isGap (c : Char) : Bool :=
  c == ' ' || c == '\n' || c == '\t' || c == '\r'

/-- The text from its first character that is not a blank. -/
def skipBlanks (s : List Char) : List Char :=
  s.dropWhile isGap

theorem length_lt_of_skipBlanks {s r : List Char} {c : Char} (h : skipBlanks s = c :: r) :
    r.length < s.length :=
  Text.length_lt_of_dropWhile h

/-- A part of a string: a character, or a code unit written by its number. -/
inductive Piece where
  | char (c : Char)
  | unit (n : Nat)

/-- The character that a backslash and a letter stand for. -/
def simpleEscape? (c : Char) : Option Char :=
  match c with
  | '"' => some '"'
  | '\\' => some '\\'
  | '/' => some '/'
  | 'b' => some '\x08'
  | 'f' => some '\x0c'
  | 'n' => some '\n'
  | 'r' => some '\r'
  | 't' => some '\t'
  | _ => none

/-- The pieces of a string up to its closing quote, and what follows. -/
def pieces : List Char → Option (List Piece × List Char)
  | [] => none
  | '"' :: r => some ([], r)
  | '\\' :: 'u' :: a :: b :: c :: d :: r => do
      let n ← hexNumber? [a, b, c, d]
      let (ps, rest) ← pieces r
      return (.unit n :: ps, rest)
  | '\\' :: c :: r => do
      let e ← simpleEscape? c
      let (ps, rest) ← pieces r
      return (.char e :: ps, rest)
  | c :: r =>
      if c.toNat < 32 || c == '\\' then none
      else do
        let (ps, rest) ← pieces r
        return (.char c :: ps, rest)

theorem length_lt_of_pieces {s rest : List Char} {ps : List Piece}
    (h : pieces s = some (ps, rest)) : rest.length < s.length := by
  fun_induction pieces s generalizing ps with
  | case1 => simp at h
  | case2 => simp only [Option.some.injEq, Prod.mk.injEq] at h; simp [h.2]
  | case3 a b c d r ih =>
      simp only [Option.bind_eq_bind, Option.bind_eq_some_iff] at h
      obtain ⟨_, _, ⟨_, _⟩, hq, he⟩ := h
      simp only [Option.pure_def, Option.some.injEq, Prod.mk.injEq] at he
      obtain ⟨_, rfl⟩ := he
      have := ih hq
      simp only [List.length_cons]
      omega
  | case4 c r _ ih =>
      simp only [Option.bind_eq_bind, Option.bind_eq_some_iff] at h
      obtain ⟨_, _, ⟨_, _⟩, hq, he⟩ := h
      simp only [Option.pure_def, Option.some.injEq, Prod.mk.injEq] at he
      obtain ⟨_, rfl⟩ := he
      have := ih hq
      simp only [List.length_cons]
      omega
  | case5 => simp at h
  | case6 c r _ _ _ _ ih =>
      simp only [Option.bind_eq_bind, Option.bind_eq_some_iff] at h
      obtain ⟨⟨_, _⟩, hq, he⟩ := h
      simp only [Option.pure_def, Option.some.injEq, Prod.mk.injEq] at he
      obtain ⟨_, rfl⟩ := he
      have := ih hq
      simp only [List.length_cons]
      omega

/-- The characters of a string.  Two code units that form a surrogate pair are one character; an
unpaired surrogate is refused. -/
def joinPieces : List Piece → Option (List Char)
  | [] => some []
  | .char c :: ps => (joinPieces ps).map (c :: ·)
  | .unit n :: ps =>
      if n < 0xD800 || 0xDFFF < n then (joinPieces ps).map (Char.ofNat n :: ·)
      else
        match ps with
        | .unit m :: rest =>
            if n < 0xDC00 && 0xDC00 ≤ m && m ≤ 0xDFFF then
              (joinPieces rest).map
                (Char.ofNat (0x10000 + (n - 0xD800) * 0x400 + (m - 0xDC00)) :: ·)
            else none
        | _ => none

/-- A string behind its opening quote.  If only the form counts, surrogates need no partner. -/
def stringBody (formOnly : Bool) (s : List Char) : Option (String × Shorter s) :=
  match h : pieces s with
  | none => none
  | some (ps, rest) =>
      match joinPieces ps with
      | some cs => some (String.ofList cs, ⟨rest, length_lt_of_pieces h⟩)
      | none => if formOnly then some ("", ⟨rest, length_lt_of_pieces h⟩) else none

/-- A character that occurs in numerals. -/
def isNumeral (c : Char) : Bool :=
  Decimal.isDigit c || c == '+' || c == '-' || c == '.' || c == 'e' || c == 'E'

/-- Whether the digits of a numeral before the point are written in full: at least one digit, and
no zero before others. -/
def wholeWellFormed : List Char → Bool
  | [] => false
  | [_] => true
  | c :: _ => c != '0'

/-- Whether what follows the whole part of a numeral has a digit after its point. -/
def fractionWellFormed : List Char → Bool
  | '.' :: c :: _ => Decimal.isDigit c
  | ['.'] => false
  | _ => true

/-- One level of nesting less, unless none is left. -/
def enter : Option Nat → Option (Option Nat)
  | none => some none
  | some 0 => none
  | some (n + 1) => some (some n)

/-- Whether a limit says that only the form of a value counts. -/
def formCounts : Option Nat → Bool
  | none => true
  | some _ => false

section Floats

variable [Floats]

/-- The number of a numeral, if that has the form of the grammar.  A numeral without point and
exponent is an integer if it fits, but a negative zero is not.  The inner option is empty for a
number out of range. -/
def numberOf? (s : List Char) : Option (Option Number) :=
  let (negative, unsigned) := match s with
    | '-' :: r => (true, r)
    | r => (false, r)
  let whole := unsigned.takeWhile Decimal.isDigit
  let tail := unsigned.dropWhile Decimal.isDigit
  if !wholeWellFormed whole || !fractionWellFormed tail then none
  else
    let magnitude := Decimal.wholeNumber whole
    let n : Int := if negative then -(magnitude : Int) else magnitude
    match (if tail.isEmpty && !(negative && magnitude == 0) then Integer.ofInt? n else none) with
    | some i => some (some (.integer i))
    | none => (Decimal.read? s).map fun _ => (Floats.float? s).map .float

mutual

/-- A value, after any blanks. -/
def value (limit : Option Nat) (s : List Char) : Option (Json × Shorter s) :=
  match h : skipBlanks s with
  | [] => none
  | '{' :: r =>
      have hr := length_lt_of_skipBlanks h
      match enter limit with
      | none => none
      | some inner =>
          match h' : skipBlanks r with
          | '}' :: r' => some (.object [], ⟨r', Nat.lt_trans (length_lt_of_skipBlanks h') hr⟩)
          | _ =>
              match entries (formCounts limit) (fun _ => inner) r with
              | none => none
              | some (es, ⟨r', hr'⟩) => some (.object es, ⟨r', Nat.lt_trans hr' hr⟩)
  | '[' :: r =>
      have hr := length_lt_of_skipBlanks h
      match enter limit with
      | none => none
      | some inner =>
          match h' : skipBlanks r with
          | ']' :: r' => some (.array [], ⟨r', Nat.lt_trans (length_lt_of_skipBlanks h') hr⟩)
          | _ =>
              match items inner r with
              | none => none
              | some (vs, ⟨r', hr'⟩) => some (.array vs, ⟨r', Nat.lt_trans hr' hr⟩)
  | '"' :: r =>
      match stringBody (formCounts limit) r with
      | none => none
      | some (t, ⟨r', hr'⟩) => some (.string t, ⟨r', Nat.lt_trans hr' (length_lt_of_skipBlanks h)⟩)
  | 't' :: 'r' :: 'u' :: 'e' :: r =>
      some (.bool true, ⟨r, by have := length_lt_of_skipBlanks h; simp at this; omega⟩)
  | 'f' :: 'a' :: 'l' :: 's' :: 'e' :: r =>
      some (.bool false, ⟨r, by have := length_lt_of_skipBlanks h; simp at this; omega⟩)
  | 'n' :: 'u' :: 'l' :: 'l' :: r =>
      some (.null, ⟨r, by have := length_lt_of_skipBlanks h; simp at this; omega⟩)
  | c :: r =>
      let rest : Shorter s :=
        ⟨r.dropWhile isNumeral,
          Nat.lt_of_le_of_lt (List.dropWhile_sublist _).length_le (length_lt_of_skipBlanks h)⟩
      match numberOf? (c :: r.takeWhile isNumeral) with
      | none => none
      | some (some n) => some (.number n, rest)
      | some none => if formCounts limit then some (.null, rest) else none
termination_by (s.length, 0)

/-- The items of a list up to its closing bracket. -/
def items (limit : Option Nat) (s : List Char) : Option (List Json × Shorter s) :=
  match value limit s with
  | none => none
  | some (v, ⟨r, hr⟩) =>
      match h : skipBlanks r with
      | ']' :: r' => some ([v], ⟨r', Nat.lt_trans (length_lt_of_skipBlanks h) hr⟩)
      | ',' :: r' =>
          have hr' : r'.length < s.length := Nat.lt_trans (length_lt_of_skipBlanks h) hr
          match items limit r' with
          | none => none
          | some (vs, ⟨rest, hrest⟩) => some (v :: vs, ⟨rest, Nat.lt_trans hrest hr'⟩)
      | _ => none
termination_by (s.length, 1)

/-- The entries of an object up to its closing brace.  How a value is read depends on its key. -/
def entries (formOnly : Bool) (limitOf : String → Option Nat) (s : List Char) :
    Option (List (String × Json) × Shorter s) :=
  match h : skipBlanks s with
  | '"' :: q =>
      match stringBody formOnly q with
      | none => none
      | some (key, ⟨r, hr⟩) =>
          have hrs : r.length < s.length := Nat.lt_trans hr (length_lt_of_skipBlanks h)
          match h1 : skipBlanks r with
          | ':' :: r1 =>
              have hr1 : r1.length < s.length := Nat.lt_trans (length_lt_of_skipBlanks h1) hrs
              match value (limitOf key) r1 with
              | none => none
              | some (v, ⟨r2, hr2⟩) =>
                  match h3 : skipBlanks r2 with
                  | '}' :: r3 =>
                      some ([(key, v)],
                        ⟨r3, Nat.lt_trans (length_lt_of_skipBlanks h3) (Nat.lt_trans hr2 hr1)⟩)
                  | ',' :: r3 =>
                      have hr3 : r3.length < s.length :=
                        Nat.lt_trans (length_lt_of_skipBlanks h3) (Nat.lt_trans hr2 hr1)
                      match entries formOnly limitOf r3 with
                      | none => none
                      | some (es, ⟨rest, hrest⟩) =>
                          some ((key, v) :: es, ⟨rest, Nat.lt_trans hrest hr3⟩)
                  | _ => none
          | _ => none
  | _ => none
termination_by (s.length, 2)

end

end Floats

/-- Whether nothing but blanks is left. -/
def atEnd (s : List Char) : Bool :=
  (skipBlanks s).isEmpty

end Reader

/-- The value of a text whose containers are nested at most `depth` deep. -/
def read? [Floats] (depth : Nat) (text : String) : Option Json :=
  match Reader.value (some depth) text.toList with
  | some (v, rest) => if Reader.atEnd rest.1 then some v else none
  | none => none

end Json
end Warrant
