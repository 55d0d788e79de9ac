import Warrant.Number.Decimal
import Warrant.Number.Hexadecimal
import Warrant.Regex.CharClass
import Warrant.Text.Rest

/-!
# Reading classes of characters

The escapes of patterns and the classes in brackets: ranges, classes with a letter or a name,
complements, classes within classes, and the operators `&&`, `--` and `~~`.  Hyphens at the front
of a class and a closing bracket at its front stand for themselves.

**Results.**
* `length_leading_le`, `length_complementMark_le`: what is skipped at the front uses up text.
-/

namespace Warrant
namespace CharClass

open Text (Shorter)

/-- The characters that stand for themselves only behind a backslash. -/
def isMeta (c : Char) : Bool :=
  ['\\', '.', '+', '*', '?', '(', ')', '|', '[', ']', '{', '}', '^', '$', '#', '&', '-',
    '~'].contains c

/-- Whether a character is a letter or a digit of ASCII. -/
def isAlphanumeric (c : Char) : Bool :=
  Decimal.isDigit c || ('a' ≤ c && c ≤ 'z') || ('A' ≤ c && c ≤ 'Z')

/-- Whether a character that has no meaning of its own may stand behind a backslash. -/
def isEscapable (c : Char) : Bool :=
  isMeta c || (c.toNat < 128 && !isAlphanumeric c && c != '<' && c != '>')

/-- The class that a letter behind a backslash stands for. -/
def classEscape? (c : Char) : Option CharClass :=
  match c with
  | 'd' => some .digit
  | 'D' => some (.negated .digit)
  | 's' => some .blank
  | 'S' => some (.negated .blank)
  | 'w' => some .word
  | 'W' => some (.negated .word)
  | _ => none

/-- The character that a character behind a backslash stands for. -/
def charEscape? (c : Char) : Option Char :=
  match c with
  | 'a' => some '\x07'
  | 'f' => some '\x0c'
  | 'n' => some '\n'
  | 'r' => some '\r'
  | 't' => some '\t'
  | 'v' => some '\x0b'
  | c => if isEscapable c then some c else none

/-- How many digits an escape by number has, if no braces stand around them. -/
def numberWidth? (c : Char) : Option Nat :=
  match c with
  | 'x' => some 2
  | 'u' => some 4
  | 'U' => some 8
  | _ => none

/-- The character with a number written in hexadecimal. -/
def charOfHex? (digits : List Char) : Option Char := do
  if digits.isEmpty then none
  let n ← hexNumber? digits
  if n.isValidChar then some (Char.ofNat n) else none

/-- The character of an escape by number, behind its letter. -/
def numberEscape? (width : Nat) (s : List Char) : Option (Char × Nat) :=
  match s with
  | '{' :: r =>
      let digits := r.takeWhile (· != '}')
      if digits.length = r.length then none
      else (charOfHex? digits).map fun c => (c, digits.length + 2)
  | _ => if s.length < width then none else (charOfHex? (s.take width)).map fun c => (c, width)

/-- An escaped character or class, behind the backslash. -/
def escape? (s : List Char) : Option (CharClass × Option Char × Shorter s) :=
  match s with
  | [] => none
  | c :: r =>
      match classEscape? c, numberWidth? c with
      | some k, _ => some (k, none, ⟨r, Text.length_lt_cons _ r⟩)
      | none, some width =>
          (numberEscape? width r).map fun (d, n) =>
            (.single d, some d,
              ⟨r.drop n, by simp only [List.length_drop, List.length_cons]; omega⟩)
      | none, none =>
          (charEscape? c).map fun d => (.single d, some d, ⟨r, Text.length_lt_cons _ r⟩)

/-- One character or class within brackets; the character is given too if it is one. -/
def member? (s : List Char) : Option (CharClass × Option Char × Shorter s) :=
  match s with
  | [] => none
  | c :: r =>
      if c = '\\' then
        (escape? r).map fun (k, d, ⟨rest, h⟩) => (k, d, ⟨rest, Text.lt_length_cons_of_lt _ h⟩)
      else some (.single c, some c, ⟨r, Text.length_lt_cons _ r⟩)

/-- Whether a range may continue here: a hyphen that neither ends the class nor begins an
operator. -/
def continuesRange : List Char → Bool
  | '-' :: c :: _ => c != ']' && c != '-'
  | _ => false

/-- A range, a character or a class within brackets. -/
def range? (s : List Char) : Option (CharClass × Shorter s) :=
  match member? s with
  | none => none
  | some (k, first, ⟨r, h⟩) =>
      if continuesRange r then
        match member? (r.drop 1) with
        | none => none
        | some (_, last, ⟨r', h'⟩) =>
            match first, last with
            | some a, some b =>
                if b < a then none
                else some (.range a b, ⟨r', by simp only [List.length_drop] at h'; omega⟩)
            | _, _ => none
      else some (k, ⟨r, h⟩)

/-- The classes with names. -/
def named? (name : String) : Option CharClass :=
  let lower := range 'a' 'z'
  let upper := range 'A' 'Z'
  let numeral := range '0' '9'
  let punctuation :=
    union (range '!' '/')
      (union (range ':' '@') (union (range '[' (Char.ofNat 96)) (range '{' '~')))
  match name with
  | "alnum" => some (union numeral (union upper lower))
  | "alpha" => some (union upper lower)
  | "ascii" => some (range '\x00' '\x7f')
  | "blank" => some (union (single '\t') (single ' '))
  | "cntrl" => some (union (range '\x00' '\x1f') (single '\x7f'))
  | "digit" => some numeral
  | "graph" => some (range '!' '~')
  | "lower" => some lower
  | "print" => some (range ' ' '~')
  | "punct" => some punctuation
  | "space" => some (union (range '\t' '\r') (single ' '))
  | "upper" => some upper
  | "word" => some (union (union numeral (union upper lower)) (single '_'))
  | "xdigit" => some (union numeral (union (range 'a' 'f') (range 'A' 'F')))
  | _ => none

/-- The complement mark at the front of a class. -/
def complementMark (s : List Char) : Bool × List Char :=
  match s with
  | '^' :: r => (true, r)
  | _ => (false, s)

theorem length_complementMark_le (s : List Char) : (complementMark s).2.length ≤ s.length := by
  unfold complementMark
  split <;> simp

/-- A class with a name, behind the opening bracket of `[:name:]`. -/
def namedClass? (s : List Char) : Option (CharClass × Shorter s) :=
  match s with
  | ':' :: r =>
      match h : (complementMark r).2.dropWhile (· != ':') with
      | ':' :: ']' :: rest =>
          let name := String.ofList ((complementMark r).2.takeWhile (· != ':'))
          (named? name).map fun k =>
            (if (complementMark r).1 then negated k else k, ⟨rest, by
              have h1 := length_complementMark_le r
              have h2 := Text.length_lt_of_dropWhile h
              simp only [List.length_cons] at *
              omega⟩)
      | _ => none
  | _ => none

/-- What two classes within brackets are joined by. -/
inductive Operator where
  | inter
  | minus
  | differ

/-- The class of two classes and an operator. -/
def Operator.apply (a b : CharClass) : Operator → CharClass
  | .inter => .inter a b
  | .minus => .inter a (.negated b)
  | .differ => .union (.inter a (.negated b)) (.inter b (.negated a))

/-- A class with the operator and the class in front of it. -/
def complete (left : Option (CharClass × Operator)) (k : CharClass) : CharClass :=
  match left with
  | none => k
  | some (a, o) => o.apply a k

/-- The operator at the front of a text. -/
def operator? : List Char → Option Operator
  | '&' :: '&' :: _ => some .inter
  | '-' :: '-' :: _ => some .minus
  | '~' :: '~' :: _ => some .differ
  | _ => none

/-- The hyphens, or the closing bracket, that stand for themselves where a class begins. -/
def leading (s : List Char) : CharClass × List Char :=
  match s with
  | '-' :: _ => (.single '-', s.dropWhile (· == '-'))
  | ']' :: r => (.single ']', r)
  | _ => (.nothing, s)

theorem length_leading_le (s : List Char) : (leading s).2.length ≤ s.length := by
  unfold leading
  split
  · exact Text.length_dropWhile_le _ _
  · simp
  · exact Nat.le_refl _

mutual

/-- A class in brackets, behind the opening one. -/
def bracketed? (s : List Char) : Option (CharClass × Shorter s) :=
  match members? (leading (complementMark s).2).2 none (leading (complementMark s).2).1 with
  | none => none
  | some (k, ⟨r, h⟩) =>
      some (if (complementMark s).1 then negated k else k, ⟨r, by
        have h1 := length_complementMark_le s
        have h2 := length_leading_le (complementMark s).2
        omega⟩)
termination_by (s.length, 1)
decreasing_by
  have h1 := length_complementMark_le s
  have h2 := length_leading_le (complementMark s).2
  simp only [Prod.lex_def]
  omega

/-- The members of a class up to its closing bracket: `k` holds those read since the last
operator, and `left` what stands in front of that. -/
def members? (s : List Char) (left : Option (CharClass × Operator)) (k : CharClass) :
    Option (CharClass × Shorter s) :=
  match s with
  | [] => none
  | c :: r =>
      if c = ']' then some (complete left k, ⟨r, Text.length_lt_cons _ r⟩)
      else if c = '[' then
        match namedClass? r with
        | some (k', ⟨r', h⟩) =>
            match members? r' left (.union k k') with
            | none => none
            | some (k, ⟨rest, h'⟩) => some (k, ⟨rest, by simp only [List.length_cons]; omega⟩)
        | none =>
            match bracketed? r with
            | none => none
            | some (k', ⟨r', h⟩) =>
                match members? r' left (.union k k') with
                | none => none
                | some (k, ⟨rest, h'⟩) => some (k, ⟨rest, by simp only [List.length_cons]; omega⟩)
      else
        match operator? (c :: r) with
        | some o =>
            match members? (r.drop 1) (some (complete left k, o)) .nothing with
            | none => none
            | some (k, ⟨rest, h⟩) =>
                some (k, ⟨rest, by simp only [List.length_drop, List.length_cons] at *; omega⟩)
        | none =>
            match range? (c :: r) with
            | none => none
            | some (k', ⟨r', h⟩) =>
                match members? r' left (.union k k') with
                | none => none
                | some (k, ⟨rest, h'⟩) => some (k, ⟨rest, Nat.lt_trans h' h⟩)
termination_by (s.length, 0)
decreasing_by
  all_goals simp only [Prod.lex_def, List.length_cons, List.length_drop] at *
  all_goals omega

end

end CharClass

end Warrant
