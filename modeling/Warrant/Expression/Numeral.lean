import Warrant.Expression.Token
import Warrant.Number.Bounds
import Warrant.Number.Hexadecimal

/-!
# Numerals of expressions

Whole numerals are decimal or hexadecimal, with a `u` behind those without a sign; fractional
ones have a point or an exponent.  A numeral includes a minus sign in front of it, a fractional
one also a plus sign.  Of several numerals that a text begins with the longest counts.
-/

namespace Warrant
namespace Expression

/-- How many characters at the front of a text pass a test. -/
def runLength (p : Char → Bool) (s : List Char) : Nat :=
  (s.takeWhile p).length

/-- The length of a sign that is among the given ones. -/
def signLength (signs : List Char) (s : List Char) : Nat :=
  if s.head?.any signs.contains then 1 else 0

/-- The length of a run of digits. -/
def digitsLength (s : List Char) : Nat :=
  runLength Decimal.isDigit s

/-- The length of an exponent with its letter, or zero. -/
def exponentLength (s : List Char) : Nat :=
  match s with
  | c :: r =>
      if c = 'e' ∨ c = 'E' then
        let sign := signLength ['-', '+'] r
        let digits := digitsLength (r.drop sign)
        if digits = 0 then 0 else 1 + sign + digits
      else 0
  | [] => 0

/-- The length of a fractional numeral: one with a point and digits behind it, or with an
exponent; or zero. -/
def floatLength (s : List Char) : Nat :=
  let sign := signLength ['-', '+'] s
  let whole := digitsLength (s.drop sign)
  let front := sign + whole
  match s.drop front with
  | '.' :: r =>
      let fraction := digitsLength r
      if fraction = 0 then 0
      else front + 1 + fraction + exponentLength (r.drop fraction)
  | r =>
      let exponent := exponentLength r
      if whole = 0 ∨ exponent = 0 then 0 else front + exponent

/-- The length of a hexadecimal numeral without a suffix, or zero. -/
def hexLength (s : List Char) : Nat :=
  let sign := signLength ['-'] s
  match s.drop sign with
  | '0' :: x :: r =>
      let digits := runLength (fun c => (hexDigit? c).isSome) r
      if (x = 'x' ∨ x = 'X') ∧ digits ≠ 0 then sign + 2 + digits else 0
  | _ => 0

/-- The length of a whole numeral without a suffix, or zero. -/
def wholeLength (s : List Char) : Nat :=
  let sign := signLength ['-'] s
  let digits := digitsLength (s.drop sign)
  if digits = 0 then 0 else sign + digits

/-- A number of 64 bits with a sign. -/
def signed? (n : Int) : Option Token :=
  if FitsSigned n then some (.int n) else none

/-- A number of 64 bits without a sign. -/
def unsigned? (n : Int) : Option Token :=
  if FitsUnsigned n then some (.uint n.toNat) else none

/-- The value of a numeral of whole digits, decimal or hexadecimal. -/
def wholeValue? (numeral : List Char) : Option Int :=
  let (negative, unsigned) := Decimal.splitSign numeral
  let magnitude := match unsigned with
    | '0' :: 'x' :: digits => hexNumber? digits
    | '0' :: 'X' :: digits => hexNumber? digits
    | digits => some (Decimal.wholeNumber digits)
  magnitude.map fun n => if negative then -(n : Int) else n

/-- Whether a numeral ends with the mark of unsigned numbers. -/
def hasUnsignedMark (s : List Char) : Bool :=
  s.head? == some 'u' || s.head? == some 'U'

/-- The numeral at the front of a text and its length, if one is there.  The inner option is
empty for a number that is out of range. -/
def numeralAt? (s : List Char) : Option (Option Token × Nat) :=
  let float := floatLength s
  let whole := max (hexLength s) (wholeLength s)
  let value := wholeValue? (s.take whole)
  let suffix := if whole ≠ 0 ∧ hasUnsignedMark (s.drop whole) then 1 else 0
  if float = 0 ∧ whole = 0 then none
  else if whole + suffix < float then some ((Extended.read? (s.take float)).map .float, float)
  else if suffix = 1 then some (value.bind unsigned?, whole + 1)
  else some (value.bind signed?, whole)

end Expression
end Warrant
