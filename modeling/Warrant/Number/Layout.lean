import Warrant.Number.Shortest

/-!
# Text of numbers

How a decimal is laid out: positionally, or as a significand with a power of ten.  Data texts,
and messages about data, write the powers from `10 ^ -5` to `10 ^ 15` positionally, always with a
digit after the point, and sign every exponent.  The text an expression makes of a number is
positional whatever its size, and a whole number has no point there.
-/

namespace Warrant
namespace Decimal

/-- The digits of a whole number. -/
def digitsOf (n : Nat) : List Char :=
  Nat.toDigits 10 n

/-- The minus sign of a negative number. -/
def signText (negative : Bool) : List Char :=
  if negative then ['-'] else []

/-- The digits with a decimal point after the first `point` of them, padded with zeros where
there are none; `wholeMark` follows when none is left behind the point. -/
def positional (digits : List Char) (point : Int) (wholeMark : List Char) : List Char :=
  if point ≤ 0 then
    ['0', '.'] ++ List.replicate (-point).toNat '0' ++ digits
  else if (digits.length : Int) ≤ point then
    digits ++ List.replicate (point - digits.length).toNat '0' ++ wholeMark
  else
    digits.take point.toNat ++ ['.'] ++ digits.drop point.toNat

/-- One digit, the others after a point, and a signed power of ten. -/
def scientific (digits : List Char) (exponent : Int) : List Char :=
  let fraction := match digits.drop 1 with
    | [] => []
    | rest => '.' :: rest
  let sign := if exponent < 0 then '-' else '+'
  digits.take 1 ++ fraction ++ ['e', sign] ++ digitsOf exponent.natAbs

end Decimal

namespace Binary64

/-- The text of a number in data. -/
def text (x : Binary64) : List Char :=
  let d := x.shortest
  let digits := Decimal.digitsOf d.digits
  let exponent := d.exponent + digits.length - 1
  Decimal.signText x.negative ++
    if -5 ≤ exponent ∧ exponent ≤ 15 then
      Decimal.positional digits (exponent + 1) ['.', '0']
    else
      Decimal.scientific digits exponent

/-- The positional text of a number, without a point when it is whole. -/
def plainText (x : Binary64) : List Char :=
  let d := x.shortest
  let digits := Decimal.digitsOf d.digits
  Decimal.signText x.negative ++
    Decimal.positional digits (d.exponent + digits.length) []

end Binary64
end Warrant
