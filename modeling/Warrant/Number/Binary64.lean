import Warrant.Number.Decimal

/-!
# Finite binary64 numbers

Every finite binary64 number is a whole multiple of `2 ^ -1074`, so it is represented by that
multiple: a sign and a magnitude with at most 53 significant bits.  Comparison is comparison of
integers, and rounding is one rule, `roundQuotient`, on quotients of natural numbers.

**Results.**
* `toBinary64?_mul_ten`: which number is nearest does not depend on trailing zeros.
-/

namespace Warrant

/-- Rounds `num / den` to the nearest natural number with at most 53 significant bits; of two
equally near ones the one with an even significand is taken. -/
def roundQuotient (num den : Nat) : Nat :=
  let shift := (num / den).log2 - 52
  let step := den * Nat.pow 2 shift
  let low := num / step
  let rest := num % step
  let significand :=
    if 2 * rest < step then low
    else if step < 2 * rest then low + 1
    else low + low % 2
  significand * Nat.pow 2 shift

/-- How many units of `2 ^ -1074` make one. -/
def unitsPerOne : Nat :=
  Nat.pow 2 1074

/-- The least power of two beyond every binary64 number, in units of `2 ^ -1074`. -/
def overflowUnits : Nat :=
  Nat.pow 2 2098

/-- The multiples of `2 ^ -1074` that binary64 holds: 53 significant bits, and less than
`2 ^ 1024` in value. -/
def FitsBinary64 (m : Nat) : Prop :=
  m < overflowUnits ∧ m % Nat.pow 2 (m.log2 - 52) = 0

instance (m : Nat) : Decidable (FitsBinary64 m) :=
  inferInstanceAs (Decidable (_ ∧ _))

/-- A finite binary64 number, in units of `2 ^ -1074`. -/
structure Binary64 where
  negative : Bool
  magnitude : Nat
  fits : FitsBinary64 magnitude
deriving DecidableEq

namespace Binary64

/-- Positive or negative zero. -/
def zero (negative : Bool) : Binary64 :=
  ⟨negative, 0, by decide +kernel⟩

instance : Inhabited Binary64 :=
  ⟨zero false⟩

/-- The value in units of `2 ^ -1074`. -/
def units (x : Binary64) : Int :=
  if x.negative then -(x.magnitude : Int) else x.magnitude

/-- The number nearest to `num / den` units, if that is not out of range. -/
def ofQuotient? (negative : Bool) (num den : Nat) : Option Binary64 :=
  if h : FitsBinary64 (roundQuotient num den) then
    some ⟨negative, roundQuotient num den, h⟩
  else
    none

/-- The same number with the opposite sign. -/
def neg (x : Binary64) : Binary64 :=
  ⟨!x.negative, x.magnitude, x.fits⟩

/-- The value, in units of `2 ^ -1074`, of the number nearest to a whole number. -/
def nearestUnits (n : Int) : Int :=
  n.sign * roundQuotient (n.natAbs * unitsPerOne) 1

end Binary64

/-- The binary64 number nearest to a decimal without trailing zeros, if that is not out of range.
Exponents beyond any binary64 number are answered without computing the power of ten. -/
def Decimal.nearest? (d : Decimal) : Option Binary64 :=
  if d.digits = 0 then some (Binary64.zero d.negative)
  else if 400 < d.exponent then none
  else if d.exponent < -(401 + d.digits.log2 : Int) then some (Binary64.zero d.negative)
  else
    match d.exponent with
    | .ofNat e => Binary64.ofQuotient? d.negative (d.digits * Nat.pow 10 e * unitsPerOne) 1
    | .negSucc e => Binary64.ofQuotient? d.negative (d.digits * unitsPerOne) (Nat.pow 10 (e + 1))

/-- The binary64 number nearest to a decimal, if that is not out of range. -/
def Decimal.toBinary64? (d : Decimal) : Option Binary64 :=
  d.normalize.nearest?

/-- The binary64 number nearest to the value of a numeral. -/
def Binary64.ofNumeral? (numeral : List Char) : Option Binary64 :=
  (Decimal.read? numeral).bind Decimal.toBinary64?

theorem Decimal.toBinary64?_mul_ten (negative : Bool) (digits : Nat) (exponent : Int) :
    toBinary64? ⟨negative, 10 * digits, exponent⟩ =
      toBinary64? ⟨negative, digits, exponent + 1⟩ := by
  simp [toBinary64?, normalize_mul_ten]

end Warrant
