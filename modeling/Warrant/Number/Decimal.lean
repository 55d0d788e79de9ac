/-!
# Decimal numerals

A decimal is a sign, a whole number of digits and a power of ten.  `Decimal.read?` reads the
numeral forms `5`, `5.`, `.5` and `5.5`, each with an optional sign in front and an optional
exponent behind; `readInteger?` reads an optional minus sign and digits.

A number has many decimals, which differ in trailing zeros; `normalize` picks the one without
them.

**Results.**
* `normalize_mul_ten`: a trailing zero may be moved into the exponent.
-/

namespace Warrant

/-- The number `digits · 10 ^ exponent`, with its sign kept apart so that zero has one too. -/
structure Decimal where
  negative : Bool
  digits : Nat
  exponent : Int
deriving DecidableEq

namespace Decimal

/-- Whether a character is one of the ten ASCII digits. -/
def isDigit (c : Char) : Bool :=
  decide ('0' ≤ c) && decide (c ≤ '9')

/-- The value of a digit. -/
def digitValue (c : Char) : Nat :=
  c.toNat - '0'.toNat

/-- The whole number written by a list of digits. -/
def wholeNumber (s : List Char) : Nat :=
  s.foldl (fun n c => 10 * n + digitValue c) 0

/-- The optional sign in front of a numeral, and what follows it. -/
def splitSign : List Char → Bool × List Char
  | '-' :: r => (true, r)
  | '+' :: r => (false, r)
  | s => (false, s)

/-- The digits after an optional decimal point, and what follows them. -/
def splitFraction : List Char → List Char × List Char
  | '.' :: r => (r.takeWhile isDigit, r.dropWhile isDigit)
  | s => ([], s)

/-- The exponent that ends a numeral: nothing, or `e` and a signed whole number. -/
def readExponent? : List Char → Option Int
  | [] => some 0
  | c :: r =>
      if c = 'e' ∨ c = 'E' then
        let (negative, digits) := splitSign r
        if digits.isEmpty || !digits.all isDigit then none
        else some (if negative then -(wholeNumber digits : Int) else wholeNumber digits)
      else none

/-- Reads a numeral.  At least one digit stands before or after the point. -/
def read? (s : List Char) : Option Decimal :=
  let (negative, unsigned) := splitSign s
  let whole := unsigned.takeWhile isDigit
  let (fraction, tail) := splitFraction (unsigned.dropWhile isDigit)
  if whole.isEmpty && fraction.isEmpty then none
  else
    (readExponent? tail).map fun e =>
      ⟨negative, wholeNumber (whole ++ fraction), e - fraction.length⟩

/-- Reads an optional minus sign and at least one digit. -/
def readInteger? (s : List Char) : Option Int :=
  match s with
  | '-' :: digits =>
      if digits.isEmpty || !digits.all isDigit then none else some (-(wholeNumber digits : Int))
  | digits =>
      if digits.isEmpty || !digits.all isDigit then none else some (wholeNumber digits)

/-- The decimal of the same value without trailing zeros; zero has exponent zero. -/
def normalize (d : Decimal) : Decimal :=
  if d.digits = 0 then ⟨d.negative, 0, 0⟩
  else if d.digits % 10 = 0 then normalize ⟨d.negative, d.digits / 10, d.exponent + 1⟩
  else d
termination_by d.digits
decreasing_by exact Nat.div_lt_self (Nat.pos_of_ne_zero ‹_›) (by decide)

/-- A trailing zero may be moved into the exponent. -/
theorem normalize_mul_ten (negative : Bool) (digits : Nat) (exponent : Int) :
    normalize ⟨negative, 10 * digits, exponent⟩ = normalize ⟨negative, digits, exponent + 1⟩ := by
  by_cases h : digits = 0
  · subst h; simp [normalize]
  · have h' : 10 * digits ≠ 0 := by omega
    rw [normalize]
    simp [h']

end Decimal
end Warrant
