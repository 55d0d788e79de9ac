import Warrant.Number.Layout

/-!
# Binary64 arithmetic

Binary64 numbers with the two infinities and the value that is no number.  Every operation
computes the exact result in whole units of `2 ^ -1074`, or as a quotient of such, and rounds it
once; what is out of range becomes infinite.
-/

namespace Warrant

/-- A binary64 number, an infinity, or no number. -/
inductive Extended where
  | finite (x : Binary64)
  | infinite (negative : Bool)
  | nan
deriving DecidableEq, Inhabited

namespace Extended

/-- The number nearest to a quotient of units, or an infinity. -/
def ofQuotient (negative : Bool) (num den : Nat) : Extended :=
  match Binary64.ofQuotient? negative num den with
  | some x => .finite x
  | none => .infinite negative

/-- The number nearest to a whole number of units; a zero has the given sign. -/
def ofUnits (zeroSign : Bool) (n : Int) : Extended :=
  ofQuotient (if n = 0 then zeroSign else n < 0) n.natAbs 1

/-- The number nearest to an integer. -/
def ofInt (n : Int) : Extended :=
  ofUnits false (n * unitsPerOne)

/-- Whether the sign bit is set. -/
def isNegative : Extended → Bool
  | .finite x => x.negative
  | .infinite negative => negative
  | .nan => false

/-- Whether the number is a zero of either sign. -/
def isZero : Extended → Bool
  | .finite x => x.magnitude == 0
  | _ => false

/-- The number with the opposite sign. -/
def neg : Extended → Extended
  | .finite x => .finite x.neg
  | .infinite negative => .infinite (!negative)
  | .nan => .nan

/-- The sum. -/
def add : Extended → Extended → Extended
  | .finite x, .finite y => ofUnits (x.negative && y.negative) (x.units + y.units)
  | .infinite a, .infinite b => if a = b then .infinite a else .nan
  | .infinite a, .finite _ => .infinite a
  | .finite _, .infinite b => .infinite b
  | _, _ => .nan

/-- The difference. -/
def sub (x y : Extended) : Extended :=
  x.add y.neg

/-- The product. -/
def mul (x y : Extended) : Extended :=
  let negative := x.isNegative != y.isNegative
  match x, y with
  | .finite a, .finite b => ofQuotient negative (a.magnitude * b.magnitude) unitsPerOne
  | .nan, _ => .nan
  | _, .nan => .nan
  | x, y => if x.isZero || y.isZero then .nan else .infinite negative

/-- The quotient. -/
def div (x y : Extended) : Extended :=
  let negative := x.isNegative != y.isNegative
  match x, y with
  | .finite a, .finite b =>
      if b.magnitude = 0 then if a.magnitude = 0 then .nan else .infinite negative
      else ofQuotient negative (a.magnitude * unitsPerOne) b.magnitude
  | .infinite _, .finite _ => .infinite negative
  | .finite _, .infinite _ => .finite (Binary64.zero negative)
  | _, _ => .nan

/-- The remainder of division toward zero; it has the sign of the first number. -/
def rem (x y : Extended) : Extended :=
  match x, y with
  | .finite a, .finite b =>
      if b.magnitude = 0 then .nan
      else ofQuotient a.negative (a.magnitude % b.magnitude) 1
  | .finite a, .infinite _ => .finite a
  | _, _ => .nan

/-- The order of two numbers; the two zeros are equal. -/
def compare? : Extended → Extended → Option Ordering
  | .finite x, .finite y => some (compare x.units y.units)
  | .infinite a, .infinite b => some (if a = b then .eq else if a then .lt else .gt)
  | .infinite a, .finite _ => some (if a then .lt else .gt)
  | .finite _, .infinite b => some (if b then .gt else .lt)
  | _, _ => none

/-- The whole number toward zero, within bounds.  Zero stands for no number, and nothing for a
number beyond the bounds; the upper bound itself counts as the greatest number below it. -/
def truncate? (lower upper : Int) : Extended → Option Int
  | .finite x =>
      if x.units < lower * unitsPerOne ∨ upper * unitsPerOne < x.units then none
      else some (min (x.units.tdiv unitsPerOne) (upper - 1))
  | .infinite _ => none
  | .nan => some 0

/-- The positional text of a number. -/
def plainText : Extended → String
  | .finite x => String.ofList x.plainText
  | .infinite negative => if negative then "-inf" else "inf"
  | .nan => "NaN"

/-- The number of a decimal numeral. -/
def ofDecimal (d : Decimal) : Extended :=
  match d.toBinary64? with
  | some x => .finite x
  | none => .infinite d.negative

/-- The values that are written as words, in lowercase. -/
def ofWord? (negative : Bool) (word : List Char) : Option Extended :=
  match String.ofList word with
  | "inf" => some (.infinite negative)
  | "infinity" => some (.infinite negative)
  | "nan" => some .nan
  | _ => none

/-- The number of a numeral or of a word with an optional sign. -/
def read? (s : List Char) : Option Extended :=
  match Decimal.read? s with
  | some d => some (ofDecimal d)
  | none =>
      let (negative, word) := Decimal.splitSign s
      ofWord? negative (word.map Char.toLower)

end Extended
end Warrant
