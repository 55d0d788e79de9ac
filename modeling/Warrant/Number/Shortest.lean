import Warrant.Number.Binary64

/-!
# Shortest decimal digits

`Binary64.shortest` gives the decimal with the fewest digits that reads back as the number, and
of several such decimals the nearest.  For each count of digits only the two neighbours of the
number on the grid of that many digits are tried: no other decimal of that length is nearer.

**Results.**
* `toBinary64?_of_candidate`: a decimal offered for some count of digits reads back.
-/

namespace Warrant
namespace Binary64

/-- A number `m` of units is at least `10 ^ k`. -/
def atLeastPow10 (m : Nat) (k : Int) : Bool :=
  match k with
  | .ofNat e => decide (Nat.pow 10 e * unitsPerOne ≤ m)
  | .negSucc e => decide (unitsPerOne ≤ m * Nat.pow 10 (e + 1))

/-- The largest `k` with `10 ^ k` at most `m` units.  The start is a lower bound from the number
of bits; it is at most one short. -/
def decimalExponent (m : Nat) : Int :=
  let guess := ((m.log2 : Int) - 1074) * 30103 / 100000 - 1
  let k := if atLeastPow10 m (guess + 1) then guess + 1 else guess
  let k := if atLeastPow10 m (k + 1) then k + 1 else k
  if atLeastPow10 m (k + 1) then k + 1 else k

/-- The quotient and the remainder of `m` units by `10 ^ k`, with the divisor used. -/
def splitAtPow10 (m : Nat) (k : Int) : Nat × Nat × Nat :=
  match k with
  | .ofNat e =>
      let unit := Nat.pow 10 e * unitsPerOne
      (m / unit, m % unit, unit)
  | .negSucc e =>
      let scaled := m * Nat.pow 10 (e + 1)
      (scaled / unitsPerOne, scaled % unitsPerOne, unitsPerOne)

/-- The two neighbours of the number on the grid of multiples of `10 ^ k`, the nearer one first.
An exact tie goes to the even neighbour. -/
def neighbours (x : Binary64) (k : Int) : List Decimal :=
  let (low, rest, unit) := splitAtPow10 x.magnitude k
  let below : Decimal := ⟨x.negative, low, k⟩
  let above : Decimal := ⟨x.negative, low + 1, k⟩
  if 2 * rest < unit || (2 * rest == unit && low % 2 == 0) then [below, above] else [above, below]

/-- The nearer of the two neighbours that reads back as the number. -/
def candidate? (x : Binary64) (k : Int) : Option Decimal :=
  (x.neighbours k).find? fun d => d.toBinary64? == some x

/-- The exact decimal value. -/
def exactDecimal (x : Binary64) : Decimal :=
  ⟨x.negative, x.magnitude * Nat.pow 5 1074, -1074⟩

/-- The shortest decimal that reads back as the number. -/
def shortest (x : Binary64) : Decimal :=
  if x.magnitude = 0 then ⟨x.negative, 0, 0⟩
  else
    let top := decimalExponent x.magnitude
    let found := (List.range 17).findSome? fun i : Nat => x.candidate? (top - i)
    (found.getD x.exactDecimal).normalize

theorem toBinary64?_of_candidate {x : Binary64} {k : Int} {d : Decimal}
    (h : x.candidate? k = some d) : d.toBinary64? = some x := by
  have := List.find?_some h
  simpa using this

end Binary64
end Warrant
