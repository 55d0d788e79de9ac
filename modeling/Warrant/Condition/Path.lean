import Warrant.Json.Basic
import Warrant.Number.Decimal

/-!
# Field paths

A path into a context is a text whose parts are separated by points.  A part names the entry of an
object, or by its number the item of a list.
-/

namespace Warrant
namespace Condition

/-- The separator between the parts of a path. -/
def pathSeparator : Char := '.'

/-- The parts of a path. -/
def pathParts (path : String) : List String :=
  (path.toList.splitOn pathSeparator).map String.ofList

/-- The number that a part of a path is: digits with an optional plus sign. -/
def indexOf? (part : String) : Option Nat :=
  let digits := match part.toList with
    | '+' :: r => r
    | r => r
  if digits.isEmpty || !digits.all Decimal.isDigit then none else some (Decimal.wholeNumber digits)

/-- The value one part further. -/
def step (v : Json) (part : String) : Option Json :=
  match v with
  | .object entries => Object.find? entries part
  | .array items => (indexOf? part).bind (items[·]?)
  | _ => none

/-- The value at the end of some parts. -/
def resolveParts (v : Json) (parts : List String) : Option Json :=
  parts.foldlM step v

/-- The value at the end of a path. -/
def resolve (context : Json) (path : String) : Option Json :=
  resolveParts context (pathParts path)

end Condition
end Warrant
