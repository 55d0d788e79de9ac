import Warrant.Expression.Engine
import Warrant.Json.Reader
import Warrant.Regex.Reader

/-!
# The languages of the command line

The patterns, expressions and numerals that a check is run with.  They are one choice: what is
proved of conditions and of checks holds for any other, and is stated for these in examples only.
-/

namespace Warrant

/-- The patterns and expressions of this library. -/
instance standardLanguages : Languages where
  patterns := Regex.standard
  expressions := Expression.standard
  wording := Expression.Error.message

/-- A numeral stands for the number nearest to its value. -/
instance Json.nearestFloats : Json.Floats where
  float? := Binary64.ofNumeral?

end Warrant
