import Warrant.Languages

/-!
# Faults of condition queries

Why a query neither holds nor fails: an operator that does not exist, an operand of the wrong
shape, or an expression without an answer, which has a fault of its own language.
-/

namespace Warrant
namespace Condition

/-- What an operand should have been. -/
inductive Operand where
  | list
  | listOfObjects
  | boolean
  | text
  | count
  | object
  | pattern
deriving DecidableEq

/-- The wording of what was expected. -/
def Operand.describe : Operand → String
  | .list => "an array"
  | .listOfObjects => "an array of objects"
  | .boolean => "a boolean"
  | .text => "a string"
  | .count => "a non-negative integer"
  | .object => "an object"
  | .pattern => "a regular expression"

variable [Languages]

/-- Why a query has no answer. -/
inductive QueryError where
  | unknownOperator (operator : String)
  | invalidOperand (operator : String) (expected : Operand)
  | expression (fault : Languages.expressions.Fault)

/-- The wording of a fault. -/
def QueryError.message : QueryError → String
  | .unknownOperator operator => "Unknown condition operator: " ++ operator
  | .invalidOperand operator expected =>
      "Invalid operand for " ++ operator ++ ": expected " ++ expected.describe
  | .expression fault => Languages.wording fault

end Condition
end Warrant
