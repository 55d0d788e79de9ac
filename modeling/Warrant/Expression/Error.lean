/-!
# Faults of expressions

Why an expression has no value, and why it is no condition.  A missing attribute is told apart
from the other causes, because the function `has` asks for it.
-/

namespace Warrant
namespace Expression

/-- Why an expression has no value. -/
inductive EvalError where
  | unknownName (name : String)
  | missingAttribute (name : String)
  | notComparable
  | wrongOperand
  | wrongArgument
  | wrongIndex
  | outOfRange
deriving DecidableEq

/-- Why an expression is no condition that holds or fails. -/
inductive Error where
  | notReadable
  | noValue (cause : EvalError)
  | notBoolean
deriving DecidableEq

/-- The wording of an evaluation fault. -/
def EvalError.message : EvalError → String
  | .unknownName name => "unknown name '" ++ name ++ "'"
  | .missingAttribute name => "missing attribute '" ++ name ++ "'"
  | .notComparable => "values are not comparable"
  | .wrongOperand => "operator does not take these operands"
  | .wrongArgument => "function does not take these arguments"
  | .wrongIndex => "value does not take this index"
  | .outOfRange => "number out of range"

/-- The wording of a fault. -/
def Error.message : Error → String
  | .notReadable => "Expression does not compile"
  | .noValue cause => "Expression has no value: " ++ cause.message
  | .notBoolean => "Expression did not return boolean result"

end Expression
end Warrant
