import Warrant.Number.Extended

/-!
# Tokens of expressions

The words that an expression is made of.  Numerals and texts carry their values.
-/

namespace Warrant
namespace Expression

/-- A token.  The marks are the operators, the brackets and the reserved words. -/
inductive Token where
  | int (n : Int)
  | uint (n : Nat)
  | float (x : Extended)
  | text (s : String)
  | name (s : String)
  | mark (s : String)
deriving DecidableEq

/-- Whether a name may begin with a character. -/
def startsName (c : Char) : Bool :=
  c == '_' || ('a' ≤ c && c ≤ 'z') || ('A' ≤ c && c ≤ 'Z')

/-- Whether a character may stand in a name. -/
def inName (c : Char) : Bool :=
  startsName c || Decimal.isDigit c

/-- The words that are no names. -/
def reservedWords : List String :=
  ["true", "false", "null", "in"]

/-- The operators and brackets; of two that fit the longer one stands first. -/
def marks : List String :=
  ["||", "&&", "<=", ">=", "==", "!=", "!!", "--", "<", ">", "!", "-", "+", "*", "/", "%", "?",
    ":", ".", ",", "(", ")", "[", "]", "\x7b", "\x7d"]

end Expression
end Warrant
