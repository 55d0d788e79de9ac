import Warrant.Number.Extended

/-!
# Expressions

The form of the expressions that conditions may hold: literals, variables, lists, maps, access to
attributes and items, calls of functions and methods, operators and choices.
-/

namespace Warrant

/-- What stands in front of an operand. -/
inductive UnaryOp where
  | not
  | truth
  | minus
  | keep
deriving DecidableEq

/-- What stands between two operands. -/
inductive BinaryOp where
  | or
  | and
  | less
  | lessEqual
  | greater
  | greaterEqual
  | equal
  | notEqual
  | within
  | add
  | subtract
  | multiply
  | divide
  | remainder
deriving DecidableEq

/-- An expression. -/
inductive Expr where
  | null
  | bool (b : Bool)
  | int (n : Int)
  | uint (n : Nat)
  | float (x : Extended)
  | text (s : String)
  | variable (name : String)
  | list (items : List Expr)
  | map (entries : List (Expr × Expr))
  | field (target : Expr) (name : String)
  | item (target index : Expr)
  | call (function : String) (arguments : List Expr)
  | method (target : Expr) (function : String) (arguments : List Expr)
  | unary (op : UnaryOp) (a : Expr)
  | binary (op : BinaryOp) (a b : Expr)
  | choice (condition a b : Expr)
deriving Inhabited

end Warrant
