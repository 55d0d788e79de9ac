import Warrant.Expression.Eval
import Warrant.Languages

/-!
# A store of compiled expressions

An engine keeps the expressions that it has compiled under their exact texts, so that a text is
read once.  A text that is no expression is not kept.  What an engine does does not depend on the
language of the expressions: an interpreter says how a text is read and what it asks of a context.
-/

namespace Warrant
namespace Expression

/-- The language of this library. -/
def standard : Interpreter where
  Program := Expr
  Fault := Error
  compile := Expression.compile
  holds := Expression.holds

/-- The compiled expressions under their texts. -/
structure Engine (i : Interpreter := standard) where
  programs : List (String × i.Program) := []

namespace Engine

variable {i : Interpreter}

/-- The number of expressions that are kept. -/
def size (g : Engine i) : Nat :=
  g.programs.length

/-- The engine without any expressions. -/
def clear (_ : Engine i) : Engine i :=
  {}

/-- The expression of a text, and the engine that keeps it. -/
def compile (g : Engine i) (text : String) : Except i.Fault i.Program × Engine i :=
  match g.programs.lookup text with
  | some e => (.ok e, g)
  | none =>
      match i.compile text with
      | .ok e => (.ok e, { programs := g.programs ++ [(text, e)] })
      | .error fault => (.error fault, g)

/-- Whether the expression of a text holds in a context, and the engine that keeps it. -/
def test (g : Engine i) (text : String) (context : Json) : Except i.Fault Bool × Engine i :=
  match g.compile text with
  | (.ok e, g') => (i.holds e context, g')
  | (.error fault, g') => (.error fault, g')

end Engine
end Expression
end Warrant
