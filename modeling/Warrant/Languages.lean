import Warrant.Json.Basic

/-!
# Languages inside policies

Conditions hold texts in two other languages, patterns and expressions, and a scope is written as a
pattern to see whether there is one for it.  These languages are not part of the library: whatever
speaks about them takes them as they are.  All that is relied on is that they answer as functions
do, so that a text is always compiled alike and the same question has the same answer.
-/

namespace Warrant

/-- A language of patterns: what a text is compiled to, if need be without regard to case, and
whether that matches somewhere in a text. -/
structure Regex.Interpreter where
  Pattern : Type
  compile : Bool → String → Option Pattern
  matchesIn : Pattern → String → Bool

/-- A language of expressions: what a text is read as, and whether that holds in a context. -/
structure Expression.Interpreter where
  Program : Type
  Fault : Type
  compile : String → Except Fault Program
  holds : Program → Json → Except Fault Bool

/-- Whether the expression of a text holds in a context. -/
def Expression.Interpreter.test (i : Expression.Interpreter) (text : String) (context : Json) :
    Except i.Fault Bool := do
  i.holds (← i.compile text) context

/-- The two languages, and how the faults of expressions are worded. -/
class Languages where
  patterns : Regex.Interpreter
  expressions : Expression.Interpreter
  wording : expressions.Fault → String

end Warrant
