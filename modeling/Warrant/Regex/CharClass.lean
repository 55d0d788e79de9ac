import Warrant.Text.Blank
import Warrant.Text.Word

/-!
# Classes of characters

The sets of characters that a pattern can ask for: ranges, the digits, blanks and word characters
of Unicode, and what is built of these by union, intersection and complement.  Without regard to
case a class also holds every character that has a case variant in it; a complement is taken
after that.
-/

namespace Warrant

/-- A set of characters. -/
inductive CharClass where
  | range (first last : Char)
  | digit
  | blank
  | word
  | nothing
  | negated (k : CharClass)
  | union (a b : CharClass)
  | inter (a b : CharClass)
deriving DecidableEq, Inhabited

namespace CharClass

/-- The set of one character. -/
def single (c : Char) : CharClass :=
  .range c c

/-- Whether a set that is not built of others holds a character, if need be without regard to
case. -/
def holdsVariant (ignoreCase : Bool) (test : Char → Bool) (c : Char) : Bool :=
  if ignoreCase then (c :: Text.caseVariants c).any test else test c

/-- Whether the set holds a character. -/
def holds (ignoreCase : Bool) : CharClass → Char → Bool
  | .range first last, c => holdsVariant ignoreCase (fun d => first ≤ d && d ≤ last) c
  | .digit, c => Text.isDecimalDigit c
  | .blank, c => Text.isBlank c
  | .word, c => Text.isWord c
  | .nothing, _ => false
  | .negated k, c => !k.holds ignoreCase c
  | .union a b, c => a.holds ignoreCase c || b.holds ignoreCase c
  | .inter a b, c => a.holds ignoreCase c && b.holds ignoreCase c

/-- What the set adds to the size of an expression: a complement holds characters of every length
in bytes. -/
def weight : CharClass → Nat
  | .negated _ => 9
  | _ => 1

end CharClass
end Warrant
