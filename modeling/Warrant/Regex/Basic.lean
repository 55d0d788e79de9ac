import Warrant.Regex.CharClass

/-!
# Regular expressions

Regular expressions over characters, and whether one matches somewhere in a text.

The positions between the characters of a text are numbered from zero, and a set of positions is
a number whose bits say which are in it.  An expression takes the set of positions where matches
may begin to the set of those where they may end; repetition goes on until the set is stable, which
it is after as many rounds as there are positions.
-/

namespace Warrant

/-- What may be asked of a position. -/
inductive Anchor where
  | textStart
  | textEnd
  | lineStart
  | lineEnd
  | wordEdge
  | noWordEdge
deriving DecidableEq

/-- Whether there is a word character. -/
def Text.isWordAt (c : Option Char) : Bool :=
  c.any Text.isWord

/-- Whether an anchor allows the position between two neighbours. -/
def Anchor.allows : Anchor → Option Char → Option Char → Bool
  | .textStart, before, _ => before.isNone
  | .textEnd, _, after => after.isNone
  | .lineStart, before, _ => before.isNone || before == some '\n'
  | .lineEnd, _, after => after.isNone || after == some '\n'
  | .wordEdge, before, after => Text.isWordAt before != Text.isWordAt after
  | .noWordEdge, before, after => Text.isWordAt before == Text.isWordAt after

/-- A regular expression. -/
inductive Regex where
  | empty
  | char (ignoreCase : Bool) (k : CharClass)
  | anchor (a : Anchor)
  | sequence (a b : Regex)
  | alternative (a b : Regex)
  | repetition (a : Regex) (least : Nat) (most : Option Nat)
deriving DecidableEq, Inhabited

namespace Regex

/-- The positions in front of the characters that pass a test. -/
def positionsOf (test : Char → Bool) : List Char → Nat
  | [] => 0
  | c :: rest => (test c).toNat + 2 * positionsOf test rest

/-- The positions whose neighbours pass a test; at an end there is no neighbour. -/
def positionsBetween (test : Option Char → Option Char → Bool) (before : Option Char) :
    List Char → Nat
  | [] => (test before none).toNat
  | c :: rest => (test before (some c)).toNat + 2 * positionsBetween test (some c) rest

/-- The outcome of `n` rounds of a step, or of fewer if nothing changes any more. -/
def rounds (step : Nat → Nat) : Nat → Nat → Nat
  | 0, s => s
  | n + 1, s => if step s = s then s else rounds step n (step s)

/-- The positions where matches end that begin in a set of positions. -/
def ends (text : List Char) : Regex → Nat → Nat
  | .empty, s => s
  | .char ignoreCase k, s => 2 * (s &&& positionsOf (k.holds ignoreCase) text)
  | .anchor a, s => s &&& positionsBetween (Anchor.allows a) none text
  | .sequence a b, s => ends text b (ends text a s)
  | .alternative a b, s => ends text a s ||| ends text b s
  | .repetition a least most, s =>
      let further := match most with
        | none => text.length + 1
        | some m => min (m - least) (text.length + 1)
      rounds (fun t => t ||| ends text a t) further (rounds (ends text a) least s)

/-- Whether the expression matches somewhere in a text. -/
def matchesIn (r : Regex) (text : String) : Bool :=
  let positions := Nat.pow 2 (text.toList.length + 1) - 1
  ends text.toList r positions != 0

/-- The weight of the characters and anchors in the expression with all repetitions written out. -/
def size : Regex → Nat
  | .empty => 0
  | .char _ k => k.weight
  | .anchor _ => 1
  | .sequence a b => size a + size b
  | .alternative a b => size a + size b + 1
  | .repetition a least most => (size a + 1) * max 1 (most.getD least)

end Regex
end Warrant
