import Warrant.Text.Lowercase
import Warrant.Text.PrintableTable
import Warrant.Text.WordTable

/-!
# Word characters, case folding and quoted text

What pattern matching asks of a character: whether it is part of a word, whether it is a decimal
digit, and which characters agree with it when case is ignored.  Also the quoted form of a text
in messages, where characters without a shape of their own stand as code points.
-/

namespace Warrant
namespace Text

/-- Whether a character counts as part of a word. -/
def isWord (c : Char) : Bool :=
  inRanges wordRanges c

/-- Whether a character is a decimal digit of any script. -/
def isDecimalDigit (c : Char) : Bool :=
  inRanges digitRanges c

/-- The simple case fold of a character: characters agree without regard to case if and only if
their folds are equal. -/
def foldChar (c : Char) : Char :=
  match foldExceptions.lookup c.toNat with
  | some n => Char.ofNat n
  | none => lowerChar c

/-- All characters with the case fold of the given one. -/
def caseVariants (c : Char) : List Char :=
  let target := (foldChar c).toNat
  let raised := lowerRuns.filterMap fun r =>
    let n := Int.toNat (target - r.shift)
    if r.covers n && (n : Int) + r.shift == target then some (Char.ofNat n) else none
  let excepted := foldExceptions.filterMap fun (n, t) =>
    if t = target then some (Char.ofNat n) else none
  (foldChar c :: raised ++ excepted).filter fun d => foldChar d == foldChar c

/-- The lowercase hexadecimal digits of a number. -/
def hexDigits (n : Nat) : List Char :=
  Nat.toDigits 16 n

/-- A character of a quoted text. -/
def quotedChar (c : Char) : List Char :=
  if c = '"' then ['\\', '"']
  else if c = '\\' then ['\\', '\\']
  else if c = '\n' then ['\\', 'n']
  else if c = '\r' then ['\\', 'r']
  else if c = '\t' then ['\\', 't']
  else if c = '\x00' then ['\\', '0']
  else if inRanges shapelessRanges c then ['\\', 'u', '{'] ++ hexDigits c.toNat ++ ['}']
  else [c]

/-- A text between double quotes, as messages show it. -/
def quoted (s : String) : String :=
  String.ofList ('"' :: s.toList.flatMap quotedChar ++ ['"'])

end Text
end Warrant
