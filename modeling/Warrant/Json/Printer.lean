import Warrant.Json.Basic
import Warrant.Number.Layout

/-!
# Compact text of data values

The text has no blanks.  Strings stand between double quotes; the quote, the backslash and the
control characters are escaped, everything else stands as it is.
-/

namespace Warrant

/-- The text of an integer. -/
def Integer.text (n : Integer) : List Char :=
  Decimal.signText (n.val < 0) ++ Decimal.digitsOf n.val.natAbs

/-- The text of a number. -/
def Number.text : Number → List Char
  | .integer n => n.text
  | .float x => x.text

namespace Json

/-- The two lowercase hexadecimal digits of a number below 256. -/
def hexPair (n : Nat) : List Char :=
  [Nat.digitChar (n / 16), Nat.digitChar (n % 16)]

/-- A character within a string. -/
def escapeChar (c : Char) : List Char :=
  if c = '"' then ['\\', '"']
  else if c = '\\' then ['\\', '\\']
  else if c = '\x08' then ['\\', 'b']
  else if c = '\x0c' then ['\\', 'f']
  else if c = '\n' then ['\\', 'n']
  else if c = '\r' then ['\\', 'r']
  else if c = '\t' then ['\\', 't']
  else if c.toNat < 32 then ['\\', 'u', '0', '0'] ++ hexPair c.toNat
  else [c]

/-- A string between double quotes. -/
def stringText (s : String) : List Char :=
  '"' :: s.toList.flatMap escapeChar ++ ['"']

mutual

/-- The compact text of a value. -/
def text : Json → List Char
  | .null => ['n', 'u', 'l', 'l']
  | .bool true => ['t', 'r', 'u', 'e']
  | .bool false => ['f', 'a', 'l', 's', 'e']
  | .number n => n.text
  | .string s => stringText s
  | .array [] => ['[', ']']
  | .array (v :: rest) => '[' :: text v ++ itemsText rest ++ [']']
  | .object [] => ['{', '}']
  | .object ((k, v) :: rest) =>
      '{' :: stringText k ++ ':' :: text v ++ entriesText rest ++ ['}']

/-- The items after the first, each behind a comma. -/
def itemsText : List Json → List Char
  | [] => []
  | v :: rest => ',' :: text v ++ itemsText rest

/-- The entries after the first, each behind a comma. -/
def entriesText : List (String × Json) → List Char
  | [] => []
  | (k, v) :: rest => ',' :: stringText k ++ ':' :: text v ++ entriesText rest

end

/-- The compact text of a value. -/
def print (v : Json) : String :=
  String.ofList v.text

end Json
end Warrant
