import Warrant.Json.Printer
import Warrant.Literal.Parser

/-!
# Writing object literals

The written form has no blanks and no trailing commas.  Keys that are identifiers stand bare,
other keys and all strings between double quotes, and scalars as in strict data texts.
-/

namespace Warrant
namespace Literal

/-- A key: bare if it is an identifier. -/
def keyText (k : String) : List Char :=
  if isIdentifier k.toList then k.toList else Json.stringText k

mutual

/-- The written form of a value. -/
def write : Json → List Char
  | .null => ['n', 'u', 'l', 'l']
  | .bool true => ['t', 'r', 'u', 'e']
  | .bool false => ['f', 'a', 'l', 's', 'e']
  | .number n => n.text
  | .string s => Json.stringText s
  | .array [] => ['[', ']']
  | .array (v :: rest) => '[' :: write v ++ writeItems rest ++ [']']
  | .object [] => ['{', '}']
  | .object ((k, v) :: rest) => '{' :: keyText k ++ ':' :: write v ++ writeEntries rest ++ ['}']

/-- The items after the first, each behind a comma. -/
def writeItems : List Json → List Char
  | [] => []
  | v :: rest => ',' :: write v ++ writeItems rest

/-- The entries after the first, each behind a comma. -/
def writeEntries : List (String × Json) → List Char
  | [] => []
  | (k, v) :: rest => ',' :: keyText k ++ ':' :: write v ++ writeEntries rest

end

/-- The written form of a value. -/
def format (v : Json) : String :=
  String.ofList (write v)

end Literal
end Warrant
