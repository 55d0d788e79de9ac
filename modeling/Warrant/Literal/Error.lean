import Warrant.Json.Decode

/-!
# Faults of object literals

Why a literal does not read, with the wording of each cause.  A reader reports where a fault lies
by the text that is left there; `Failure.locate` turns that into an offset in bytes.

**Results.**
* `byteSize_append`: the sizes of the parts of a text add up.
-/

namespace Warrant
namespace Literal

/-- Why a literal does not read. -/
inductive Cause where
  | trailing
  | expected (wanted : Char) (found : Option Char)
  | objectSeparator
  | arraySeparator
  | unterminatedObject
  | objectKey
  | unquoted (word : List Char)
  | unexpected (found : Char)
  | unexpectedEnd
  | badNumber (numeral : List Char)
  | unterminatedString
  | unterminatedEscape
  | truncatedUnicode
  | badUnicode
  | badCodePoint
deriving DecidableEq

/-- A cause and the text that is left where it was noticed. -/
structure Failure where
  cause : Cause
  rest : List Char
deriving DecidableEq

/-- A cause and the number of bytes in front of it. -/
structure Error where
  cause : Cause
  offset : Nat
deriving DecidableEq

/-- The number of bytes that a text takes in UTF-8. -/
def byteSize : List Char → Nat
  | [] => 0
  | c :: r => c.utf8Size + byteSize r

/-- Where a failure lies in the whole text. -/
def Failure.locate (text : List Char) (f : Failure) : Error :=
  ⟨f.cause, byteSize text - byteSize f.rest⟩

/-- A character between single quotes. -/
def shown (c : Char) : String :=
  "'" ++ String.ofList [c] ++ "'"

/-- The wording of a cause. -/
def Cause.message : Cause → String
  | .trailing => "unexpected trailing characters"
  | .expected wanted (some found) => "expected " ++ shown wanted ++ ", found " ++ shown found
  | .expected wanted none => "expected " ++ shown wanted ++ ", found end of input"
  | .objectSeparator => "expected ',' or '\x7d' in object"
  | .arraySeparator => "expected ',' or ']' in array"
  | .unterminatedObject => "unterminated object"
  | .objectKey => "expected an object key"
  | .unquoted word => "unquoted string value '" ++ String.ofList word ++ "'"
  | .unexpected found => "unexpected character " ++ shown found
  | .unexpectedEnd => "unexpected end of input"
  | .badNumber numeral => "invalid number '" ++ String.ofList numeral ++ "'"
  | .unterminatedString => "unterminated string"
  | .unterminatedEscape => "unterminated escape"
  | .truncatedUnicode => "truncated unicode escape"
  | .badUnicode => "invalid unicode escape"
  | .badCodePoint => "invalid unicode code point"

/-- The wording of an error with its place. -/
def Error.message (e : Error) : String :=
  e.cause.message ++ " at offset " ++ DecodeError.count e.offset

theorem byteSize_append (s t : List Char) : byteSize (s ++ t) = byteSize s + byteSize t := by
  induction s with
  | nil => simp [byteSize]
  | cons c r ih => simp [byteSize, ih, Nat.add_assoc]

end Literal
end Warrant
