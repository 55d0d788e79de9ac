import Warrant.Json.Basic
import Warrant.Number.Layout
import Warrant.Text.Word

/-!
# Decoding records from data values

Why a data value is not the record it should be, and the wording of each cause.  The fields of a
record are decoded in the order in which the object has them, so of several faults the one whose
field comes first is reported; only then is a missing field noticed.
-/

namespace Warrant

/-- What was expected where something else stands. -/
inductive Expectation where
  | text
  | map
  | textOrMap
  | unit
  | record (name : String)
deriving DecidableEq

/-- The wording of an expectation. -/
def Expectation.describe : Expectation → String
  | .text => "a string"
  | .map => "a map"
  | .textOrMap => "string or map"
  | .unit => "unit"
  | .record name => "struct " ++ name

/-- Why a data value does not decode. -/
inductive DecodeError where
  | wrongType (found : Json) (expected : Expectation)
  | missingField (name : String)
  | repeatedField (name : String)
  | unknownVariant (name : String)
  | notSingleKey
  | tooShort (length : Nat) (name : String) (fields : Nat)
  | tooLong (length : Nat)
  | noNames
  | noShape (name : String)
  | refused (reason : String)

namespace Json

/-- What a value is, as messages say it. -/
def describe : Json → String
  | .null => "null"
  | .bool true => "boolean `true`"
  | .bool false => "boolean `false`"
  | .number (.integer n) => "integer `" ++ String.ofList (Decimal.signText (n.val < 0)) ++
      String.ofList (Decimal.digitsOf n.val.natAbs) ++ "`"
  | .number (.float x) => "floating point `" ++ String.ofList x.text ++ "`"
  | .string s => "string " ++ Text.quoted s
  | .array _ => "sequence"
  | .object _ => "map"

end Json

namespace DecodeError

/-- The text of a whole number. -/
def count (n : Nat) : String :=
  String.ofList (Decimal.digitsOf n)

/-- The wording of a decoding fault. -/
def message : DecodeError → String
  | .wrongType found expected =>
      "invalid type: " ++ found.describe ++ ", expected " ++ expected.describe
  | .missingField name => "missing field `" ++ name ++ "`"
  | .repeatedField name => "duplicate field `" ++ name ++ "`"
  | .unknownVariant name => "unknown variant `" ++ name ++ "`, expected `can` or `cannot`"
  | .notSingleKey => "invalid value: map, expected map with a single key"
  | .tooShort length name fields =>
      "invalid length " ++ count length ++ ", expected struct " ++ name ++ " with " ++
        count fields ++ " elements"
  | .tooLong length => "invalid length " ++ count length ++ ", expected fewer elements in array"
  | .noNames => "invalid length 0, expected at least one name"
  | .noShape name => "data did not match any variant of untagged enum " ++ name
  | .refused reason => reason

end DecodeError

/-- The text of a string value, or a fault. -/
def Json.decodeString (v : Json) : Except DecodeError String :=
  match v with
  | .string s => .ok s
  | _ => .error (.wrongType v .text)

/-- The value decoded unless it is null. -/
def Json.decodeOptional {α : Type} (decode : Json → Except DecodeError α) (v : Json) :
    Except DecodeError (Option α) :=
  match v with
  | .null => .ok none
  | _ => (decode v).map some

/-- Fills a field that must not have been filled before. -/
def fillField {α : Type} (name : String) (slot : Option α) (decoded : Except DecodeError α) :
    Except DecodeError (Option α) :=
  match slot with
  | some _ => .error (.repeatedField name)
  | none => decoded.map some

/-- The content of a field that must be present. -/
def requireField {α : Type} (name : String) (slot : Option α) : Except DecodeError α :=
  match slot with
  | some a => .ok a
  | none => .error (.missingField name)

end Warrant
