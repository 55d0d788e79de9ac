import Warrant.Json.Reader
import Warrant.Permission.Decode

/-!
# Policies

A policy is a list of granted items, a list of requested items and a context.  Its text is data
text: an object with the keys granted, requests and context, or a list of one to three values in
that order.  Only the granted items must be there.  Other keys are passed over, and the values
under them are only checked for their form; a known key may not come twice.
-/

namespace Warrant

/-- What is granted, what is asked for, and where. -/
structure Policy where
  granted : List Item
  requests : List Item
  context : Option Json

namespace Policy

/-- The names of the fields in the order of the list form. -/
def fieldNames : List String :=
  ["granted", "requests", "context"]

/-- How deep the containers of a policy text may be nested. -/
def depth : Nat := 127

/-- How deep the containers under a key may be nested; unknown keys have no limit. -/
def limitOf (key : String) : Option Nat :=
  if fieldNames.contains key then some (depth - 1) else none

/-- The fields that were found so far. -/
structure Fields where
  granted : Option (List Item) := none
  requests : Option (List Item) := none
  context : Option (Option Json) := none

/-- A list of items. -/
def decodeItems (v : Json) : Option (List Item) :=
  match v with
  | .array items => (Item.ofJsonList items).toOption
  | _ => none

/-- A context; null is none. -/
def decodeContext (v : Json) : Option Json :=
  match v with
  | .null => none
  | v => some v.settle

/-- Takes one more field. -/
def Fields.add? (f : Fields) (name : String) (v : Json) : Option Fields :=
  if name = "granted" then
    (Group.fill? f.granted (decodeItems v)).map fun items => { f with granted := items }
  else if name = "requests" then
    (Group.fill? f.requests (decodeItems v)).map fun items => { f with requests := items }
  else if name = "context" then
    (Group.fill? f.context (some (decodeContext v))).map fun c => { f with context := c }
  else some f

/-- The policy with the fields that were found. -/
def Fields.toPolicy? (f : Fields) : Option Policy :=
  f.granted.map fun granted => ⟨granted, f.requests.getD [], f.context.getD none⟩

/-- The policy of the entries of an object. -/
def ofEntries? (entries : List (String × Json)) : Option Policy :=
  (entries.foldlM (fun (f : Fields) (name, v) => f.add? name v) {}).bind Fields.toPolicy?

/-- The policy of a list of fields. -/
def ofValues? (values : List Json) : Option Policy :=
  if values.length ≤ fieldNames.length then ofEntries? (fieldNames.zip values) else none

variable [Json.Floats]

open Json.Reader in
/-- The entries of a policy text that is an object or a list, and the text behind it. -/
def readFields? (s : List Char) : Option (Option Policy × List Char) :=
  match skipBlanks s with
  | '{' :: r =>
      match skipBlanks r with
      | '}' :: rest => some (none, rest)
      | _ => (entries false limitOf r).map fun (es, rest) => (ofEntries? es, rest.1)
  | '[' :: r =>
      match skipBlanks r with
      | ']' :: rest => some (none, rest)
      | _ => (items (some (depth - 1)) r).map fun (vs, rest) => (ofValues? vs, rest.1)
  | _ => none

/-- The policy that a text denotes. -/
def read? (text : String) : Option Policy :=
  match readFields? text.toList with
  | some (policy, rest) => if Json.Reader.atEnd rest then policy else none
  | none => none

end Policy
end Warrant
