import Warrant.Json.Decode

/-!
# Configuration of abilities

The two names that cover all others: the global action and the global subject.  As a data value a
configuration is an object with both names, or the list of the two.
-/

namespace Warrant

/-- The names that stand for every action and for every subject. -/
structure Config where
  globalAction : String := "manage"
  globalSubject : String := "all"
deriving DecidableEq, Inhabited

namespace Config

/-- The fields that were found so far. -/
structure Fields where
  action : Option String := none
  subject : Option String := none

/-- Takes one more field.  Unknown fields are passed over. -/
def Fields.add (f : Fields) (name : String) (v : Json) : Except DecodeError Fields :=
  if name = "global_action" then
    return { f with action := ← fillField name f.action v.decodeString }
  else if name = "global_subject" then
    return { f with subject := ← fillField name f.subject v.decodeString }
  else return f

/-- The configuration with the fields that were found. -/
def Fields.toConfig (f : Fields) : Except DecodeError Config := do
  return ⟨← requireField "global_action" f.action, ← requireField "global_subject" f.subject⟩

/-- The names of the fields in the order of the list form. -/
def fieldNames : List String :=
  ["global_action", "global_subject"]

/-- The configuration that a data value describes. -/
def decode (v : Json) : Except DecodeError Config :=
  match v with
  | .object o => do (← o.foldlM (fun f e => f.add e.1 e.2) ({} : Fields)).toConfig
  | .array items => do
      let fields ← (fieldNames.zip items).foldlM (fun f e => f.add e.1 e.2) ({} : Fields)
      if items.length < 2 then throw (.tooShort items.length "AbilityConfig" 2)
      if 2 < items.length then throw (.tooLong items.length)
      fields.toConfig
  | _ => .error (.wrongType v (.record "AbilityConfig"))

/-- The configuration as a data value. -/
def toJson (c : Config) : Json :=
  .object [("global_action", .string c.globalAction), ("global_subject", .string c.globalSubject)]

end Config
end Warrant
