import Warrant.Ability.Basic
import Warrant.Policy.Basic
import Warrant.Standard

/-!
# Checking a policy

A check decides every requested permission of a policy by the ability of its granted items, and
gives one line for each.  If any part of the policy does not decode, it gives no line at all but
the stage at which it stopped.
-/

namespace Warrant

/-- What a check was given. -/
inductive PolicySource where
  | missing
  | unreadable
  | text (content : String)

/-- The stage at which a check stopped. -/
inductive CheckFault where
  | usage
  | unreadable
  | unparsable
  | badGrants (fault : PermissionError)
  | badRequests (fault : PermissionError)

/-- The wording of a stage. -/
def CheckFault.stage : CheckFault → String
  | .usage => "usage"
  | .unreadable => "failed to read"
  | .unparsable => "failed to parse"
  | .badGrants _ => "invalid granted permissions"
  | .badRequests _ => "invalid requested permissions"

namespace Policy

/-- The decision on one flattened request. -/
structure Verdict where
  allowed : Bool
  request : Permission

/-- The line of a verdict. -/
def Verdict.line (v : Verdict) : String :=
  (if v.allowed then "ALLOW " else "DENY ") ++ v.request.text ++ "\n"

/-- What a check leaves behind: a text on the standard output, a text on the standard error, and an
exit code. -/
structure Outcome where
  output : String
  complaint : String
  exit : UInt32

/-- The policy of a source. -/
def ofSource [Json.Floats] : PolicySource → Except CheckFault Policy
  | .missing => .error .usage
  | .unreadable => .error .unreadable
  | .text content =>
      match read? content with
      | some policy => .ok policy
      | none => .error .unparsable

section Languages

variable [Languages]

/-- The decisions on all flattened requests of a policy, in order. -/
def verdicts (policy : Policy) : Except CheckFault (List Verdict) := do
  let ability ← (Ability.ofItems policy.granted).mapError .badGrants
  let requests ← (Item.flatten policy.requests).mapError .badRequests
  return requests.map fun r => ⟨ability.passes r policy.context, r⟩

/-- The lines of all verdicts on the policy of a source. -/
def report [Json.Floats] (source : PolicySource) : Except CheckFault String := do
  let policy ← ofSource source
  return String.join ((← policy.verdicts).map Verdict.line)

/-- The outcome of a check: all lines, or else the stage that failed. -/
def outcome [Json.Floats] (source : PolicySource) : Outcome :=
  match report source with
  | .ok lines => { output := lines, complaint := "", exit := 0 }
  | .error fault => { output := "", complaint := fault.stage ++ "\n", exit := 1 }

end Languages

end Policy
end Warrant
