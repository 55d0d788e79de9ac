import Warrant.Policy.Check

/-!
# The command line

`main` checks the policy in the file that its first argument names.  The verdicts go to the
standard output; if there are none, the stage that failed goes to the standard error.
-/

namespace Warrant

/-- What the first argument leads to. -/
def policySource (arguments : List String) : IO PolicySource := do
  match arguments with
  | [] => return .missing
  | path :: _ =>
      try
        return .text (← IO.FS.readFile path)
      catch _ =>
        return .unreadable

end Warrant

/-- Checks a policy file and returns the exit code. -/
def main (arguments : List String) : IO UInt32 := do
  let outcome := Warrant.Policy.outcome (← Warrant.policySource arguments)
  IO.print outcome.output
  IO.eprint outcome.complaint
  return outcome.exit
