import Warrant.Scope.Error

/-!
# Faults of permission texts

The causes for which the text of a permission is refused.  Every message shows the text as it was
given.
-/

namespace Warrant

/-- Why the text of a permission is refused. -/
inductive PermissionError where
  | tooFewParts (text : String)
  | emptyAction (text : String)
  | emptySubject (text : String)
  | badConditions (block text : String)
  | badScope (fault : ScopeError)

namespace PermissionError

/-- The wording of a fault. -/
def message : PermissionError → String
  | .tooFewParts text =>
      "Invalid permission format: '" ++ text ++ "' needs at least a subject and an action"
  | .emptyAction text => "Invalid permission format: empty action in '" ++ text ++ "'"
  | .emptySubject text => "Invalid permission format: empty subject in '" ++ text ++ "'"
  | .badConditions block text =>
      "Invalid conditions '" ++ block ++ "' in permission '" ++ text ++ "'"
  | .badScope fault => fault.message

end PermissionError
end Warrant
