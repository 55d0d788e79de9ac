import Warrant.Json.Decode
import Warrant.Json.Printer

/-!
# Faults of scopes

The causes for which a scope is refused, a lookup fails or a pattern cannot be built, with their
wording.
-/

namespace Warrant

/-- Why a scope operation fails. -/
inductive ScopeError where
  | emptyType (position : Nat)
  | emptySubjectType
  | missingKey (key scope : String)
  | unsupported (value : Json)
  | badSubject (fault : DecodeError)
  | patternTooLarge

namespace ScopeError

/-- The wording of a scope fault. -/
def message : ScopeError → String
  | .emptyType position =>
      "Invalid scope format: " ++ (if position = 0 then "leading" else "internal") ++
        " empty type segment at position " ++ DecodeError.count position
  | .emptySubjectType => "Invalid scope format: scope subject has an empty type"
  | .missingKey key scope => "Scope key '" ++ key ++ "' not found in scope '" ++ scope ++ "'"
  | .unsupported value => "Unsupported scope type: " ++ value.print
  | .badSubject fault => "Unsupported scope type: " ++ fault.message
  | .patternTooLarge => "Pattern matching error: the pattern is too large"

end ScopeError
end Warrant
