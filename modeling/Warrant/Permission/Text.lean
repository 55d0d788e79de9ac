import Warrant.Literal.Writer
import Warrant.Permission.Basic
import Warrant.Permission.Error
import Warrant.Text.Brace

/-!
# Permission texts

The compact form of a permission is `!scope:subjects:actions{conditions}`.  The mark `!` makes a
denial; the scope with its delimiter and the condition block may be missing; names are separated
by commas.  A global scope is written as nothing in front of its delimiter.
-/

namespace Warrant
namespace Permission

/-- The mark of a denial. -/
def denialMark : Char := '!'

/-- The separator between names. -/
def nameSeparator : Char := ','

/-- The effect and what follows its mark. -/
def splitEffect : List Char → Effect × List Char
  | [] => (.can, [])
  | c :: r => if c = denialMark then (.cannot, r) else (.can, c :: r)

/-- The names of a list without the blanks around them. -/
def namesOf (part : List Char) : List String :=
  (part.splitOn nameSeparator).map fun name => String.ofList (Text.trim name)

/-- The names of a list, none of which may be empty. -/
def readNames (fault : PermissionError) (part : List Char) :
    Except PermissionError (List String) :=
  if (namesOf part).any (· == "") then .error fault else .ok (namesOf part)

/-- The conditions of a block; no block is no conditions. -/
def readBlock (text : String) (block : List Char) : Except PermissionError (Option Object) :=
  if block.isEmpty then .ok none
  else
    match Literal.parseChars block with
    | .ok (.object query) => .ok (some query)
    | _ => .error (.badConditions (String.ofList block) text)

/-- The scope of the parts in front of the names; no parts are no scope. -/
def readScope (parts : List (List Char)) : Except PermissionError (Option Scope) :=
  if parts.isEmpty then .ok none
  else
    match Scope.ofText (String.ofList ([scopeDelimiter].intercalate parts)) with
    | .ok s => .ok (some s)
    | .error e => .error (.badScope e)

/-- The permission of the parts of a body, given in reverse order. -/
def ofParts (text : String) (effect : Effect) (conditions : Option Object) :
    List (List Char) → Except PermissionError Permission
  | actionPart :: subjectPart :: scopeParts => do
      let actions ← readNames (.emptyAction text) actionPart
      let subjects ← readNames (.emptySubject text) subjectPart
      let scope ← readScope scopeParts.reverse
      return { subjects, actions, effect, conditions, scope }
  | _ => .error (.tooFewParts text)

/-- The permission that a text denotes.  Of several faults the first in the order conditions,
parts, actions, subjects, scope is reported. -/
def parse (text : String) : Except PermissionError Permission := do
  let (effect, rest) := splitEffect (Text.trim text.toList)
  let conditions ← readBlock text (Text.fromBrace rest)
  ofParts text effect conditions ((Text.beforeBrace rest).splitOn scopeDelimiter).reverse

/-- The mark of an effect. -/
def effectText : Effect → List Char
  | .can => []
  | .cannot => [denialMark]

/-- The scope with its delimiter. -/
def scopeText : Option Scope → List Char
  | none => []
  | some s => s.text.toList ++ [scopeDelimiter]

/-- The names with separators between them. -/
def namesText (names : List String) : List Char :=
  [nameSeparator].intercalate (names.map String.toList)

/-- The condition block. -/
def blockText : Option Object → List Char
  | none => []
  | some query => Literal.write (.object query)

/-- The characters of the compact form. -/
def chars (p : Permission) : List Char :=
  effectText p.effect ++ scopeText p.scope ++ namesText p.subjects ++ [scopeDelimiter] ++
    namesText p.actions ++ blockText p.conditions

/-- The compact form of a permission. -/
def text (p : Permission) : String :=
  String.ofList p.chars

end Permission
end Warrant
