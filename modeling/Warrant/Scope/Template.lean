import Warrant.Scope.Encoding
import Warrant.Text.Brace

/-!
# Placeholders in scope texts

A placeholder is a name between braces with no brace in it.  `substitute` replaces every
placeholder whose name is known, without regard to case, and leaves the others and all unpaired
braces as they stand.  Replaced values are not looked at again.
-/

namespace Warrant
namespace Template

/-- The value of a variable, whatever the case of its name. -/
def valueOf? (values : List (String × String)) (name : List Char) : Option (List Char) :=
  (values.find? fun v => Text.lowercase v.1.toList == Text.lowercase name).map (·.2.toList)

theorem length_fromBrace_lt_cons (c : Char) (r : List Char) :
    (Text.fromBrace r).length < (c :: r).length :=
  Nat.lt_succ_of_le (List.dropWhile_sublist _).length_le

theorem length_lt_of_fromBrace {c : Char} {r rest : List Char} {d : Char}
    (h : Text.fromBrace r = d :: rest) : rest.length < (c :: r).length := by
  have hr := length_fromBrace_lt_cons c r
  rw [h] at hr
  exact Nat.lt_trans (Nat.lt_succ_self _) hr

/-- The text with its known placeholders replaced. -/
def substituteChars (values : List (String × String)) : List Char → List Char
  | [] => []
  | c :: r =>
      if c = '{' then
        match _h : Text.fromBrace r with
        | '}' :: rest =>
            let name := Text.beforeBrace r
            ((valueOf? values name).getD ('{' :: name ++ ['}'])) ++ substituteChars values rest
        | _ => c :: substituteChars values r
      else c :: substituteChars values r
termination_by s => s.length
decreasing_by
  · exact length_lt_of_fromBrace _h
  · exact Nat.lt_succ_self _
  · exact Nat.lt_succ_self _

/-- The text with its known placeholders replaced. -/
def substitute (values : List (String × String)) (text : String) : String :=
  String.ofList (substituteChars values text.toList)

end Template

namespace ScopeSource

/-- The text in which placeholders are replaced.  A scope given as a text is taken as it is written;
any other one is rendered first. -/
def written (source : ScopeSource) : Except ScopeError String :=
  match source.rawText? with
  | some raw => .ok raw
  | none => source.toScope.map Scope.text

/-- A scope rendered with its placeholders replaced.  Without values there is nothing to look for. -/
def render (source : ScopeSource) (values : List (String × String)) : Except ScopeError String := do
  let rendered ← source.written
  if values.isEmpty then return rendered
  return Template.substitute values rendered

end ScopeSource

end Warrant
