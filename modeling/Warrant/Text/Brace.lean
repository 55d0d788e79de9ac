/-!
# Braces

Braces delimit placeholders in scopes and condition blocks in permissions.  `beforeBrace` and
`fromBrace` divide a text at its first brace.

**Results.**
* `beforeBrace_append_fromBrace`: the two parts are the whole text.
-/

namespace Warrant
namespace Text

/-- Whether a character is a brace. -/
def isBrace (c : Char) : Bool :=
  c == '{' || c == '}'

/-- The text in front of the first brace. -/
def beforeBrace (s : List Char) : List Char :=
  s.takeWhile (!isBrace ·)

/-- The text from the first brace on; nothing if there is no brace. -/
def fromBrace (s : List Char) : List Char :=
  s.dropWhile (!isBrace ·)

/-- The two parts of a text divided at its first brace are the whole text. -/
theorem beforeBrace_append_fromBrace (s : List Char) : beforeBrace s ++ fromBrace s = s :=
  List.takeWhile_append_dropWhile

end Text
end Warrant
