import Warrant.Number.Hexadecimal
import Warrant.Text.Rest

/-!
# Quoted texts of expressions

A text stands between single or double quotes on one line.  Characters are escaped by letters, by
hexadecimal numbers of two, four or eight digits, and by three octal digits; no other escape is
allowed.  In a raw text escapes stand as they are written.

**Results.**
* `length_lt_of_quotedBody`: reading a quoted text uses up text.
-/

namespace Warrant
namespace Expression

/-- The characters between the quotes of a text as they are written: a backslash takes the next
character with it, and a line does not end within quotes. -/
def quotedBody (quote : Char) : List Char → Option (List Char × List Char)
  | [] => none
  | '\\' :: c :: r =>
      if c = '\n' then none
      else (quotedBody quote r).map fun (body, rest) => ('\\' :: c :: body, rest)
  | c :: r =>
      if c = quote then some ([], r)
      else if c = '\n' ∨ c = '\\' then none
      else (quotedBody quote r).map fun (body, rest) => (c :: body, rest)

theorem length_lt_of_quotedBody {quote : Char} {s body rest : List Char}
    (h : quotedBody quote s = some (body, rest)) : rest.length < s.length := by
  fun_induction quotedBody quote s generalizing body with
  | case1 => simp at h
  | case2 => simp at h
  | case3 r c _ ih =>
      obtain ⟨⟨b, r'⟩, hb, he⟩ := Option.map_eq_some_iff.1 h
      simp only [Prod.mk.injEq] at he
      have := ih (he.2 ▸ hb)
      simp only [List.length_cons]
      omega
  | case4 r =>
      simp only [Option.some.injEq, Prod.mk.injEq] at h
      simp [h.2]
  | case5 => simp at h
  | case6 c r _ _ _ ih =>
      obtain ⟨⟨b, r'⟩, hb, he⟩ := Option.map_eq_some_iff.1 h
      simp only [Prod.mk.injEq] at he
      have := ih (he.2 ▸ hb)
      simp only [List.length_cons]
      omega

/-- The character with a given number. -/
def charOf? (n : Nat) : Option Char :=
  if n.isValidChar then some (Char.ofNat n) else none

/-- The number of digits of an escape by number in base sixteen. -/
def escapeWidth? (c : Char) : Option Nat :=
  match c with
  | 'x' => some 2
  | 'u' => some 4
  | 'U' => some 8
  | _ => none

/-- The character that a letter behind a backslash stands for. -/
def letterEscape? (c : Char) : Option Char :=
  match c with
  | 'a' => some '\x07'
  | 'b' => some '\x08'
  | 'v' => some '\x0b'
  | 'f' => some '\x0c'
  | 'n' => some '\n'
  | 'r' => some '\r'
  | 't' => some '\t'
  | '\\' => some '\\'
  | '?' => some '?'
  | '\'' => some '\''
  | '"' => some '"'
  | c => if c.toNat = 96 then some c else none

/-- The value of three octal digits, the first of which is at most three. -/
def octalEscape? (a b c : Char) : Option Char :=
  let digit (d : Char) : Nat := d.toNat - '0'.toNat
  if '0' ≤ a ∧ a ≤ '3' ∧ '0' ≤ b ∧ b ≤ '7' ∧ '0' ≤ c ∧ c ≤ '7' then
    charOf? (64 * digit a + 8 * digit b + digit c)
  else none

/-- The text that a quoted body denotes.  The quote of the other kind keeps the backslash in front
of it. -/
def unescape (quote : Char) (s : List Char) : Option (List Char) :=
  match s with
  | [] => some []
  | [c] => some [c]
  | c :: d :: r =>
      if c ≠ '\\' then (unescape quote (d :: r)).map (c :: ·)
      else if (d = '\'' ∨ d = '"') ∧ d ≠ quote then
        (unescape quote r).map fun t => '\\' :: d :: t
      else
        match letterEscape? d, escapeWidth? d with
        | some e, _ => (unescape quote r).map (e :: ·)
        | none, some width =>
            if r.length < width then none
            else
              match (hexNumber? (r.take width)).bind charOf? with
              | some e => (unescape quote (r.drop width)).map (e :: ·)
              | none => none
        | none, none =>
            match r with
            | x :: y :: r' =>
                match octalEscape? d x y with
                | some e => (unescape quote r').map (e :: ·)
                | none => none
            | _ => none
termination_by s.length
decreasing_by
  all_goals simp only [List.length_cons, List.length_drop]
  all_goals omega

/-- The text that a raw body denotes: only the backslash in front of the own quote falls away. -/
def unescapeRaw (quote : Char) : List Char → List Char
  | [] => []
  | [c] => [c]
  | c :: d :: r =>
      if c = '\\' then
        if d = quote then d :: unescapeRaw quote r else c :: d :: unescapeRaw quote r
      else c :: unescapeRaw quote (d :: r)

end Expression
end Warrant
