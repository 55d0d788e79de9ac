import Warrant.Languages
import Warrant.Regex.Basic
import Warrant.Regex.ClassReader

/-!
# Reading regular expressions

The grammar has literals, `.`, classes in brackets, the classes `\d`, `\s` and `\w` with their
complements, anchors, groups, alternatives, repetition with `*`, `+`, `?` and counts, and flags
for the rest of a group.  Back-references, look-around and unknown escapes are refused, and so
are expressions that are too large when their repetitions are written out.

Groups are kept on a stack: a `Level` holds what was read since the last open bracket, so the
text is read from front to back by one loop.
-/

namespace Warrant

namespace Regex

open Text (Shorter)

/-- The flags in force. -/
structure Flags where
  ignoreCase : Bool := false
  multiLine : Bool := false
  dotAll : Bool := false
  lazySwapped : Bool := false
deriving DecidableEq

/-- What was read of a group: the branches before the last `|`, and the items of the branch that
is being read, the last one first.  A flag directive is an item without an expression. -/
structure Level where
  flags : Flags
  branches : Option Regex := none
  items : List (Option Regex) := []

namespace Level

/-- The level with one more item. -/
def push (l : Level) (r : Regex) : Level :=
  { l with items := some r :: l.items }

/-- An item in front of what was read behind it. -/
def before (later : Regex) : Option Regex → Regex
  | some r => if later = .empty then r else .sequence r later
  | none => later

/-- The expression of the branch that is being read. -/
def branch (l : Level) : Regex :=
  l.items.foldl before .empty

/-- The expression of all branches. -/
def expression (l : Level) : Regex :=
  match l.branches with
  | some r => .alternative r l.branch
  | none => l.branch

/-- The level with its last item repeated; there must be one. -/
def repeatLast (l : Level) (least : Nat) (most : Option Nat) : Option Level :=
  match l.items with
  | some r :: rest => some { l with items := some (.repetition r least most) :: rest }
  | _ => none

end Level

/-- Takes one flag to a value; every flag is named at most once. -/
def Flags.set? (f : Flags) (c : Char) (b : Bool) : Option Flags :=
  match c with
  | 'i' => some { f with ignoreCase := b }
  | 'm' => some { f with multiLine := b }
  | 's' => some { f with dotAll := b }
  | 'U' => some { f with lazySwapped := b }
  | 'u' => some f
  | 'R' => some f
  | 'x' => if b then none else some f
  | _ => none

/-- The flags named by a text such as `i-s`. -/
def readFlags (f : Flags) (seen : List Char) (value : Bool) : List Char → Option Flags
  | [] => if seen.head? = some '-' then none else some f
  | '-' :: rest => if value then readFlags f ('-' :: seen) false rest else none
  | c :: rest =>
      if seen.contains c then none
      else
        match f.set? c value with
        | some f => readFlags f (c :: seen) value rest
        | none => none

/-- Whether a name of a group may begin with a character. -/
def startsName (c : Char) : Bool :=
  c == '_' || (Text.isWord c && !Text.isDecimalDigit c)

/-- Whether a character may stand in a name of a group. -/
def inName (c : Char) : Bool :=
  Text.isWord c || c == '.' || c == '[' || c == ']'

/-- Whether a text is a name of a group. -/
def isName : List Char → Bool
  | [] => false
  | c :: r => startsName c && r.all inName

/-- What an opening bracket begins: a group with its flags and its name, or flags for the rest of
the group around it. -/
inductive Opening where
  | group (flags : Flags) (name : Option String)
  | directive (flags : Flags)

/-- The name that ends at `>`. -/
def namedGroup? (flags : Flags) (s : List Char) : Option (Opening × Shorter s) :=
  match h : s.dropWhile (· != '>') with
  | '>' :: r =>
      if isName (s.takeWhile (· != '>')) then
        some (.group flags (some (String.ofList (s.takeWhile (· != '>')))),
          ⟨r, Text.length_lt_of_dropWhile h⟩)
      else none
  | _ => none

/-- The flags that end at `:` or `)`. -/
def flaggedGroup? (flags : Flags) (s : List Char) : Option (Opening × Shorter s) :=
  match h : s.dropWhile (fun c => c != ':' && c != ')') with
  | ':' :: r =>
      (readFlags flags [] true (s.takeWhile fun c => c != ':' && c != ')')).map fun f =>
        (.group f none, ⟨r, Text.length_lt_of_dropWhile h⟩)
  | ')' :: r =>
      if (s.takeWhile fun c => c != ':' && c != ')').isEmpty then none
      else
        (readFlags flags [] true (s.takeWhile fun c => c != ':' && c != ')')).map fun f =>
          (.directive f, ⟨r, Text.length_lt_of_dropWhile h⟩)
  | _ => none

/-- What begins behind an opening bracket. -/
def opening? (flags : Flags) (s : List Char) :
    Option (Opening × { r : List Char // r.length ≤ s.length }) :=
  match s with
  | '?' :: 'P' :: '<' :: r =>
      (namedGroup? flags r).map fun (o, ⟨q, h⟩) => (o, ⟨q, by simp only [List.length_cons]; omega⟩)
  | '?' :: '<' :: r =>
      (namedGroup? flags r).map fun (o, ⟨q, h⟩) => (o, ⟨q, by simp only [List.length_cons]; omega⟩)
  | '?' :: r =>
      (flaggedGroup? flags r).map fun (o, ⟨q, h⟩) =>
        (o, ⟨q, by simp only [List.length_cons]; omega⟩)
  | t => some (.group flags none, ⟨t, Nat.le_refl _⟩)

/-- A whole number within counts, with blanks around it. -/
def count? (s : List Char) : Option Nat :=
  let digits := Text.trim s
  if digits.isEmpty || !digits.all Decimal.isDigit then none
  else
    let n := Decimal.wholeNumber digits
    if n < 4294967296 then some n else none

/-- The bounds of a counted repetition, without its braces. -/
def bounds? (s : List Char) : Option (Nat × Option Nat) :=
  match s.splitOn ',' with
  | [n] => (count? n).map fun n => (n, some n)
  | [n, m] =>
      if m.isEmpty then (count? n).map fun n => (n, none)
      else
        match count? n, count? m with
        | some n, some m => if n ≤ m then some (n, some m) else none
        | _, _ => none
  | _ => none

/-- The bounds of a repetition that begins with `c`, and what follows. -/
def quantifier? (c : Char) (s : List Char) :
    Option (Nat × Option Nat × { r : List Char // r.length ≤ s.length }) :=
  if c = '*' then some (0, none, ⟨s, Nat.le_refl _⟩)
  else if c = '+' then some (1, none, ⟨s, Nat.le_refl _⟩)
  else if c = '?' then some (0, some 1, ⟨s, Nat.le_refl _⟩)
  else
    match h : s.dropWhile (· != '}') with
    | '}' :: r =>
        (bounds? (s.takeWhile (· != '}'))).map fun (n, m) =>
          (n, m, ⟨r, Nat.le_of_lt (Text.length_lt_of_dropWhile h)⟩)
    | _ => none

/-- The text behind the mark of a lazy repetition, which changes no match. -/
def skipLazy (s : List Char) : List Char :=
  match s with
  | '?' :: r => r
  | _ => s

theorem length_skipLazy_le (s : List Char) : (skipLazy s).length ≤ s.length := by
  unfold skipLazy
  split <;> simp

/-- What a character that is no operator stands for. -/
def atomOf (flags : Flags) (c : Char) : Regex :=
  if c = '.' then
    .char false (.negated (if flags.dotAll then .nothing else .single '\n'))
  else if c = '^' then .anchor (if flags.multiLine then .lineStart else .textStart)
  else if c = '$' then .anchor (if flags.multiLine then .lineEnd else .textEnd)
  else .char flags.ignoreCase (.single c)

/-- The anchor that a letter behind a backslash stands for. -/
def anchorEscape? (c : Char) : Option Anchor :=
  match c with
  | 'A' => some .textStart
  | 'z' => some .textEnd
  | 'b' => some .wordEdge
  | 'B' => some .noWordEdge
  | _ => none

/-- What a backslash begins. -/
def escapeAtom? (flags : Flags) (s : List Char) : Option (Regex × Shorter s) :=
  match s with
  | [] => none
  | c :: r =>
      match anchorEscape? c with
      | some a => some (.anchor a, ⟨r, Text.length_lt_cons _ r⟩)
      | none =>
          (CharClass.escape? (c :: r)).map fun (k, _, rest) => (.char flags.ignoreCase k, rest)

/-- The expression of a text: `outer` are the levels around the one that is being read. -/
def read (outer : List Level) (names : List String) (l : Level) (s : List Char) : Option Regex :=
  match s with
  | [] => if outer.isEmpty then some l.expression else none
  | c :: r =>
      if c = '|' then
        read outer names { l with branches := some l.expression, items := [] } r
      else if c = '(' then
        match opening? l.flags r with
        | none => none
        | some (.directive f, ⟨r', _⟩) =>
            read outer names { l with flags := f, items := none :: l.items } r'
        | some (.group f none, ⟨r', _⟩) => read (l :: outer) names { flags := f } r'
        | some (.group f (some name), ⟨r', _⟩) =>
            if names.contains name then none
            else read (l :: outer) (name :: names) { flags := f } r'
      else if c = ')' then
        match outer with
        | [] => none
        | up :: rest => read rest names (up.push l.expression) r
      else if c = '*' ∨ c = '+' ∨ c = '?' ∨ c = '{' then
        match quantifier? c r with
        | none => none
        | some (least, most, ⟨r', _⟩) =>
            have := length_skipLazy_le r'
            match l.repeatLast least most with
            | none => none
            | some l => read outer names l (skipLazy r')
      else if c = '[' then
        match CharClass.bracketed? r with
        | none => none
        | some (k, ⟨r', _⟩) => read outer names (l.push (.char l.flags.ignoreCase k)) r'
      else if c = '\\' then
        match escapeAtom? l.flags r with
        | none => none
        | some (a, ⟨r', _⟩) => read outer names (l.push a) r'
      else read outer names (l.push (atomOf l.flags c)) r
termination_by s.length

/-- The size from which on an expression is refused: what it is compiled to would take about ten
megabytes. -/
def sizeLimit : Nat := 250000

/-- The expression that a pattern denotes, if need be without regard to case. -/
def parse? (ignoreCase : Bool) (pattern : String) : Option Regex :=
  match read [] [] { flags := { ignoreCase } } pattern.toList with
  | some r => if r.size < sizeLimit then some r else none
  | none => none

/-- The patterns of this library. -/
def standard : Interpreter where
  Pattern := Regex
  compile := parse?
  matchesIn := matchesIn

end Regex
end Warrant
