import Warrant.Expression.Basic
import Warrant.Expression.Lexer

/-!
# Reading expressions

The operators bind in six levels: `||`, `&&`, one comparison or `in`, sums, products, and one
operator in front of an operand.  Binary operators group to the left, and comparisons do not
chain.  A choice `c ? a : b` is weaker than all of them; only its last part may be another choice.
Behind an operand stand attributes, method calls and indices.  A comma may follow the last element
of a list.
-/

namespace Warrant
namespace Expression

open Text (Shorter)

/-- The binary operator of a mark at one of the levels. -/
def binaryAt? (level : Nat) (m : String) : Option BinaryOp :=
  match level, m with
  | 0, "||" => some .or
  | 1, "&&" => some .and
  | 2, "<" => some .less
  | 2, "<=" => some .lessEqual
  | 2, ">" => some .greater
  | 2, ">=" => some .greaterEqual
  | 2, "==" => some .equal
  | 2, "!=" => some .notEqual
  | 2, "in" => some .within
  | 3, "+" => some .add
  | 3, "-" => some .subtract
  | 4, "*" => some .multiply
  | 4, "/" => some .divide
  | 4, "%" => some .remainder
  | _, _ => none

/-- The operator of a mark in front of an operand. -/
def unaryOf? (m : String) : Option UnaryOp :=
  match m with
  | "!" => some .not
  | "!!" => some .truth
  | "-" => some .minus
  | "--" => some .keep
  | _ => none

/-- The level of the comparisons. -/
def comparisonLevel : Nat := 2

/-- The literal that a token is. -/
def literal? : Token → Option Expr
  | .int n => some (.int n)
  | .uint n => some (.uint n)
  | .float x => some (.float x)
  | .text s => some (.text s)
  | .mark "true" => some (.bool true)
  | .mark "false" => some (.bool false)
  | .mark "null" => some .null
  | _ => none

/-- The unary operator at the front of the tokens. -/
def unaryAt? : List Token → Option UnaryOp
  | .mark m :: _ => unaryOf? m
  | _ => none

/-- The text without the given mark, which must be at its front. -/
def expect? (m : String) (s : List Token) : Option (Shorter s) :=
  match s with
  | .mark m' :: r => if m' = m then some ⟨r, Text.length_lt_cons _ r⟩ else none
  | _ => none

mutual

/-- A complete expression: a choice or an operand of the weakest level. -/
def expression (s : List Token) : Option (Expr × Shorter s) :=
  match operand 0 s with
  | none => none
  | some (c, ⟨r, hr⟩) =>
      match expect? "?" r with
      | none => some (c, ⟨r, hr⟩)
      | some ⟨r1, h1⟩ =>
          match operand 0 r1 with
          | none => none
          | some (a, ⟨r2, h2⟩) =>
              match expect? ":" r2 with
              | none => none
              | some ⟨r3, h3⟩ =>
                  match expression r3 with
                  | none => none
                  | some (b, ⟨r4, h4⟩) => some (.choice c a b, ⟨r4, by omega⟩)
termination_by (s.length, 13)

/-- An operand of a level: operands of the next level with operators of this one between them. -/
def operand (level : Nat) (s : List Token) : Option (Expr × Shorter s) :=
  if level < 5 then
    match operand (level + 1) s with
    | none => none
    | some (a, ⟨r, hr⟩) =>
        match operators level a r with
        | none => none
        | some (e, ⟨r', hr'⟩) => some (e, ⟨r', Nat.lt_of_le_of_lt hr' hr⟩)
  else
    match s with
    | [] => none
    | t :: r =>
        match unaryAt? (t :: r) with
        | some op =>
            match atom r with
            | none => none
            | some (e, ⟨r', h⟩) => some (.unary op e, ⟨r', Text.lt_length_cons_of_lt _ h⟩)
        | none => atom (t :: r)
termination_by (s.length, 12 - min level 5)

/-- The operators of a level behind a first operand, with the operands behind them. -/
def operators (level : Nat) (a : Expr) (s : List Token) :
    Option (Expr × { r : List Token // r.length ≤ s.length }) :=
  match s with
  | .mark m :: r =>
      match binaryAt? level m with
      | none => some (a, ⟨.mark m :: r, Nat.le_refl _⟩)
      | some op =>
          match operand (level + 1) r with
          | none => none
          | some (b, ⟨r', h⟩) =>
              if level = comparisonLevel then
                some (.binary op a b, ⟨r', Nat.le_succ_of_le (Nat.le_of_lt h)⟩)
              else
                match operators level (.binary op a b) r' with
                | none => none
                | some (e, ⟨rest, h'⟩) =>
                    some (e, ⟨rest, by simp only [List.length_cons]; omega⟩)
  | s => some (a, ⟨s, Nat.le_refl _⟩)
termination_by (s.length, 0)

/-- An operand without operators. -/
def atom (s : List Token) : Option (Expr × Shorter s) :=
  match s with
  | [] => none
  | .name f :: .mark "(" :: r =>
      match elements ")" r with
      | none => none
      | some (args, ⟨r1, h1⟩) =>
          (access (.call f args) r1).map fun (e, ⟨rest, h⟩) =>
            (e, ⟨rest, by simp only [List.length_cons]; omega⟩)
  | .name x :: r =>
      (access (.variable x) r).map fun (e, ⟨rest, h⟩) => (e, ⟨rest, Nat.lt_succ_of_le h⟩)
  | .mark "(" :: r =>
      match expression r with
      | none => none
      | some (e, ⟨r1, h1⟩) =>
          match expect? ")" r1 with
          | none => none
          | some ⟨r2, h2⟩ =>
              (access e r2).map fun (e, ⟨rest, h⟩) =>
                (e, ⟨rest, by simp only [List.length_cons]; omega⟩)
  | .mark "[" :: r =>
      match elements "]" r with
      | none => none
      | some (items, ⟨r1, h1⟩) =>
          (access (.list items) r1).map fun (e, ⟨rest, h⟩) =>
            (e, ⟨rest, by simp only [List.length_cons]; omega⟩)
  | .mark "\x7b" :: r =>
      match mapEntries r with
      | none => none
      | some (entries, ⟨r1, h1⟩) =>
          (access (.map entries) r1).map fun (e, ⟨rest, h⟩) =>
            (e, ⟨rest, by simp only [List.length_cons]; omega⟩)
  | t :: r =>
      match literal? t with
      | none => none
      | some e => (access e r).map fun (e, ⟨rest, h⟩) => (e, ⟨rest, Nat.lt_succ_of_le h⟩)
termination_by (s.length, 1)

/-- What stands behind an operand: attributes, method calls and indices. -/
def access (e : Expr) (s : List Token) :
    Option (Expr × { r : List Token // r.length ≤ s.length }) :=
  match s with
  | .mark "." :: .name f :: .mark "(" :: r =>
      match elements ")" r with
      | none => none
      | some (args, ⟨r1, h1⟩) =>
          (access (.method e f args) r1).map fun (e, ⟨rest, h⟩) =>
            (e, ⟨rest, by simp only [List.length_cons]; omega⟩)
  | .mark "." :: .name x :: r =>
      (access (.field e x) r).map fun (e, ⟨rest, h⟩) =>
        (e, ⟨rest, by simp only [List.length_cons]; omega⟩)
  | .mark "[" :: r =>
      match expression r with
      | none => none
      | some (i, ⟨r1, h1⟩) =>
          match expect? "]" r1 with
          | none => none
          | some ⟨r2, h2⟩ =>
              (access (.item e i) r2).map fun (e, ⟨rest, h⟩) =>
                (e, ⟨rest, by simp only [List.length_cons]; omega⟩)
  | s => some (e, ⟨s, Nat.le_refl _⟩)
termination_by (s.length, 0)

/-- Expressions with commas between them, up to a closing mark. -/
def elements (close : String) (s : List Token) : Option (List Expr × Shorter s) :=
  match expect? close s with
  | some rest => some ([], rest)
  | none =>
      match expression s with
      | none => none
      | some (e, ⟨r, hr⟩) =>
          match expect? close r with
          | some ⟨r1, h1⟩ => some ([e], ⟨r1, Nat.lt_trans h1 hr⟩)
          | none =>
              match expect? "," r with
              | none => none
              | some ⟨r1, h1⟩ =>
                  match elements close r1 with
                  | none => none
                  | some (es, ⟨r2, h2⟩) => some (e :: es, ⟨r2, by omega⟩)
termination_by (s.length, 14)

/-- The entries of a map up to its closing brace. -/
def mapEntries (s : List Token) : Option (List (Expr × Expr) × Shorter s) :=
  match expect? "\x7d" s with
  | some rest => some ([], rest)
  | none =>
      match expression s with
      | none => none
      | some (k, ⟨r, hr⟩) =>
          match expect? ":" r with
          | none => none
          | some ⟨r1, h1⟩ =>
              match expression r1 with
              | none => none
              | some (v, ⟨r2, h2⟩) =>
                  match expect? "\x7d" r2 with
                  | some ⟨r3, h3⟩ => some ([(k, v)], ⟨r3, by omega⟩)
                  | none =>
                      match expect? "," r2 with
                      | none => none
                      | some ⟨r3, h3⟩ =>
                          match mapEntries r3 with
                          | none => none
                          | some (es, ⟨r4, h4⟩) => some ((k, v) :: es, ⟨r4, by omega⟩)
termination_by (s.length, 14)

end

/-- The expression of a list of tokens. -/
def ofTokens? (s : List Token) : Option Expr :=
  match expression s with
  | some (e, ⟨[], _⟩) => some e
  | _ => none

/-- The expression that a text denotes. -/
def read? (text : String) : Option Expr :=
  (tokens text.toList).bind ofTokens?

end Expression
end Warrant
