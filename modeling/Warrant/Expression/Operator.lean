import Warrant.Expression.Basic
import Warrant.Expression.Error
import Warrant.Expression.Value
import Warrant.Number.Bounds

/-!
# Operators of expressions

Arithmetic is defined for two signed integers, two unsigned integers, or a fractional number with
any number, but not across the two sorts of integers; results must fit 64 bits.  Texts, lists and
maps can be added.  Equality is defined for all values, order only for comparable ones.
-/

namespace Warrant
namespace Expression

namespace Value

/-- A signed result, which must fit 64 bits. -/
def signed (n : Int) : Except EvalError Value :=
  if FitsSigned n then .ok (.int n) else .error .outOfRange

/-- An unsigned result, which must fit 64 bits. -/
def unsigned (n : Int) : Except EvalError Value :=
  if FitsUnsigned n then .ok (.uint n.toNat) else .error .outOfRange

/-- An operation on two numbers, given for integers and for binary64 numbers. -/
def arithmetic (onInts : Int → Int → Option Int) (onFloats : Extended → Extended → Extended)
    (v w : Value) : Except EvalError Value :=
  match v, w with
  | .int m, .int n =>
      match onInts m n with
      | some r => signed r
      | none => .error .outOfRange
  | .uint m, .uint n =>
      match onInts m n with
      | some r => unsigned r
      | none => .error .outOfRange
  | .int _, .uint _ => .error .wrongOperand
  | .uint _, .int _ => .error .wrongOperand
  | v, w =>
      match v.toFloat?, w.toFloat? with
      | some x, some y => .ok (.float (onFloats x y))
      | _, _ => .error .wrongOperand

/-- The sum; texts and lists are put together, and of two maps the second one prevails. -/
def add (v w : Value) : Except EvalError Value :=
  match v, w with
  | .text s, .text t => .ok (.text (s ++ t))
  | .list xs, .list ys => .ok (.list (xs ++ ys))
  | .map xs, .map ys => .ok (.map (ys.foldl (fun m e => insert m e.1 e.2) xs))
  | v, w => arithmetic (fun m n => some (m + n)) Extended.add v w

/-- The difference. -/
def subtract : Value → Value → Except EvalError Value :=
  arithmetic (fun m n => some (m - n)) Extended.sub

/-- The product. -/
def multiply : Value → Value → Except EvalError Value :=
  arithmetic (fun m n => some (m * n)) Extended.mul

/-- The quotient; integers are divided toward zero. -/
def divide : Value → Value → Except EvalError Value :=
  arithmetic (fun m n => if n = 0 then none else some (m.tdiv n)) Extended.div

/-- The remainder, with the sign of the first number. -/
def remainder : Value → Value → Except EvalError Value :=
  arithmetic (fun m n => if n = 0 then none else some (m.tmod n)) Extended.rem

/-- A comparison of two values that have an order. -/
def compareBy (accept : Ordering → Bool) (v w : Value) : Except EvalError Value :=
  match order? v w with
  | some o => .ok (.bool (accept o))
  | none => .error .notComparable

/-- Whether one text is part of another one. -/
def isPartOf (s t : List Char) : Bool :=
  s.isPrefixOf t ||
    match t with
    | [] => false
    | _ :: r => isPartOf s r

/-- Membership: of a text in a text, of an item in a list, of a key in a map. -/
def memberOf (v w : Value) : Except EvalError Value :=
  match v, w with
  | .text s, .text t => .ok (.bool (isPartOf s.toList t.toList))
  | v, .list items => .ok (.bool (items.any (equal v)))
  | v, .map entries => .ok (.bool (v.toKey?.any fun k => (find? entries k).isSome))
  | _, _ => .error .notComparable

/-- The operator between two values.  Both operands of a logical operator are values here;
which of them are evaluated is decided elsewhere. -/
def applyBinary (op : BinaryOp) (v w : Value) : Except EvalError Value :=
  match op with
  | .or => .ok (if v.isTruthy then v else w)
  | .and => .ok (.bool (v.isTruthy && w.isTruthy))
  | .less => compareBy (· == .lt) v w
  | .lessEqual => compareBy (· != .gt) v w
  | .greater => compareBy (· == .gt) v w
  | .greaterEqual => compareBy (· != .lt) v w
  | .equal => .ok (.bool (equal v w))
  | .notEqual => .ok (.bool (!equal v w))
  | .within => memberOf v w
  | .add => add v w
  | .subtract => subtract v w
  | .multiply => multiply v w
  | .divide => divide v w
  | .remainder => remainder v w

/-- The operator in front of a value. -/
def applyUnary (op : UnaryOp) (v : Value) : Except EvalError Value :=
  match op, v with
  | .not, v => .ok (.bool (!v.isTruthy))
  | .truth, v => .ok (.bool v.isTruthy)
  | .minus, .int n => signed (-n)
  | .minus, .float x => .ok (.float x.neg)
  | .minus, _ => .error .wrongOperand
  | .keep, v => if v.toFloat?.isSome then .ok v else .error .wrongOperand

/-- The item of a list, text or map.  A text gives one byte, if a character is only that; what is
not there gives null. -/
def item (v i : Value) : Except EvalError Value :=
  match v, i with
  | .list items, .int n => .ok (if 0 ≤ n then (items[n.toNat]?).getD .null else .null)
  | .text s, .int n =>
      if 0 ≤ n then
        match byteAt? n.toNat s.toList with
        | some c => .ok (.text (String.ofList [c]))
        | none => .ok .null
      else .ok .null
  | .map entries, i =>
      match i.toKey? with
      | some k => .ok ((find? entries k).getD .null)
      | none => .error .wrongIndex
  | _, _ => .error .wrongIndex
where
  /-- The character whose only byte is the one at a given place of the UTF-8 form. -/
  byteAt? : Nat → List Char → Option Char
    | _, [] => none
    | 0, c :: _ => if c.utf8Size = 1 then some c else none
    | n + 1, c :: r => if c.utf8Size ≤ n + 1 then byteAt? (n + 1 - c.utf8Size) r else none
  termination_by _ s => s.length

end Value
end Expression
end Warrant
