import Warrant.Expression.Operator
import Warrant.Regex.Reader

/-!
# Functions of expressions

The functions that an expression can call.  Most of them act on a receiver: the value in front of
the point of a method call, or else the first argument.  `size`, `has` and `max` act on arguments
only.  An argument is evaluated when its function asks for it, and the functions that go through a
list evaluate one argument for each item, with a variable for the item.
-/

namespace Warrant
namespace Expression

/-- The values of the variables in sight, the innermost first. -/
abbrev Bindings := List (String × Value)

/-- An argument: the name that it consists of, if it is one, and how it is evaluated. -/
structure Argument where
  name : Option String
  run : Bindings → Except EvalError Value

/-- The names of the functions. -/
def functionNames : List String :=
  ["contains", "size", "has", "map", "filter", "all", "max", "startsWith", "endsWith", "matches",
    "string", "bytes", "double", "exists", "exists_one", "int", "uint", "duration", "timestamp"]

/-- Whether a name is that of a function. -/
def isFunction (name : String) : Bool :=
  functionNames.contains name

/-- The value of the first argument, and the other arguments. -/
def firstArgument (arguments : List Argument) (bindings : Bindings) :
    Except EvalError (Value × List Argument) :=
  match arguments with
  | [] => .error .wrongArgument
  | a :: rest => (a.run bindings).map fun v => (v, rest)

/-- The receiver, and the arguments behind it.  Whatever is wrong with a receiver that stands as
the first argument counts as a missing receiver. -/
def receiver (target : Option Value) (arguments : List Argument) (bindings : Bindings) :
    Except EvalError (Value × List Argument) :=
  match target with
  | some v => .ok (v, arguments)
  | none => (firstArgument arguments bindings).mapError fun _ => .wrongArgument

/-- The text that a value is. -/
def textOf (v : Value) : Except EvalError String :=
  match v with
  | .text s => .ok s
  | _ => .error .wrongArgument

/-- The size of a list, of a map, or of a text in bytes. -/
def sizeOf? : Value → Option Nat
  | .list items => some items.length
  | .map entries => some entries.length
  | .text s => some s.utf8ByteSize
  | _ => none

/-- Whether a list holds an item, a map a key, or a text another one. -/
def containsValue (v w : Value) : Except EvalError Bool :=
  match v, w with
  | .list items, w => .ok (items.any (Value.equal w))
  | .map entries, w =>
      match w.toKey? with
      | some k => .ok (Value.find? entries k).isSome
      | none => .error .wrongArgument
  | .text s, .text t => .ok (Value.isPartOf t.toList s.toList)
  | _, _ => .ok false

/-- The value as a text. -/
def toText (v : Value) : Except EvalError Value :=
  match v with
  | .text s => .ok (.text s)
  | .int n => .ok (.text (String.ofList (Decimal.signText (n < 0) ++ Decimal.digitsOf n.natAbs)))
  | .uint n => .ok (.text (String.ofList (Decimal.digitsOf n)))
  | .float x => .ok (.text x.plainText)
  | _ => .error .wrongArgument

/-- The integer of a text with an optional sign. -/
def integerOf? (s : String) : Option Int :=
  match s.toList with
  | '+' :: '-' :: _ => none
  | '+' :: digits => Decimal.readInteger? digits
  | digits => Decimal.readInteger? digits

/-- The value as a signed integer. -/
def toSigned (v : Value) : Except EvalError Value :=
  match v with
  | .int n => .ok (.int n)
  | .uint n => Value.signed n
  | .float x =>
      match x.truncate? (-signedBound) signedBound with
      | some n => .ok (.int n)
      | none => .error .outOfRange
  | .text s =>
      match integerOf? s with
      | some n => Value.signed n
      | none => .error .wrongArgument
  | _ => .error .wrongArgument

/-- The value as an unsigned integer. -/
def toUnsigned (v : Value) : Except EvalError Value :=
  match v with
  | .int n => Value.unsigned n
  | .uint n => .ok (.uint n)
  | .float x =>
      match x.truncate? 0 unsignedBound with
      | some n => .ok (.uint n.toNat)
      | none => .error .outOfRange
  | .text s =>
      match s.toList with
      | '-' :: _ => .error .wrongArgument
      | _ =>
          match integerOf? s with
          | some n => Value.unsigned n
          | none => .error .wrongArgument
  | _ => .error .wrongArgument

/-- The value as a binary64 number. -/
def toDouble (v : Value) : Except EvalError Value :=
  match v with
  | .text s =>
      match Extended.read? s.toList with
      | some x => .ok (.float x)
      | none => .error .wrongArgument
  | v =>
      match v.toFloat? with
      | some x => .ok (.float x)
      | none => .error .wrongArgument

/-- The greatest of some values: of equal ones the last. -/
def greatest (v : Value) : List Value → Except EvalError Value
  | [] => .ok v
  | w :: rest =>
      match v.order? w with
      | some .gt => greatest v rest
      | some _ => greatest w rest
      | none => .error .notComparable

/-- The greatest argument, or the greatest item of a list that is the only argument. -/
def maximum (values : List Value) : Except EvalError Value :=
  let candidates := match values with
    | [.list items] => items
    | vs => vs
  match candidates with
  | [] => .ok .null
  | v :: rest => greatest v rest

/-- Whether a value is the boolean that is asked for. -/
def isBool (b : Bool) (v : Value) : Bool :=
  match v with
  | .bool c => b == c
  | _ => false

/-- The values that an evaluation takes to true. -/
def keep (test : Value → Except EvalError Value) : List Value → Except EvalError (List Value)
  | [] => .ok []
  | v :: rest => do
      let kept := isBool true (← test v)
      let others ← keep test rest
      return if kept then v :: others else others

/-- How many values an evaluation takes to the given boolean; the count ends at `most`. -/
def countUpTo (b : Bool) (test : Value → Except EvalError Value) (most : Nat) :
    List Value → Except EvalError Nat
  | [] => .ok 0
  | v :: rest =>
      match most with
      | 0 => .ok 0
      | most + 1 => do
          if isBool b (← test v) then
            return (← countUpTo b test most rest) + 1
          else
            countUpTo b test (most + 1) rest

/-- The items of a list. -/
def itemsOf (v : Value) : Except EvalError (List Value) :=
  match v with
  | .list items => .ok items
  | _ => .error .wrongArgument

/-- The items of a list, or the keys of a map. -/
def membersOf (v : Value) : Except EvalError (List Value) :=
  match v with
  | .map entries => .ok (entries.map fun e => e.1.toValue)
  | v => itemsOf v

/-- The evaluation that binds a variable to a value, from the variable and the body that follow
the receiver. -/
def closure (arguments : List Argument) (bindings : Bindings) :
    Except EvalError (Value → Except EvalError Value) :=
  match arguments with
  | ⟨some x, _⟩ :: body :: _ => .ok fun v => body.run ((x, v) :: bindings)
  | _ => .error .wrongArgument

/-- A function on a receiver and the texts that it and the first argument are. -/
def onTexts (test : List Char → List Char → Except EvalError Bool) (target : Option Value)
    (arguments : List Argument) (bindings : Bindings) : Except EvalError Value := do
  let (v, rest) ← receiver target arguments bindings
  let s ← textOf v
  let (w, _) ← firstArgument rest bindings
  let t ← textOf w
  return .bool (← test s.toList t.toList)

/-- Whether a text has a match of a pattern. -/
def matchesPattern (s pattern : List Char) : Except EvalError Bool :=
  match Regex.parse? false (String.ofList pattern) with
  | some r => .ok (r.matchesIn (String.ofList s))
  | none => .error .wrongArgument

/-- Whether an argument has a value, if it fails at most by a missing attribute. -/
def hasValue (arguments : List Argument) (bindings : Bindings) : Except EvalError Value :=
  match firstArgument arguments bindings with
  | .ok _ => .ok (.bool true)
  | .error (.missingAttribute _) => .ok (.bool false)
  | .error e => .error e

/-- A function that goes through the members of its receiver. -/
def through (members : Value → Except EvalError (List Value))
    (finish : (Value → Except EvalError Value) → List Value → Except EvalError Value)
    (target : Option Value) (arguments : List Argument) (bindings : Bindings) :
    Except EvalError Value := do
  let (v, rest) ← receiver target arguments bindings
  let body ← closure rest bindings
  finish body (← members v)

/-- A function on its receiver alone. -/
def onReceiver (convert : Value → Except EvalError Value) (target : Option Value)
    (arguments : List Argument) (bindings : Bindings) : Except EvalError Value := do
  let (v, _) ← receiver target arguments bindings
  convert v

/-- The value of a function call. -/
def applyFunction (name : String) (target : Option Value) (arguments : List Argument)
    (bindings : Bindings) : Except EvalError Value :=
  match name with
  | "size" => do
      let (v, _) ← firstArgument arguments bindings
      match sizeOf? v with
      | some n => return .int n
      | none => throw .wrongArgument
  | "has" => hasValue arguments bindings
  | "max" => do maximum (← arguments.mapM (·.run bindings))
  | "contains" => do
      let (v, rest) ← receiver target arguments bindings
      let (w, _) ← firstArgument rest bindings
      return .bool (← containsValue v w)
  | "startsWith" => onTexts (fun s t => .ok (t.isPrefixOf s)) target arguments bindings
  | "endsWith" => onTexts (fun s t => .ok (t.isSuffixOf s)) target arguments bindings
  | "matches" => onTexts matchesPattern target arguments bindings
  | "string" => onReceiver toText target arguments bindings
  | "int" => onReceiver toSigned target arguments bindings
  | "uint" => onReceiver toUnsigned target arguments bindings
  | "double" => onReceiver toDouble target arguments bindings
  | "map" =>
      through itemsOf (fun body items => (items.mapM body).map .list) target arguments bindings
  | "filter" =>
      through itemsOf (fun body items => (keep body items).map .list) target arguments bindings
  | "all" =>
      through membersOf (fun body items => do
        return .bool ((← countUpTo false body 1 items) == 0)) target arguments bindings
  | "exists" =>
      through membersOf (fun body items => do
        return .bool ((← countUpTo true body 1 items) == 1)) target arguments bindings
  | "exists_one" =>
      through membersOf (fun body items => do
        return .bool ((← countUpTo true body 2 items) == 1)) target arguments bindings
  | _ => .error .wrongArgument

end Expression
end Warrant
