import Warrant.Expression.Function
import Warrant.Expression.Reader

/-!
# Evaluation of expressions

An expression is evaluated with values for its variables.  Both operands of `&&` are always
evaluated and the result is a boolean; `||` gives its left value if that is true and otherwise its
right value.  An attribute is looked up in a map; where there is none, the name of a function
stands for that function.
-/

namespace Warrant
namespace Expression

/-- The value of a variable. -/
def lookup (name : String) (bindings : Bindings) : Except EvalError Value :=
  match bindings.lookup name with
  | some v => .ok v
  | none => .error (.unknownName name)

/-- The attribute of a value. -/
def fieldOf (v : Value) (name : String) : Except EvalError Value :=
  let found := match v with
    | .map entries => Value.find? entries (.text name)
    | _ => none
  match found with
  | some w => .ok w
  | none => if isFunction name then .ok (.function name v) else .error (.missingAttribute name)

/-- The name that an expression consists of. -/
def nameOf? : Expr → Option String
  | .variable name => some name
  | _ => none

mutual

/-- The value of an expression. -/
def eval : Expr → Bindings → Except EvalError Value
  | .null, _ => .ok .null
  | .bool b, _ => .ok (.bool b)
  | .int n, _ => .ok (.int n)
  | .uint n, _ => .ok (.uint n)
  | .float x, _ => .ok (.float x)
  | .text s, _ => .ok (.text s)
  | .variable name, bindings => lookup name bindings
  | .list items, bindings => (evalItems items bindings).map .list
  | .map entries, bindings =>
      (evalEntries entries bindings).map fun es =>
        .map (es.foldl (fun m e => Value.insert m e.1 e.2) [])
  | .field target name, bindings => do fieldOf (← eval target bindings) name
  | .item target index, bindings => do
      let v ← eval target bindings
      let i ← eval index bindings
      v.item i
  | .call f args, bindings =>
      if isFunction f then applyFunction f none (suspend args) bindings
      else .error (.unknownName f)
  | .method target f args, bindings =>
      if isFunction f then do
        let v ← eval target bindings
        applyFunction f (some v) (suspend args) bindings
      else .error (.unknownName f)
  | .unary op a, bindings => do (← eval a bindings).applyUnary op
  | .binary op a b, bindings => do
      let v ← eval a bindings
      if op = .or ∧ v.isTruthy then return v
      let w ← eval b bindings
      Value.applyBinary op v w
  | .choice c a b, bindings => do
      if (← eval c bindings).isTruthy then eval a bindings else eval b bindings

/-- The values of several expressions. -/
def evalItems : List Expr → Bindings → Except EvalError (List Value)
  | [], _ => .ok []
  | e :: rest, bindings => do
      let v ← eval e bindings
      let vs ← evalItems rest bindings
      return v :: vs

/-- The entries of a map; every key must be a value that can be one. -/
def evalEntries : List (Expr × Expr) → Bindings → Except EvalError (List (Key × Value))
  | [], _ => .ok []
  | (k, v) :: rest, bindings => do
      match (← eval k bindings).toKey? with
      | none => throw .wrongArgument
      | some key =>
          let value ← eval v bindings
          let es ← evalEntries rest bindings
          return (key, value) :: es

/-- The arguments of a call, to be evaluated when they are needed. -/
def suspend : List Expr → List Argument
  | [] => []
  | e :: rest => ⟨nameOf? e, fun bindings => eval e bindings⟩ :: suspend rest

end

/-- The name under which an expression sees its whole context. -/
def contextName : String := "context"

/-- The bindings that a context gives: the whole of it, and each entry if it is an object. -/
def bindingsOf (context : Json) : Bindings :=
  (contextName, Value.ofJson context) ::
    (context.asObject?.getD []).map fun e => (e.1, Value.ofJson e.2)

/-- Whether an expression holds in a context. -/
def holds (e : Expr) (context : Json) : Except Error Bool :=
  match eval e (bindingsOf context) with
  | .ok (.bool b) => .ok b
  | .ok _ => .error .notBoolean
  | .error cause => .error (.noValue cause)

/-- The expression of a text. -/
def compile (text : String) : Except Error Expr :=
  match read? text with
  | some e => .ok e
  | none => .error .notReadable

end Expression
end Warrant
