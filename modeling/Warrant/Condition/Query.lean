import Warrant.Condition.Equality
import Warrant.Condition.Error
import Warrant.Condition.Path
import Warrant.Languages

/-!
# Condition queries

Whether a query holds in a context.  The entries of a query are looked at in order, up to the first
one that fails or is faulty.  `$and`, `$or` and `$nor` combine queries, `$cel` holds an
expression, and every other entry asks something of the field at the end of a path: that it is
equal to a value, or what an object of operators says.  A field that holds a list is also equal to
what one of its items is equal to.

The patterns of `$regex` and the expressions of `$cel` belong to other languages, which are a
parameter.

**Results.**
* `matchesQuery_nil`: the empty query holds.
* `matchesQuery_cons`: entries are looked at one after the other.
-/

namespace Warrant
namespace Condition

/-- Whether a key is that of an operator. -/
def isOperatorKey (key : String) : Bool :=
  key.toList.head? == some '$'

/-- Whether an object consists of operators. -/
def isOperatorObject (o : Object) : Bool :=
  !o.isEmpty && o.all fun e => isOperatorKey e.1

/-- Whether a field is equal to a value, as a whole or in one of its items.  A field that is not
there is equal to null. -/
def equalsField (actual : Option Json) (expected : Json) : Bool :=
  match actual with
  | none => equal .null expected
  | some v =>
      equal v expected ||
        match v with
        | .array items => items.any (equal · expected)
        | _ => false

/-- Whether a test holds of a field, or of one of its items if it is a list. -/
def anyElement (actual : Option Json) (test : Json → Bool) : Bool :=
  match actual with
  | none => false
  | some (.array items) => items.any test
  | some v => test v

/-- The order of two numbers or two texts. -/
def order? (v w : Json) : Option Ordering :=
  match v, w with
  | .number m, .number n => some (compare m.value n.value)
  | .string s, .string t => some (compare s t)
  | _, _ => none

/-- Whether a field, or one of its items, stands in an order to a value. -/
def compares (actual : Option Json) (operand : Json) (accept : Ordering → Bool) : Bool :=
  anyElement actual fun v => (order? v operand).any accept

/-- Whether the options of a pattern ask for no regard to case. -/
def ignoresCase (siblings : Object) : Bool :=
  ((siblings.find? "$options").bind Json.asString?).any (·.toList.contains 'i')

/-- The items of a field that is a list. -/
def itemsOf (actual : Option Json) : List Json :=
  match actual with
  | some (.array items) => items
  | _ => []

/-- Whether a field is a list of a given length. -/
def hasSize (actual : Option Json) (n : Nat) : Bool :=
  match actual with
  | some (.array items) => items.length == n
  | _ => false

/-- Whether a field is a list that has all the given values as items. -/
def hasAll (actual : Option Json) (required : List Json) : Bool :=
  match actual with
  | some (.array items) => required.all fun r => items.any (equal · r)
  | _ => false

section Languages

variable [Languages]

/-- The items of an operand that must be a list. -/
def listOperand (operator : String) (operand : Json) : Except QueryError (List Json) :=
  match operand with
  | .array items => .ok items
  | _ => .error (.invalidOperand operator .list)

/-- Refuses an operand that is no list of objects. -/
def checkQueries (operator : String) (operand : Json) : Except QueryError Unit := do
  let items ← listOperand operator operand
  if items.all Json.isObject then return () else throw (.invalidOperand operator .listOfObjects)

/-- The pattern that an operand is. -/
def patternOperand (operator : String) (operand : Json) (siblings : Object) :
    Except QueryError Languages.patterns.Pattern :=
  match operand with
  | .string text =>
      match Languages.patterns.compile (ignoresCase siblings) text with
      | some pattern => .ok pattern
      | none => .error (.invalidOperand operator .pattern)
  | _ => .error (.invalidOperand operator .text)

/-- Whether a test holds of one of some values; the first fault before that counts. -/
def anyHolds (test : Json → Except QueryError Bool) : List Json → Except QueryError Bool
  | [] => .ok false
  | v :: rest => do
      if ← test v then return true else anyHolds test rest

/-- What one operator says about a field.  The last two arguments are what the operand says when
it stands for a field, and when it stands for a query. -/
def applyOperator (operator : String) (operand : Json) (actual : Option Json) (siblings : Object)
    (asField : Option Json → Except QueryError Bool) (asQuery : Json → Except QueryError Bool) :
    Except QueryError Bool :=
  match operator with
  | "$eq" => .ok (equalsField actual operand)
  | "$ne" => .ok (!equalsField actual operand)
  | "$gt" => .ok (compares actual operand (· == .gt))
  | "$gte" => .ok (compares actual operand (· != .lt))
  | "$lt" => .ok (compares actual operand (· == .lt))
  | "$lte" => .ok (compares actual operand (· != .gt))
  | "$in" => do return (← listOperand operator operand).any (equalsField actual)
  | "$nin" => do return !(← listOperand operator operand).any (equalsField actual)
  | "$exists" =>
      match operand with
      | .bool expected => .ok (actual.isSome == expected)
      | _ => .error (.invalidOperand operator .boolean)
  | "$regex" => do
      let pattern ← patternOperand operator operand siblings
      return anyElement actual fun v => v.asString?.any (Languages.patterns.matchesIn pattern)
  | "$options" => .ok true
  | "$size" =>
      match operand.asCount? with
      | some n => .ok (hasSize actual n)
      | none => .error (.invalidOperand operator .count)
  | "$all" => do return hasAll actual (← listOperand operator operand)
  | "$elemMatch" =>
      match operand with
      | .object query =>
          anyHolds
            (fun item => if isOperatorObject query then asField (some item) else asQuery item)
            (itemsOf actual)
      | _ => .error (.invalidOperand operator .object)
  | "$not" => do return !(← asField actual)
  | _ => .error (.unknownOperator operator)

/-- What an entry with an operator as its key says about a context.  The last two arguments are
whether all and whether any of the queries in its list hold. -/
def applyCombinator (key : String) (condition : Json) (context : Json)
    (all any : Json → Except QueryError Bool) : Except QueryError Bool :=
  match key with
  | "$and" => do checkQueries key condition; all context
  | "$or" => do checkQueries key condition; any context
  | "$nor" => do checkQueries key condition; return !(← any context)
  | "$cel" =>
      match condition with
      | .string text => (Languages.expressions.test text context).mapError .expression
      | _ => .error (.invalidOperand key .text)
  | _ => .error (.unknownOperator key)

mutual

/-- Whether all entries of a query hold. -/
def matchesEntries : List (String × Json) → Json → Except QueryError Bool
  | [], _ => .ok true
  | (key, condition) :: rest, context => do
      let holds ←
        if isOperatorKey key then
          applyCombinator key condition context (matchesAll condition) (matchesAny condition)
        else
          matchesField condition (resolve context key)
      if holds then matchesEntries rest context else return false
termination_by structural q => q

/-- Whether an object holds as a query. -/
def matchesObject : Json → Json → Except QueryError Bool
  | .object query, context => matchesEntries query context
  | _, _ => .ok true
termination_by structural q => q

/-- Whether all queries of a list hold. -/
def matchesAll : Json → Json → Except QueryError Bool
  | .array queries, context => allItems queries context
  | _, _ => .ok true
termination_by structural q => q

/-- Whether one of the queries of a list holds. -/
def matchesAny : Json → Json → Except QueryError Bool
  | .array queries, context => anyItem queries context
  | _, _ => .ok false
termination_by structural q => q

/-- Whether all items hold as queries. -/
def allItems : List Json → Json → Except QueryError Bool
  | [], _ => .ok true
  | query :: rest, context => do
      if ← matchesObject query context then allItems rest context else return false
termination_by structural q => q

/-- Whether one of the items holds as a query. -/
def anyItem : List Json → Json → Except QueryError Bool
  | [], _ => .ok false
  | query :: rest, context => do
      if ← matchesObject query context then return true else anyItem rest context
termination_by structural q => q

/-- Whether a field meets a condition: an object of operators, or a value to be equal to. -/
def matchesField : Json → Option Json → Except QueryError Bool
  | .object entries, actual =>
      if isOperatorObject entries then matchesOperators entries entries actual
      else .ok (equalsField actual (.object entries))
  | expected, actual => .ok (equalsField actual expected)
termination_by structural q => q

/-- Whether a field meets the operators of an object. -/
def matchesOperators (siblings : Object) :
    List (String × Json) → Option Json → Except QueryError Bool
  | [], _ => .ok true
  | (operator, operand) :: rest, actual => do
      let holds ← applyOperator operator operand actual siblings (matchesField operand)
        (matchesObject operand)
      if holds then matchesOperators siblings rest actual else return false
termination_by structural q => q

end

/-- Whether a query holds in a context. -/
def matchesQuery (query : Object) (context : Json) : Except QueryError Bool :=
  matchesEntries query context

theorem matchesQuery_nil (context : Json) : matchesQuery [] context = .ok true := by
  simp [matchesQuery, matchesEntries]

theorem matchesQuery_cons (key : String) (condition : Json) (rest : Object) (context : Json) :
    matchesQuery ((key, condition) :: rest) context = (do
      let holds ←
        if isOperatorKey key then
          applyCombinator key condition context (matchesAll condition) (matchesAny condition)
        else
          matchesField condition (resolve context key)
      if holds then matchesQuery rest context else return false) := by
  simp [matchesQuery, matchesEntries]

end Languages

end Condition
end Warrant
