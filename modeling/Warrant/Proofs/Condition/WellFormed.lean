import Warrant.Proofs.Condition.Thorough

/-!
# Well-formed condition queries

Whether a query is well formed can be read off the query alone: its operators exist, and each of
their operands has the shape that the operator asks for.  What a part of a query has to be depends
on what it stands for: a query, a list of queries, a condition on a field, or a value that fields
are compared with.  This is its `Role`, and a part passes roles on to its own parts.

The loops of the evaluation all look at answers one after the other, up to the first fault or the
first answer that settles the matter.  They are one function, `untilSettled`, of the list of
answers, so where each part answers, the whole does.

**Results.**
* `untilSettled_of_forall_ok`, `untilSettled_map_congr`: without faults, a loop is settled iff some
  answer settles it, in whatever order they come.
* `matchesEntries_eq`, `matchesOperators_eq`, `allItems_eq`, `anyItem_eq`, `anyHolds_eq`: the loops.
* `wellFormed_query_iff`, `wellFormed_queries_iff`, `wellFormed_condition_object_iff`: what is well
  formed in each role.
* `matchesOperator_of_answered`: an operator whose operand has the right shape.
* `answered_of_wellFormed`: a well-formed part answers in its role, whatever it is asked about.
-/

namespace Warrant
namespace Condition

/-! Loops over answers. -/

section Languages

variable [Languages]

/-- Looks at answers up to the first fault or the first one that settles the matter. -/
def untilSettled (settling : Bool) : List (Except QueryError Bool) → Except QueryError Bool
  | [] => .ok !settling
  | answer :: rest => do
      if (← answer) == settling then return settling else untilSettled settling rest

/-- Without faults, the matter is settled iff some answer settles it. -/
theorem untilSettled_of_forall_ok
    (settling : Bool)
    {answers : List (Except QueryError Bool)}
    (h : ∀ answer ∈ answers, ∃ b, answer = .ok b) :
    ∃ b, untilSettled settling answers = .ok b ∧ (b = settling ↔ .ok settling ∈ answers) := by
  induction answers with
  | nil => exact ⟨!settling, rfl, by simp⟩
  | cons answer answers ih =>
      obtain ⟨⟨x, rfl⟩, hrest⟩ := List.forall_mem_cons.1 h
      by_cases hx : x = settling
      · subst hx
        refine ⟨x, ?_, by simp⟩
        simp [untilSettled, bind, Except.bind, pure, Except.pure]
      · obtain ⟨b, hb, hiff⟩ := ih hrest
        refine ⟨b, ?_, ?_⟩
        · simpa [untilSettled, bind, Except.bind, hx] using hb
        · have hne : (Except.ok settling : Except QueryError Bool) ≠ .ok x := by
            simpa using Ne.symm hx
          rw [hiff, List.mem_cons, or_iff_right hne]

section Map

variable {α β : Type} {f : α → Except QueryError Bool} {g : β → Except QueryError Bool}
  {xs : List α} {ys : List β}

theorem exists_untilSettled_map
    (settling : Bool)
    (h : ∀ x ∈ xs, ∃ b, f x = .ok b) :
    ∃ b, untilSettled settling (xs.map f) = .ok b := by
  obtain ⟨b, hb, -⟩ := untilSettled_of_forall_ok settling (List.forall_mem_map.2 h)
  exact ⟨b, hb⟩

/-- Without faults, it matters which answers there are, but not their order. -/
theorem untilSettled_map_congr
    (settling : Bool)
    (h : ∀ x ∈ xs, ∃ b, f x = .ok b)
    (hleft : ∀ x ∈ xs, ∃ y ∈ ys, f x = g y)
    (hright : ∀ y ∈ ys, ∃ x ∈ xs, f x = g y) :
    untilSettled settling (xs.map f) = untilSettled settling (ys.map g) := by
  have h' : ∀ y ∈ ys, ∃ b, g y = .ok b := by
    intro y hy
    obtain ⟨x, hx, hxy⟩ := hright y hy
    rw [← hxy]
    exact h x hx
  have hmem : ∀ answer, answer ∈ xs.map f ↔ answer ∈ ys.map g := by
    intro answer
    rw [List.mem_map, List.mem_map]
    constructor
    · rintro ⟨x, hx, rfl⟩
      obtain ⟨y, hy, hxy⟩ := hleft x hx
      exact ⟨y, hy, hxy.symm⟩
    · rintro ⟨y, hy, rfl⟩
      exact hright y hy
  obtain ⟨b, hb, hiff⟩ := untilSettled_of_forall_ok settling (List.forall_mem_map.2 h)
  obtain ⟨b', hb', hiff'⟩ := untilSettled_of_forall_ok settling (List.forall_mem_map.2 h')
  have heq : b = settling ↔ b' = settling := by rw [hiff, hiff', hmem]
  rw [hb, hb']
  revert heq
  cases b <;> cases b' <;> cases settling <;> simp

end Map

section Loops

variable {α : Type} {f : α → Except QueryError Bool} {loop : List α → Except QueryError Bool}

/-- A loop that goes on while answers are yes. -/
theorem eq_untilSettled_false
    (hnil : loop [] = .ok true)
    (hcons : ∀ x xs, loop (x :: xs) = (do if ← f x then loop xs else return false))
    (xs : List α) :
    loop xs = untilSettled false (xs.map f) := by
  induction xs with
  | nil => exact hnil
  | cons x xs ih =>
      rw [hcons, List.map_cons, untilSettled, ← ih]
      cases f x with
      | error e => rfl
      | ok y => cases y <;> rfl

/-- A loop that goes on while answers are no. -/
theorem eq_untilSettled_true
    (hnil : loop [] = .ok false)
    (hcons : ∀ x xs, loop (x :: xs) = (do if ← f x then return true else loop xs))
    (xs : List α) :
    loop xs = untilSettled true (xs.map f) := by
  induction xs with
  | nil => exact hnil
  | cons x xs ih =>
      rw [hcons, List.map_cons, untilSettled, ← ih]
      cases f x with
      | error e => rfl
      | ok y => cases y <;> rfl

theorem matchesEntries_eq
    (entries : List (String × Json))
    (context : Json) :
    matchesEntries entries context = untilSettled false (entries.map (matchesEntry context)) :=
  @eq_untilSettled_false _ _ _ (matchesEntries · context) (by simp [matchesEntries])
    (fun e rest => matchesEntries_cons e rest context) entries

theorem matchesOperators_eq
    (siblings : Object)
    (entries : List (String × Json))
    (actual : Option Json) :
    matchesOperators siblings entries actual =
      untilSettled false (entries.map (matchesOperator siblings actual)) :=
  @eq_untilSettled_false _ _ _ (matchesOperators siblings · actual) (by simp [matchesOperators])
    (fun e rest => matchesOperators_cons siblings e rest actual) entries

theorem allItems_eq
    (queries : List Json)
    (context : Json) :
    allItems queries context = untilSettled false (queries.map (matchesObject · context)) :=
  @eq_untilSettled_false _ _ _ (allItems · context) (by simp [allItems])
    (fun q rest => by simp only [allItems]) queries

theorem anyItem_eq
    (queries : List Json)
    (context : Json) :
    anyItem queries context = untilSettled true (queries.map (matchesObject · context)) :=
  @eq_untilSettled_true _ _ _ (anyItem · context) (by simp [anyItem])
    (fun q rest => by simp only [anyItem]) queries

theorem anyHolds_eq
    (test : Json → Except QueryError Bool)
    (items : List Json) :
    anyHolds test items = untilSettled true (items.map test) :=
  eq_untilSettled_true rfl (fun _ _ => rfl) items

end Loops

end Languages

/-! What the parts of a query stand for. -/

/-- What a part of a query stands for. -/
inductive Role where
  | query
  | queries
  | condition
  | literal
deriving DecidableEq

/-- Whether a value is an object of operators. -/
def isOperators : Json → Bool
  | .object entries => isOperatorObject entries
  | _ => false

/-- Whether a key combines queries. -/
def combinesQueries (key : String) : Bool :=
  key == "$and" || key == "$or" || key == "$nor"

/-- What the operand of an operator stands for. -/
def Role.ofOperand (operator : String) (operand : Json) : Role :=
  match operator with
  | "$not" => .condition
  | "$elemMatch" => if isOperators operand then .condition else .query
  | _ => .literal

namespace Role

/-- What the value of an entry stands for, in an object that stands for something. -/
def ofEntry (role : Role) (siblings : Object) (e : String × Json) : Role :=
  match role with
  | .query => if isOperatorKey e.1 then .queries else .condition
  | .condition => if isOperatorObject siblings then ofOperand e.1 e.2 else .literal
  | .queries | .literal => .literal

/-- What the items of a list stand for. -/
def ofItem : Role → Role
  | .queries => .query
  | _ => .literal

end Role

theorem Role.ofOperand_elemMatch (query : Object) :
    Role.ofOperand "$elemMatch" (.object query) =
      if isOperatorObject query then .condition else .query :=
  rfl

/-- Operands that are neither a condition nor asked of elements stand for themselves. -/
theorem Role.ofOperand_of_ne
    {operator : String}
    (hnot : operator ≠ "$not")
    (helem : operator ≠ "$elemMatch")
    (operand : Json) :
    Role.ofOperand operator operand = .literal := by
  unfold Role.ofOperand
  split <;> first | rfl | contradiction

/-- What an operator asks of its operand. -/
inductive Shape where
  | anything
  | condition
  | list
  | boolean
  | count
  | pattern
  | element
deriving DecidableEq

namespace Shape

/-- All shapes. -/
def all : List Shape :=
  [anything, condition, list, boolean, count, pattern, element]

/-- The operators that ask for a shape. -/
def operators : Shape → List String
  | anything => ["$eq", "$ne", "$gt", "$gte", "$lt", "$lte", "$options"]
  | condition => ["$not"]
  | list => ["$in", "$nin", "$all"]
  | boolean => ["$exists"]
  | count => ["$size"]
  | pattern => ["$regex"]
  | element => ["$elemMatch"]

theorem mem_all (shape : Shape) : shape ∈ all := by
  cases shape <;> decide

end Shape

theorem Role.ofOperand_of_shape
    {shape : Shape} {operator : String}
    (hcondition : shape ≠ .condition)
    (helement : shape ≠ .element)
    (hop : operator ∈ shape.operators)
    (operand : Json) :
    Role.ofOperand operator operand = .literal := by
  apply Role.ofOperand_of_ne
  · rintro rfl
    revert hcondition hop
    cases shape <;> decide
  · rintro rfl
    revert helement hop
    cases shape <;> decide

section Languages

variable [Languages]

/-- Whether an operand has a shape; a pattern is a text that compiles. -/
def Shape.fits (siblings : Object) : Shape → Json → Bool
  | anything, _ | condition, _ => true
  | list, v => v.asArray?.isSome
  | boolean, v => v.asBool?.isSome
  | count, v => v.asCount?.isSome
  | pattern, v => v.asString?.any fun text =>
      (Languages.patterns.compile (ignoresCase siblings) text).isSome
  | element, v => v.isObject

/-- Whether an operator exists and its operand has the shape that it asks for. -/
def operandFits (siblings : Object) (operator : String) (operand : Json) : Bool :=
  Shape.all.any fun shape => shape.operators.contains operator && shape.fits siblings operand

theorem operandFits_iff
    {siblings : Object} {operator : String} {operand : Json} :
    operandFits siblings operator operand = true ↔
      ∃ shape : Shape, operator ∈ shape.operators ∧ shape.fits siblings operand = true := by
  simp [operandFits, Shape.mem_all]

/-- Whether an entry may stand in an object, as far as its own value is not looked into: of a
query, the operators combine queries; of a condition, every operator fits its operand. -/
def Role.admits (role : Role) (siblings : Object) (e : String × Json) : Bool :=
  match role with
  | .query => !isOperatorKey e.1 || combinesQueries e.1
  | .condition => !isOperatorObject siblings || operandFits siblings e.1 e.2
  | .queries | .literal => true

mutual

/-- Whether a value is well formed in a role. -/
def wellFormed : Role → Json → Bool
  | role, .object entries => role != .queries && wellFormedEntries role entries entries
  | role, .array items => role != .query && wellFormedItems role.ofItem items
  | role, _ => role != .query && role != .queries
termination_by structural _ v => v

/-- Whether the entries of an object are well formed. -/
def wellFormedEntries (role : Role) (siblings : Object) : List (String × Json) → Bool
  | [] => true
  | (key, value) :: rest =>
      role.admits siblings (key, value) && wellFormed (role.ofEntry siblings (key, value)) value &&
        wellFormedEntries role siblings rest
termination_by structural entries => entries

/-- Whether all items are well formed in a role. -/
def wellFormedItems (role : Role) : List Json → Bool
  | [] => true
  | v :: rest => wellFormed role v && wellFormedItems role rest
termination_by structural items => items

end

theorem wellFormedEntries_iff
    {role : Role} {siblings : Object}
    {entries : List (String × Json)} :
    wellFormedEntries role siblings entries = true ↔
      ∀ e ∈ entries, role.admits siblings e = true ∧
        wellFormed (role.ofEntry siblings e) e.2 = true := by
  induction entries with
  | nil => simp [wellFormedEntries]
  | cons e entries ih =>
      obtain ⟨key, value⟩ := e
      rw [wellFormedEntries, Bool.and_eq_true, Bool.and_eq_true, ih, List.forall_mem_cons]

theorem wellFormed_object_iff
    {role : Role} {entries : Object} :
    wellFormed role (.object entries) = true ↔
      role ≠ .queries ∧ ∀ e ∈ entries, role.admits entries e = true ∧
        wellFormed (role.ofEntry entries e) e.2 = true := by
  rw [wellFormed, Bool.and_eq_true, wellFormedEntries_iff, bne_iff_ne]

theorem wellFormed_array_iff
    {role : Role} {items : List Json} :
    wellFormed role (.array items) = true ↔
      role ≠ .query ∧ ∀ v ∈ items, wellFormed role.ofItem v = true := by
  rw [wellFormed, Bool.and_eq_true, bne_iff_ne]
  refine and_congr_right fun _ => ?_
  induction items with
  | nil => simp [wellFormedItems]
  | cons v items ih => rw [wellFormedItems, Bool.and_eq_true, ih, List.forall_mem_cons]

/-- Values that fields are compared with may be anything. -/
theorem wellFormed_literal (v : Json) : wellFormed .literal v = true := by
  induction v using Json.induction with
  | array items ih => exact wellFormed_array_iff.2 ⟨by simp, ih⟩
  | object entries ih => exact wellFormed_object_iff.2 ⟨by simp, fun e he => ⟨rfl, ih e he⟩⟩
  | _ => simp [wellFormed]

/-- What is well formed as a query is an object, the operators in which combine well-formed
queries and the fields in which have well-formed conditions. -/
theorem wellFormed_query_iff
    {v : Json} :
    wellFormed .query v = true ↔ ∃ entries, v = .object entries ∧ ∀ e ∈ entries,
      if isOperatorKey e.1 then combinesQueries e.1 = true ∧ wellFormed .queries e.2 = true
      else wellFormed .condition e.2 = true := by
  cases v with
  | object entries =>
      rw [wellFormed_object_iff]
      simp only [ne_eq, reduceCtorEq, not_false_eq_true, true_and, Json.object.injEq,
        exists_eq_left', Role.admits, Role.ofEntry]
      refine forall_congr' fun e => imp_congr_right fun _ => ?_
      cases isOperatorKey e.1 <;> simp
  | _ => simp [wellFormed]

/-- What is well formed as a list of queries is a list of well-formed queries. -/
theorem wellFormed_queries_iff
    {v : Json} :
    wellFormed .queries v = true ↔
      ∃ items, v = .array items ∧ ∀ q ∈ items, wellFormed .query q = true := by
  cases v with
  | array items =>
      rw [wellFormed_array_iff]
      simp [Role.ofItem]
  | _ => simp [wellFormed]

/-- An object of operators is a well-formed condition if each operator fits its operand and the
operand is well formed; every other object is one. -/
theorem wellFormed_condition_object_iff
    {entries : Object} :
    wellFormed .condition (.object entries) = true ↔
      (isOperatorObject entries = true → ∀ e ∈ entries, operandFits entries e.1 e.2 = true ∧
        wellFormed (Role.ofOperand e.1 e.2) e.2 = true) := by
  rw [wellFormed_object_iff]
  simp only [ne_eq, reduceCtorEq, not_false_eq_true, true_and, Role.admits, Role.ofEntry]
  cases isOperatorObject entries <;> simp [wellFormed_literal]

/-! Answers. -/

/-- A value answers in a role, whatever it is asked about. -/
def Role.Answered : Role → Json → Prop
  | .query, v => ∀ context, ∃ b, matchesObject v context = .ok b
  | .queries, v => ∀ context,
      (∃ b, matchesAll v context = .ok b) ∧ ∃ b, matchesAny v context = .ok b
  | .condition, v => ∀ actual, ∃ b, matchesField v actual = .ok b
  | .literal, _ => True

theorem checkQueries_of_wellFormed
    (key : String)
    {v : Json}
    (h : wellFormed .queries v = true) :
    checkQueries key v = .ok () := by
  obtain ⟨items, rfl, hitems⟩ := wellFormed_queries_iff.1 h
  have hall : items.all Json.isObject = true := by
    rw [List.all_eq_true]
    intro q hq
    obtain ⟨entries, rfl, -⟩ := wellFormed_query_iff.1 (hitems q hq)
    rfl
  simp [checkQueries, listOperand, hall, bind, Except.bind, pure, Except.pure]

/-- What a key that combines queries says about a list of well-formed ones. -/
theorem applyCombinator_of_wellFormed
    {key : String} {v : Json}
    (hkey : combinesQueries key = true)
    (h : wellFormed .queries v = true)
    (context : Json)
    (all any : Json → Except QueryError Bool) :
    applyCombinator key v context all any =
      if key = "$and" then all context
      else if key = "$or" then any context
      else (any context).map (!·) := by
  have hcheck : ∀ k, checkQueries k v = .ok () := fun k => checkQueries_of_wellFormed k h
  simp only [combinesQueries, Bool.or_eq_true, beq_iff_eq] at hkey
  obtain (rfl | rfl) | rfl := hkey
  · simp [applyCombinator, hcheck, bind, Except.bind]
  · simp [applyCombinator, hcheck, bind, Except.bind]
  · simp only [applyCombinator, hcheck]
    cases any context <;> simp [bind, Except.bind, Except.map, pure, Except.pure]

theorem matchesEntry_of_answered
    {context : Json}
    {siblings : Object}
    {e : String × Json}
    (hadmits : Role.query.admits siblings e = true)
    (hwf : wellFormed (Role.query.ofEntry siblings e) e.2 = true)
    (hanswered : (Role.query.ofEntry siblings e).Answered e.2) :
    ∃ b, matchesEntry context e = .ok b := by
  unfold matchesEntry
  unfold Role.ofEntry at hwf hanswered
  dsimp only at hwf hanswered
  split
  next hkey =>
    rw [if_pos hkey] at hwf hanswered
    have hcombines : combinesQueries e.1 = true := by simpa [Role.admits, hkey] using hadmits
    rw [applyCombinator_of_wellFormed hcombines hwf]
    obtain ⟨hall, y, hany⟩ := hanswered context
    rw [hany]
    split
    · exact hall
    · split
      · exact ⟨y, rfl⟩
      · exact ⟨!y, rfl⟩
  next hkey =>
    rw [if_neg hkey] at hanswered
    exact hanswered _

/-- A test of the items of a field answers if it answers for each of them. -/
theorem anyHolds_of_forall_ok
    {test : Json → Except QueryError Bool}
    (h : ∀ item, ∃ b, test item = .ok b)
    (items : List Json) :
    ∃ b, anyHolds test items = .ok b := by
  rw [anyHolds_eq]
  exact exists_untilSettled_map true fun item _ => h item

section Operators

variable {siblings : Object} {operator : String} {operand : Json} {actual : Option Json}
  {asField : Option Json → Except QueryError Bool} {asQuery : Json → Except QueryError Bool}

/-- Operators that take any operand compare the field with it. -/
theorem applyOperator_of_anything
    (hop : operator ∈ Shape.anything.operators) :
    ∃ b, applyOperator operator operand actual siblings asField asQuery = .ok b := by
  simp only [Shape.operators, List.mem_cons, List.not_mem_nil, or_false] at hop
  rcases hop with rfl | rfl | rfl | rfl | rfl | rfl | rfl <;> exact ⟨_, rfl⟩

theorem applyOperator_of_list
    (hop : operator ∈ Shape.list.operators)
    (hfits : Shape.list.fits siblings operand = true) :
    ∃ b, applyOperator operator operand actual siblings asField asQuery = .ok b := by
  simp only [Shape.operators, List.mem_cons, List.not_mem_nil, or_false] at hop
  cases operand with
  | array items => rcases hop with rfl | rfl | rfl <;> exact ⟨_, rfl⟩
  | _ => simp [Shape.fits, Json.asArray?] at hfits

theorem applyOperator_of_boolean
    (hfits : Shape.boolean.fits siblings operand = true) :
    ∃ b, applyOperator "$exists" operand actual siblings asField asQuery = .ok b := by
  cases operand with
  | bool expected => exact ⟨_, rfl⟩
  | _ => simp [Shape.fits, Json.asBool?] at hfits

theorem applyOperator_of_count
    (hfits : Shape.count.fits siblings operand = true) :
    ∃ b, applyOperator "$size" operand actual siblings asField asQuery = .ok b := by
  obtain ⟨n, hn⟩ := Option.isSome_iff_exists.1 hfits
  exact ⟨hasSize actual n, by simp [applyOperator, hn]⟩

theorem applyOperator_of_pattern
    (hfits : Shape.pattern.fits siblings operand = true) :
    ∃ b, applyOperator "$regex" operand actual siblings asField asQuery = .ok b := by
  cases operand with
  | string text =>
      obtain ⟨pattern, hpattern⟩ := Option.isSome_iff_exists.1 hfits
      exact ⟨_, by simp only [applyOperator, patternOperand, hpattern]; rfl⟩
  | _ => simp [Shape.fits, Json.asString?] at hfits

end Operators

/-- The elements of a field are asked what the operand of `$elemMatch` stands for. -/
theorem matchesOperator_of_element
    {siblings : Object} {actual : Option Json} {operand : Json}
    (hfits : Shape.element.fits siblings operand = true)
    (hanswered : (Role.ofOperand "$elemMatch" operand).Answered operand) :
    ∃ b, matchesOperator siblings actual ("$elemMatch", operand) = .ok b := by
  cases operand with
  | object query =>
      refine anyHolds_of_forall_ok (fun item => ?_) _
      rw [Role.ofOperand_elemMatch] at hanswered
      dsimp only
      split
      next hop =>
        rw [if_pos hop] at hanswered
        exact hanswered (some item)
      next hop =>
        rw [if_neg hop] at hanswered
        exact hanswered item
  | _ => simp [Shape.fits, Json.isObject, Json.asObject?] at hfits

/-- An operator answers if its operand has the shape that it asks for, and answers where it stands
for more than a value. -/
theorem matchesOperator_of_answered
    {siblings : Object}
    {actual : Option Json}
    {e : String × Json}
    (hfits : operandFits siblings e.1 e.2 = true)
    (hanswered : (Role.ofOperand e.1 e.2).Answered e.2) :
    ∃ b, matchesOperator siblings actual e = .ok b := by
  obtain ⟨operator, operand⟩ := e
  obtain ⟨shape, hop, hfits⟩ := operandFits_iff.1 hfits
  cases shape with
  | anything => exact applyOperator_of_anything hop
  | condition =>
      obtain rfl := List.mem_singleton.1 hop
      obtain ⟨b, hb⟩ := hanswered actual
      exact ⟨!b, by simp only [matchesOperator, applyOperator, hb]; rfl⟩
  | list => exact applyOperator_of_list hop hfits
  | boolean =>
      obtain rfl := List.mem_singleton.1 hop
      exact applyOperator_of_boolean hfits
  | count =>
      obtain rfl := List.mem_singleton.1 hop
      exact applyOperator_of_count hfits
  | pattern =>
      obtain rfl := List.mem_singleton.1 hop
      exact applyOperator_of_pattern hfits
  | element =>
      obtain rfl := List.mem_singleton.1 hop
      exact matchesOperator_of_element hfits hanswered

theorem answered_array
    {role : Role} {items : List Json}
    (h : wellFormed role (.array items) = true)
    (hitems : ∀ v ∈ items, role.ofItem.Answered v) :
    role.Answered (.array items) := by
  cases role with
  | query => exact absurd rfl (wellFormed_array_iff.1 h).1
  | queries =>
      intro context
      rw [matchesAll, allItems_eq, matchesAny, anyItem_eq]
      exact ⟨exists_untilSettled_map false fun v hv => hitems v hv context,
        exists_untilSettled_map true fun v hv => hitems v hv context⟩
  | condition => exact fun actual => ⟨equalsField actual (.array items), by simp [matchesField]⟩
  | literal => trivial

theorem answered_object
    {role : Role} {entries : Object}
    (h : wellFormed role (.object entries) = true)
    (hentries : ∀ e ∈ entries, (role.ofEntry entries e).Answered e.2) :
    role.Answered (.object entries) := by
  have hwf := (wellFormed_object_iff.1 h).2
  cases role with
  | query =>
      intro context
      rw [matchesObject, matchesEntries_eq]
      exact exists_untilSettled_map false fun e he =>
        matchesEntry_of_answered (hwf e he).1 (hwf e he).2 (hentries e he)
  | queries => exact absurd rfl (wellFormed_object_iff.1 h).1
  | condition =>
      intro actual
      rw [matchesField]
      split
      next hop =>
        rw [matchesOperators_eq]
        refine exists_untilSettled_map false fun e he => ?_
        have hrole : Role.condition.ofEntry entries e = Role.ofOperand e.1 e.2 := if_pos hop
        have hanswered := hentries e he
        rw [hrole] at hanswered
        exact matchesOperator_of_answered (wellFormed_condition_object_iff.1 h hop e he).1
          hanswered
      next => exact ⟨_, rfl⟩
  | literal => trivial

theorem answered_scalar
    {role : Role} {v : Json}
    (harray : ∀ items, v ≠ .array items)
    (hobject : ∀ o, v ≠ .object o)
    (h : wellFormed role v = true) :
    role.Answered v := by
  cases role with
  | query =>
      obtain ⟨entries, rfl, -⟩ := wellFormed_query_iff.1 h
      exact absurd rfl (hobject entries)
  | queries =>
      obtain ⟨items, rfl, -⟩ := wellFormed_queries_iff.1 h
      exact absurd rfl (harray items)
  | condition =>
      intro actual
      rw [matchesField]
      · exact ⟨_, rfl⟩
      · exact hobject
  | literal => trivial

/-- A well-formed part answers in its role, whatever it is asked about. -/
theorem answered_of_wellFormed
    {role : Role} {v : Json}
    (h : wellFormed role v = true) :
    role.Answered v := by
  induction v using Json.induction generalizing role with
  | array items ih =>
      exact answered_array h fun v hv => ih v hv ((wellFormed_array_iff.1 h).2 v hv)
  | object entries ih =>
      exact answered_object h fun e he => ih e he ((wellFormed_object_iff.1 h).2 e he).2
  | _ => exact answered_scalar (by rintro _ ⟨⟩) (by rintro _ ⟨⟩) h

end Languages

end Condition
end Warrant
