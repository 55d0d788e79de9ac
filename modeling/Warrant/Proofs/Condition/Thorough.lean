import Warrant.Proofs.Condition.Operands

/-!
# Thorough evaluation of condition queries

A query is evaluated entry by entry, up to the first entry that fails or is faulty, so where
entries are faulty the answer depends on their order.  Thorough evaluation looks at every entry of
an object and every query of a list, whatever the others say.  If it meets no fault, its answer is
that of the query, in whatever order the keys of any object in the query are written.

**Results.**
* `matchesEntries_of_conjunction`, `matchesOperators_of_conjunction`: without faults, entries are a
  conjunction.
* `answers_of_same`: what a value says thoroughly, every value that is the same says.
* `matchesQuery_of_thorough`: a thorough answer does not depend on the order of keys.
-/

namespace Warrant
namespace Condition

variable [Languages]

/-- Both answers, the second one also where the first one is no. -/
def both (a b : Except QueryError Bool) : Except QueryError Bool := do
  let x ← a
  let y ← b
  return x && y

/-- One of two answers, the second one also where the first one is yes. -/
def either (a b : Except QueryError Bool) : Except QueryError Bool := do
  let x ← a
  let y ← b
  return x || y

mutual

/-- Whether all entries of a query hold, looking at each. -/
def thoroughEntries : List (String × Json) → Json → Except QueryError Bool
  | [], _ => .ok true
  | (key, condition) :: rest, context =>
      both
        (if isOperatorKey key then
          applyCombinator key condition context (thoroughAll condition) (thoroughAny condition)
        else
          thoroughField condition (resolve context key))
        (thoroughEntries rest context)
termination_by structural q => q

/-- Whether an object holds as a query, looking at each entry. -/
def thoroughObject : Json → Json → Except QueryError Bool
  | .object query, context => thoroughEntries query context
  | _, _ => .ok true
termination_by structural q => q

/-- Whether all queries of a list hold, looking at each. -/
def thoroughAll : Json → Json → Except QueryError Bool
  | .array queries, context => thoroughAllItems queries context
  | _, _ => .ok true
termination_by structural q => q

/-- Whether one of the queries of a list holds, looking at each. -/
def thoroughAny : Json → Json → Except QueryError Bool
  | .array queries, context => thoroughAnyItem queries context
  | _, _ => .ok false
termination_by structural q => q

/-- Whether all items hold as queries, looking at each. -/
def thoroughAllItems : List Json → Json → Except QueryError Bool
  | [], _ => .ok true
  | query :: rest, context => both (thoroughObject query context) (thoroughAllItems rest context)
termination_by structural q => q

/-- Whether one of the items holds as a query, looking at each. -/
def thoroughAnyItem : List Json → Json → Except QueryError Bool
  | [], _ => .ok false
  | query :: rest, context => either (thoroughObject query context) (thoroughAnyItem rest context)
termination_by structural q => q

/-- Whether a field meets a condition, looking at each of its operators. -/
def thoroughField : Json → Option Json → Except QueryError Bool
  | .object entries, actual =>
      if isOperatorObject entries then thoroughOperators entries entries actual
      else .ok (equalsField actual (.object entries))
  | expected, actual => .ok (equalsField actual expected)
termination_by structural q => q

/-- Whether a field meets the operators of an object, looking at each. -/
def thoroughOperators (siblings : Object) :
    List (String × Json) → Option Json → Except QueryError Bool
  | [], _ => .ok true
  | (operator, operand) :: rest, actual =>
      both
        (applyOperator operator operand actual siblings (thoroughField operand)
          (thoroughObject operand))
        (thoroughOperators siblings rest actual)
termination_by structural q => q

end

/-- Whether a query holds in a context, looking at all of its parts. -/
def thoroughQuery (query : Object) (context : Json) : Except QueryError Bool :=
  thoroughEntries query context

/-! One entry, evaluated by itself. -/

/-- What an entry of a query says. -/
def matchesEntry (context : Json) (e : String × Json) : Except QueryError Bool :=
  if isOperatorKey e.1 then
    applyCombinator e.1 e.2 context (matchesAll e.2) (matchesAny e.2)
  else matchesField e.2 (resolve context e.1)

/-- What an entry of a query says thoroughly. -/
def thoroughEntry (context : Json) (e : String × Json) : Except QueryError Bool :=
  if isOperatorKey e.1 then
    applyCombinator e.1 e.2 context (thoroughAll e.2) (thoroughAny e.2)
  else thoroughField e.2 (resolve context e.1)

/-- What an operator with its operand says. -/
def matchesOperator (siblings : Object) (actual : Option Json) (e : String × Json) :
    Except QueryError Bool :=
  applyOperator e.1 e.2 actual siblings (matchesField e.2) (matchesObject e.2)

/-- What an operator with its operand says thoroughly. -/
def thoroughOperator (siblings : Object) (actual : Option Json) (e : String × Json) :
    Except QueryError Bool :=
  applyOperator e.1 e.2 actual siblings (thoroughField e.2) (thoroughObject e.2)

theorem both_eq_ok_iff
    {a b : Except QueryError Bool}
    {z : Bool} :
    both a b = .ok z ↔ ∃ x y, a = .ok x ∧ b = .ok y ∧ (x && y) = z := by
  cases a with
  | error e => simp [both, bind, Except.bind]
  | ok x =>
      cases b with
      | error e => simp [both, bind, Except.bind]
      | ok y => simp [both, bind, Except.bind, pure, Except.pure]

theorem either_eq_ok_iff
    {a b : Except QueryError Bool}
    {z : Bool} :
    either a b = .ok z ↔ ∃ x y, a = .ok x ∧ b = .ok y ∧ (x || y) = z := by
  cases a with
  | error e => simp [either, bind, Except.bind]
  | ok x =>
      cases b with
      | error e => simp [either, bind, Except.bind]
      | ok y => simp [either, bind, Except.bind, pure, Except.pure]

/-- The conjunction of some answers, if none of them is a fault. -/
def Conjunction {α : Type} (f : α → Except QueryError Bool) (xs : List α) (b : Bool) : Prop :=
  (∀ x ∈ xs, ∃ y, f x = .ok y) ∧ (b = true ↔ ∀ x ∈ xs, f x = .ok true)

namespace Conjunction

variable {α β : Type} {f : α → Except QueryError Bool} {g : β → Except QueryError Bool}

theorem exists_of_forall_ok
    {xs : List α}
    (h : ∀ x ∈ xs, ∃ y, f x = .ok y) :
    ∃ b, Conjunction f xs b := by
  by_cases hall : ∀ x ∈ xs, f x = .ok true
  · exact ⟨true, h, by simpa using hall⟩
  · exact ⟨false, h, by simpa using hall⟩

theorem cons_iff
    {x : α} {xs : List α} {b : Bool} :
    Conjunction f (x :: xs) b ↔ ∃ y b', f x = .ok y ∧ Conjunction f xs b' ∧ (y && b') = b := by
  constructor
  · rintro ⟨hok, hall⟩
    obtain ⟨⟨y, hy⟩, hrest⟩ := List.forall_mem_cons.1 hok
    obtain ⟨b', hb'⟩ := exists_of_forall_ok hrest
    refine ⟨y, b', hy, hb', ?_⟩
    rw [Bool.eq_iff_iff, Bool.and_eq_true, hall, List.forall_mem_cons, hb'.2, hy, Except.ok.injEq]
  · rintro ⟨y, b', hy, hb', rfl⟩
    refine ⟨List.forall_mem_cons.2 ⟨⟨y, hy⟩, hb'.1⟩, ?_⟩
    rw [Bool.and_eq_true, List.forall_mem_cons, hb'.2, hy, Except.ok.injEq]

/-- A conjunction may be carried over to other answers, in any order. -/
theorem transfer
    {xs : List α} {ys : List β} {b : Bool}
    (h : Conjunction f xs b)
    (hleft : ∀ x ∈ xs, ∃ y ∈ ys, ∀ z, f x = .ok z → g y = .ok z)
    (hright : ∀ y ∈ ys, ∃ x ∈ xs, ∀ z, f x = .ok z → g y = .ok z) :
    Conjunction g ys b := by
  obtain ⟨hok, hall⟩ := h
  refine ⟨?_, ?_⟩
  · intro y hy
    obtain ⟨x, hx, hxy⟩ := hright y hy
    obtain ⟨z, hz⟩ := hok x hx
    exact ⟨z, hxy z hz⟩
  · rw [hall]
    constructor
    · intro htrue y hy
      obtain ⟨x, hx, hxy⟩ := hright y hy
      exact hxy true (htrue x hx)
    · intro htrue x hx
      obtain ⟨y, hy, hxy⟩ := hleft x hx
      obtain ⟨z, hz⟩ := hok x hx
      have hyz := hxy z hz
      rw [htrue y hy] at hyz
      cases hyz
      exact hz

end Conjunction

theorem conjunction_of_thoroughEntries
    {context : Json}
    {entries : List (String × Json)}
    {b : Bool}
    (h : thoroughEntries entries context = .ok b) :
    Conjunction (thoroughEntry context) entries b := by
  induction entries generalizing b with
  | nil =>
      cases h
      exact ⟨by simp, by simp⟩
  | cons e entries ih =>
      obtain ⟨key, condition⟩ := e
      rw [thoroughEntries, both_eq_ok_iff] at h
      obtain ⟨x, y, hx, hy, rfl⟩ := h
      exact Conjunction.cons_iff.2 ⟨x, y, hx, ih hy, rfl⟩

theorem conjunction_of_thoroughOperators
    {siblings : Object}
    {actual : Option Json}
    {entries : List (String × Json)}
    {b : Bool}
    (h : thoroughOperators siblings entries actual = .ok b) :
    Conjunction (thoroughOperator siblings actual) entries b := by
  induction entries generalizing b with
  | nil =>
      cases h
      exact ⟨by simp, by simp⟩
  | cons e entries ih =>
      obtain ⟨operator, operand⟩ := e
      rw [thoroughOperators, both_eq_ok_iff] at h
      obtain ⟨x, y, hx, hy, rfl⟩ := h
      exact Conjunction.cons_iff.2 ⟨x, y, hx, ih hy, rfl⟩

theorem matchesEntries_cons
    (e : String × Json)
    (entries : List (String × Json))
    (context : Json) :
    matchesEntries (e :: entries) context = (do
      let holds ← matchesEntry context e
      if holds then matchesEntries entries context else return false) := by
  obtain ⟨key, condition⟩ := e
  rw [matchesEntries, matchesEntry]
  split <;> rfl

theorem matchesOperators_cons
    (siblings : Object)
    (e : String × Json)
    (entries : List (String × Json))
    (actual : Option Json) :
    matchesOperators siblings (e :: entries) actual = (do
      let holds ← matchesOperator siblings actual e
      if holds then matchesOperators siblings entries actual else return false) := by
  obtain ⟨operator, operand⟩ := e
  rw [matchesOperators]
  rfl

/-- Entries none of which is faulty are a conjunction. -/
theorem matchesEntries_of_conjunction
    {context : Json}
    {entries : List (String × Json)}
    {b : Bool}
    (h : Conjunction (matchesEntry context) entries b) :
    matchesEntries entries context = .ok b := by
  induction entries generalizing b with
  | nil =>
      have hb : b = true := h.2.2 (by simp)
      rw [hb, matchesEntries]
  | cons e entries ih =>
      obtain ⟨y, b', hy, hb', rfl⟩ := Conjunction.cons_iff.1 h
      rw [matchesEntries_cons, hy]
      cases y with
      | false => rfl
      | true => exact ih hb'

/-- Operators none of which is faulty are a conjunction. -/
theorem matchesOperators_of_conjunction
    {siblings : Object}
    {actual : Option Json}
    {entries : List (String × Json)}
    {b : Bool}
    (h : Conjunction (matchesOperator siblings actual) entries b) :
    matchesOperators siblings entries actual = .ok b := by
  induction entries generalizing b with
  | nil =>
      have hb : b = true := h.2.2 (by simp)
      rw [hb, matchesOperators]
  | cons e entries ih =>
      obtain ⟨y, b', hy, hb', rfl⟩ := Conjunction.cons_iff.1 h
      rw [matchesOperators_cons, hy]
      cases y with
      | false => rfl
      | true => exact ih hb'

/-! What a value says thoroughly. -/

/-- What the first value says thoroughly, as a query, as a list of queries or as a condition on a
field, the second one says. -/
structure Answers (v w : Json) : Prop where
  object : Within (thoroughObject v) (matchesObject w)
  all : Within (thoroughAll v) (matchesAll w)
  any : Within (thoroughAny v) (matchesAny w)
  field : Within (thoroughField v) (matchesField w)

theorem allItems_of_answers
    {xs ys : List Json}
    (h : List.Forall₂ Answers xs ys) :
    Within (thoroughAllItems xs) (allItems ys) := by
  intro context b hb
  induction h generalizing b with
  | nil => exact hb
  | cons hvw _ ih =>
      rw [thoroughAllItems, both_eq_ok_iff] at hb
      obtain ⟨x, y, hx, hy, rfl⟩ := hb
      rw [allItems, hvw.object context x hx]
      cases x with
      | false => rfl
      | true => exact ih y hy

theorem anyItem_of_answers
    {xs ys : List Json}
    (h : List.Forall₂ Answers xs ys) :
    Within (thoroughAnyItem xs) (anyItem ys) := by
  intro context b hb
  induction h generalizing b with
  | nil => exact hb
  | cons hvw _ ih =>
      rw [thoroughAnyItem, either_eq_ok_iff] at hb
      obtain ⟨x, y, hx, hy, rfl⟩ := hb
      rw [anyItem, hvw.object context x hx]
      cases x with
      | true => rfl
      | false => exact ih y hy

theorem matchesEntry_of_answers
    {context : Json}
    {k : String} {v w : Json} {b : Bool}
    (hv : v.KeysDistinct)
    (hw : w.KeysDistinct)
    (hsame : v.same w = true)
    (hanswers : Answers v w)
    (h : thoroughEntry context (k, v) = .ok b) :
    matchesEntry context (k, w) = .ok b := by
  unfold thoroughEntry at h
  unfold matchesEntry
  dsimp only at h ⊢
  split
  next hk =>
    rw [if_pos hk] at h
    exact applyCombinator_of_within hv hw hsame hanswers.all hanswers.any h
  next hk =>
    rw [if_neg hk] at h
    exact hanswers.field _ b h

theorem answers_object
    {a b : Object}
    (ha : (Json.object a).KeysDistinct)
    (hb : (Json.object b).KeysDistinct)
    (hsame : a.same b = true)
    (hvalues : ∀ k v w, a.find? k = some v → b.find? k = some w → v.same w = true →
      Answers v w) :
    Answers (.object a) (.object b) := by
  have hakeys := (Json.keysDistinct_object_iff.1 ha).1
  have hbkeys := (Json.keysDistinct_object_iff.1 hb).1
  have halike := (Json.same_object_iff_alike hakeys hbkeys).1 hsame
  have hcase : ignoresCase a = ignoresCase b := ignoresCase_congr (halike "$options")
  -- every entry of the one object has a counterpart in the other one
  have hleft : ∀ e ∈ a, ∃ w, (e.1, w) ∈ b ∧ e.2.same w = true ∧ Answers e.2 w := by
    rintro ⟨k, v⟩ he
    have hv := Object.find?_of_mem hakeys he
    obtain ⟨w, hw, hvw⟩ := halike.exists_of_find? hv
    exact ⟨w, Object.mem_of_find? hw, hvw, hvalues k v w hv hw hvw⟩
  have hright : ∀ e ∈ b, ∃ v, (e.1, v) ∈ a ∧ v.same e.2 = true ∧ Answers v e.2 := by
    rintro ⟨k, w⟩ he
    have hw := Object.find?_of_mem hbkeys he
    obtain ⟨v, hv, hvw⟩ := halike.exists_of_find?_right hw
    exact ⟨v, Object.mem_of_find? hv, hvw, hvalues k v w hv hw hvw⟩
  have hadistinct := (Json.keysDistinct_object_iff.1 ha).2
  have hbdistinct := (Json.keysDistinct_object_iff.1 hb).2
  refine ⟨?_, fun _ _ h => h, fun _ _ h => h, ?_⟩
  · intro context z h
    rw [thoroughObject] at h
    rw [matchesObject]
    refine matchesEntries_of_conjunction
      ((conjunction_of_thoroughEntries h).transfer ?_ ?_)
    · intro e he
      obtain ⟨w, hw, hvw, hanswers⟩ := hleft e he
      exact ⟨_, hw, fun z =>
        matchesEntry_of_answers (hadistinct _ he) (hbdistinct _ hw) hvw hanswers⟩
    · intro e he
      obtain ⟨v, hv, hvw, hanswers⟩ := hright e he
      exact ⟨_, hv, fun z =>
        matchesEntry_of_answers (hadistinct _ hv) (hbdistinct _ he) hvw hanswers⟩
  · intro actual z h
    rw [thoroughField] at h
    rw [matchesField, ← isOperatorObject_congr hakeys hbkeys hsame]
    split
    next hop =>
      rw [if_pos hop] at h
      refine matchesOperators_of_conjunction
        ((conjunction_of_thoroughOperators h).transfer ?_ ?_)
      · intro e he
        obtain ⟨w, hw, hvw, hanswers⟩ := hleft e he
        exact ⟨_, hw, fun z => applyOperator_of_within (hadistinct _ he) (hbdistinct _ hw) hvw
          hcase hanswers.field hanswers.object⟩
      · intro e he
        obtain ⟨v, hv, hvw, hanswers⟩ := hright e he
        exact ⟨_, hv, fun z => applyOperator_of_within (hadistinct _ hv) (hbdistinct _ he) hvw
          hcase hanswers.field hanswers.object⟩
    next hop =>
      rw [if_neg hop, equalsField_congr actual ha hb hsame] at h
      exact h

theorem answers_scalar
    {v w : Json}
    (harray : ∀ items, v ≠ .array items)
    (hobject : ∀ o, v ≠ .object o)
    (hv : v.KeysDistinct)
    (hw : w.KeysDistinct)
    (hsame : v.same w = true) :
    Answers v w := by
  have harray' : ∀ items, w ≠ .array items := by
    rintro items rfl
    cases v with
    | array others => exact harray others rfl
    | _ => simp [Json.same] at hsame
  have hobject' : ∀ o, w ≠ .object o := by
    rintro o rfl
    cases v with
    | object a => exact hobject a rfl
    | _ => simp [Json.same] at hsame
  refine ⟨?_, ?_, ?_, ?_⟩
  · intro context b h
    rw [thoroughObject] at h
    · rwa [matchesObject]
      exact hobject'
    · exact hobject
  · intro context b h
    rw [thoroughAll] at h
    · rwa [matchesAll]
      exact harray'
    · exact harray
  · intro context b h
    rw [thoroughAny] at h
    · rwa [matchesAny]
      exact harray'
    · exact harray
  · intro actual b h
    rw [thoroughField, equalsField_congr actual hv hw hsame] at h
    · rwa [matchesField]
      exact hobject'
    · exact hobject

/-- What a value says thoroughly, every value that is the same says. -/
theorem answers_of_same
    {v w : Json}
    (hv : v.KeysDistinct)
    (hw : w.KeysDistinct)
    (hsame : v.same w = true) :
    Answers v w := by
  induction v using Json.induction generalizing w with
  | array items ih =>
      cases w with
      | array others =>
          have hitems : List.Forall₂ Answers items others := by
            have hforall := Json.same_array_iff.1 hsame
            rw [List.forall₂_iff_get] at hforall ⊢
            rw [Json.keysDistinct_array_iff] at hv hw
            refine ⟨hforall.1, ?_⟩
            intro i hi hi'
            exact ih _ (List.get_mem _ _) (hv _ (List.get_mem _ _)) (hw _ (List.get_mem _ _))
              (hforall.2 i hi hi')
          refine ⟨fun _ _ h => h, allItems_of_answers hitems, anyItem_of_answers hitems, ?_⟩
          intro actual b h
          rw [thoroughField, equalsField_congr actual hv hw hsame] at h
          · rwa [matchesField]
            rintro _ ⟨⟩
          · rintro _ ⟨⟩
      | _ => simp [Json.same] at hsame
  | object a ih =>
      cases w with
      | object b =>
          refine answers_object hv hw hsame ?_
          intro k x y hx hy hxy
          exact ih _ (Object.mem_of_find? hx) (Json.keysDistinct_of_find? hv hx)
            (Json.keysDistinct_of_find? hw hy) hxy
      | _ => simp [Json.same] at hsame
  | _ => exact answers_scalar (by rintro _ ⟨⟩) (by rintro _ ⟨⟩) hv hw hsame

/-- **A thorough answer does not depend on the order of keys.**  It is the answer of every query
that differs at most in that order. -/
theorem matchesQuery_of_thorough
    {query other : Object}
    {context : Json}
    {b : Bool}
    (hquery : (Json.object query).KeysDistinct)
    (hother : (Json.object other).KeysDistinct)
    (hsame : query.same other = true)
    (h : thoroughQuery query context = .ok b) :
    matchesQuery other context = .ok b :=
  (answers_of_same hquery hother hsame).object context b h

end Condition
end Warrant
