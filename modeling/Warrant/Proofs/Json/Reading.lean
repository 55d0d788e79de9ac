import Mathlib.Data.List.TakeWhile
import Warrant.Json.Reader
import Warrant.Proofs.Number.Digits

/-!
# Readings of data texts

The strict reader carries along that the rest of a text is shorter and how deep containers may be
nested.  Here what it reads is a relation between a text, the value read from its front and the
rest.  A text that is read within any depth is a reading.

**Results.**
* `numeral_of_numberOf?`: a number is an integer that fits, or what a numeral is read as.
* `reads_of_value`: what the strict reader returns is a reading.
* `exists_reads_of_read?`: a complete text is a reading with blanks behind it.
* `value_of_quote`, `read?_string`: a string is a value, and a text that is one string.
-/

namespace Warrant

theorem Integer.ofInt?_eq_some_iff
    {i : Int} {n : Integer} :
    Integer.ofInt? i = some n ↔ i = n.val := by
  unfold Integer.ofInt?
  split
  next h =>
    rw [Option.some.injEq]
    constructor
    · rintro rfl
      rfl
    · rintro rfl
      rfl
  next h =>
    constructor
    · rintro ⟨⟩
    · rintro rfl
      exact absurd ⟨n.lower, n.upper⟩ h

namespace Json
namespace Reader

open Decimal (isDigit signText wholeNumber)

/-! Numerals. -/

/-- A sign and digits, read as an integer. -/
def signedWhole (negative : Bool) (whole : List Char) : Int :=
  if negative then -(wholeNumber whole : Int) else wholeNumber whole

/-- A text begins with its sign. -/
theorem exists_signText (s : List Char) :
    ∃ negative unsigned, s = signText negative ++ unsigned ∧
      (negative = false → unsigned.head? ≠ some '-') := by
  cases s with
  | nil => exact ⟨false, [], rfl, nofun⟩
  | cons c r =>
      by_cases hc : c = '-'
      · subst hc
        exact ⟨true, r, rfl, nofun⟩
      · exact ⟨false, c :: r, rfl, fun _ h => hc (Option.some.inj h)⟩

section Floats

variable [Floats]

/-- What the numerals of the grammar denote. -/
inductive Numeral : List Char → Number → Prop
  | integer {negative : Bool} {whole : List Char} {n : Integer} :
      whole ≠ [] →
      (∀ c ∈ whole, isDigit c = true) →
      signedWhole negative whole = n.val →
      Numeral (signText negative ++ whole) (.integer n)
  | negativeZero {whole : List Char} {x : Binary64} :
      whole ≠ [] →
      (∀ c ∈ whole, isDigit c = true) →
      wholeNumber whole = 0 →
      Floats.float? (signText true ++ whole) = some x →
      Numeral (signText true ++ whole) (.float x)
  | float {negative : Bool} {whole tail : List Char} {d : Decimal} {x : Binary64} :
      whole ≠ [] →
      (∀ c ∈ whole, isDigit c = true) →
      Text.Stops isDigit tail →
      (tail = [] → Integer.ofInt? (signedWhole negative whole) = none) →
      Decimal.read? (signText negative ++ (whole ++ tail)) = some d →
      Floats.float? (signText negative ++ (whole ++ tail)) = some x →
      Numeral (signText negative ++ (whole ++ tail)) (.float x)

/-- A numeral begins with a sign and digits. -/
theorem Numeral.exists_whole
    {s : List Char} {n : Number}
    (h : Numeral s n) :
    ∃ negative whole tail, s = signText negative ++ (whole ++ tail) ∧ whole ≠ [] ∧
      ∀ c ∈ whole, isDigit c = true := by
  cases h with
  | integer hne hdigits _ => exact ⟨_, _, [], by rw [List.append_nil], hne, hdigits⟩
  | negativeZero hne hdigits _ _ => exact ⟨_, _, [], by rw [List.append_nil], hne, hdigits⟩
  | float hne hdigits _ _ _ _ => exact ⟨_, _, _, rfl, hne, hdigits⟩

theorem numberOf?_signText
    {negative : Bool} {unsigned : List Char}
    (h : negative = false → unsigned.head? ≠ some '-') :
    numberOf? (signText negative ++ unsigned) =
      if !wholeWellFormed (unsigned.takeWhile isDigit) ||
          !fractionWellFormed (unsigned.dropWhile isDigit) then none
      else
        match (if (unsigned.dropWhile isDigit).isEmpty &&
            !(negative && wholeNumber (unsigned.takeWhile isDigit) == 0) then
          Integer.ofInt? (signedWhole negative (unsigned.takeWhile isDigit)) else none) with
        | some i => some (some (.integer i))
        | none => (Decimal.read? (signText negative ++ unsigned)).map fun _ =>
            (Floats.float? (signText negative ++ unsigned)).map .float := by
  cases negative with
  | true => rfl
  | false =>
      change numberOf? unsigned = _
      unfold numberOf?
      split
      next h' =>
        split at h'
        next => exact absurd rfl (h rfl)
        next =>
          cases h'
          rfl

/-- A number is an integer that fits, or what a numeral is read as. -/
theorem numeral_of_numberOf?
    {s : List Char} {n : Number}
    (h : numberOf? s = some (some n)) :
    Numeral s n := by
  obtain ⟨negative, unsigned, rfl, hminus⟩ := exists_signText s
  rw [numberOf?_signText hminus] at h
  split at h
  next => cases h
  next hform =>
    rw [Bool.or_eq_true, not_or] at hform
    have hne : unsigned.takeWhile isDigit ≠ [] := by
      intro hnil
      rw [hnil] at hform
      exact hform.1 rfl
    have hdigits : ∀ c ∈ unsigned.takeWhile isDigit, isDigit c = true :=
      fun c hc => List.mem_takeWhile_imp hc
    have hstops := Text.stops_dropWhile isDigit unsigned
    have hunsigned : unsigned.takeWhile isDigit ++ unsigned.dropWhile isDigit = unsigned :=
      List.takeWhile_append_dropWhile
    generalize unsigned.takeWhile isDigit = whole at *
    generalize unsigned.dropWhile isDigit = tail at *
    subst hunsigned
    split at h
    next i hi =>
      cases h
      split at hi
      next hwhole =>
        rw [Bool.and_eq_true, List.isEmpty_iff] at hwhole
        rw [hwhole.1, List.append_nil]
        exact Numeral.integer hne hdigits (Integer.ofInt?_eq_some_iff.1 hi)
      next => cases hi
    next hnone =>
      obtain ⟨d, hd, hfloat⟩ := Option.map_eq_some_iff.1 h
      obtain ⟨x, hx, rfl⟩ := Option.map_eq_some_iff.1 hfloat
      by_cases hzero : tail = [] ∧ negative = true ∧ wholeNumber whole = 0
      · obtain ⟨rfl, rfl, hzero⟩ := hzero
        rw [List.append_nil] at hx ⊢
        exact Numeral.negativeZero hne hdigits hzero hx
      · refine Numeral.float hne hdigits hstops ?_ hd hx
        rintro rfl
        have hplain : (!(negative && wholeNumber whole == 0)) = true := by
          rw [Bool.not_eq_true', Bool.and_eq_false_imp]
          intro hnegative
          exact beq_eq_false_iff_ne.2 fun h0 => hzero ⟨rfl, hnegative, h0⟩
        rwa [List.isEmpty_nil, Bool.true_and, if_pos hplain] at hnone

end Floats

/-! Readings. -/

/-- The value of a word. -/
inductive Word : List Char → Json → Prop
  | true : Word ['t', 'r', 'u', 'e'] (.bool true)
  | false : Word ['f', 'a', 'l', 's', 'e'] (.bool false)
  | null : Word ['n', 'u', 'l', 'l'] .null

/-- A string is read behind its opening quote. -/
inductive ReadsString : List Char → String → List Char → Prop
  | intro {s cs rest : List Char} {ps : List Piece} :
      pieces s = some (ps, rest) →
      joinPieces ps = some cs →
      ReadsString s (String.ofList cs) rest

theorem readsString_of_stringBody
    {s : List Char} {t : String} {rest : Text.Shorter s}
    (h : stringBody false s = some (t, rest)) :
    ReadsString s t rest.1 := by
  unfold stringBody at h
  split at h
  next => cases h
  next ps r hps =>
    split at h
    next cs hcs =>
      cases h
      exact ReadsString.intro hps hcs
    next => cases h

theorem enter_some_eq_some
    {depth : Nat} {inner : Option Nat}
    (h : enter (some depth) = some inner) :
    ∃ n, inner = some n := by
  cases depth with
  | zero => cases h
  | succ n =>
      cases h
      exact ⟨n, rfl⟩

section Floats

variable [Floats]

mutual

/-- A value is read from the front of a text. -/
inductive Reads : List Char → Json → List Char → Prop
  | emptyObject {s r rest : List Char} :
      skipBlanks s = '{' :: r →
      skipBlanks r = '}' :: rest →
      Reads s (.object []) rest
  | object {s r rest : List Char} {es : List (String × Json)} :
      skipBlanks s = '{' :: r →
      ReadsEntries r es rest →
      Reads s (.object es) rest
  | emptyArray {s r rest : List Char} :
      skipBlanks s = '[' :: r →
      skipBlanks r = ']' :: rest →
      Reads s (.array []) rest
  | array {s r rest : List Char} {vs : List Json} :
      skipBlanks s = '[' :: r →
      ReadsItems r vs rest →
      Reads s (.array vs) rest
  | string {s r rest : List Char} {t : String} :
      skipBlanks s = '"' :: r →
      ReadsString r t rest →
      Reads s (.string t) rest
  | word {s w rest : List Char} {v : Json} :
      skipBlanks s = w ++ rest →
      Word w v →
      Reads s v rest
  | number {s r : List Char} {c : Char} {n : Number} :
      skipBlanks s = c :: r →
      numberOf? (c :: r.takeWhile isNumeral) = some (some n) →
      Reads s (.number n) (r.dropWhile isNumeral)

/-- The items of a list up to its bracket are read. -/
inductive ReadsItems : List Char → List Json → List Char → Prop
  | last {s r rest : List Char} {v : Json} :
      Reads s v r →
      skipBlanks r = ']' :: rest →
      ReadsItems s [v] rest
  | more {s r r' rest : List Char} {v : Json} {vs : List Json} :
      Reads s v r →
      skipBlanks r = ',' :: r' →
      ReadsItems r' vs rest →
      ReadsItems s (v :: vs) rest

/-- The entries of an object up to its brace are read. -/
inductive ReadsEntries : List Char → List (String × Json) → List Char → Prop
  | last {s q r1 r2 r3 rest : List Char} {k : String} {v : Json} :
      skipBlanks s = '"' :: q →
      ReadsString q k r1 →
      skipBlanks r1 = ':' :: r2 →
      Reads r2 v r3 →
      skipBlanks r3 = '}' :: rest →
      ReadsEntries s [(k, v)] rest
  | more {s q r1 r2 r3 r4 rest : List Char} {k : String} {v : Json}
      {es : List (String × Json)} :
      skipBlanks s = '"' :: q →
      ReadsString q k r1 →
      skipBlanks r1 = ':' :: r2 →
      Reads r2 v r3 →
      skipBlanks r3 = ',' :: r4 →
      ReadsEntries r4 es rest →
      ReadsEntries s ((k, v) :: es) rest

end

mutual

/-- What the strict reader returns is a reading. -/
theorem reads_of_value
    {depth : Nat} {s : List Char} {v : Json} {rest : Text.Shorter s}
    (h : value (some depth) s = some (v, rest)) :
    Reads s v rest.1 := by
  rw [value] at h
  split at h
  next => cases h
  next r hs =>
    have hlt := length_lt_of_skipBlanks hs
    split at h
    next => cases h
    next inner hinner =>
      obtain ⟨n, rfl⟩ := enter_some_eq_some hinner
      split at h
      next r' hr =>
        cases h
        exact Reads.emptyObject hs hr
      next =>
        split at h
        next => cases h
        next es r' hr' hentries =>
          cases h
          exact Reads.object hs (readsEntries_of_entries hentries)
  next r hs =>
    have hlt := length_lt_of_skipBlanks hs
    split at h
    next => cases h
    next inner hinner =>
      obtain ⟨n, rfl⟩ := enter_some_eq_some hinner
      split at h
      next r' hr =>
        cases h
        exact Reads.emptyArray hs hr
      next =>
        split at h
        next => cases h
        next vs r' hr' hitems =>
          cases h
          exact Reads.array hs (readsItems_of_items hitems)
  next r hs =>
    split at h
    next => cases h
    next t r' hr' hstring =>
      cases h
      exact Reads.string hs (readsString_of_stringBody hstring)
  next r hs =>
    cases h
    exact Reads.word hs Word.true
  next r hs =>
    cases h
    exact Reads.word hs Word.false
  next r hs =>
    cases h
    exact Reads.word hs Word.null
  next c r _ _ _ _ _ _ hs =>
    dsimp only at h
    split at h
    next => cases h
    next n hn =>
      cases h
      exact Reads.number hs hn
    next => cases h
termination_by (s.length, 0)

theorem readsItems_of_items
    {depth : Nat} {s : List Char} {vs : List Json} {rest : Text.Shorter s}
    (h : items (some depth) s = some (vs, rest)) :
    ReadsItems s vs rest.1 := by
  rw [items] at h
  split at h
  next => cases h
  next v r hr hvalue =>
    have hread := reads_of_value hvalue
    split at h
    next r' hr' =>
      cases h
      exact ReadsItems.last hread hr'
    next r' hr' =>
      have hlt := length_lt_of_skipBlanks hr'
      split at h
      next => cases h
      next ws rest' hrest hitems =>
        cases h
        exact ReadsItems.more hread hr' (readsItems_of_items hitems)
    next => cases h
termination_by (s.length, 1)

theorem readsEntries_of_entries
    {depth : Nat} {s : List Char} {es : List (String × Json)} {rest : Text.Shorter s}
    (h : entries false (fun _ => some depth) s = some (es, rest)) :
    ReadsEntries s es rest.1 := by
  rw [entries] at h
  split at h
  next q hs =>
    have hlt := length_lt_of_skipBlanks hs
    split at h
    next => cases h
    next key r hr hkey =>
      have hkey' := readsString_of_stringBody hkey
      split at h
      next r1 h1 =>
        have hlt1 := length_lt_of_skipBlanks h1
        split at h
        next => cases h
        next v r2 hr2 hvalue =>
          have hread := reads_of_value hvalue
          split at h
          next r3 h3 =>
            cases h
            exact ReadsEntries.last hs hkey' h1 hread h3
          next r3 h3 =>
            have hlt3 := length_lt_of_skipBlanks h3
            split at h
            next => cases h
            next es' rest' hrest hentries =>
              cases h
              exact ReadsEntries.more hs hkey' h1 hread h3 (readsEntries_of_entries hentries)
          next => cases h
      next => cases h
  next => cases h
termination_by (s.length, 2)

end

/-- A complete text is a reading with nothing but blanks behind it. -/
theorem exists_reads_of_read?
    {depth : Nat} {text : String} {v : Json}
    (h : read? depth text = some v) :
    ∃ rest, Reads text.toList v rest ∧ skipBlanks rest = [] := by
  unfold read? at h
  split at h
  next w rest hvalue =>
    split at h
    next hend =>
      cases h
      exact ⟨rest.1, reads_of_value hvalue, List.isEmpty_iff.1 hend⟩
    next => cases h
  next => cases h

/-- A string is a value. -/
theorem value_of_quote
    {limit : Option Nat} {s r : List Char} {t : String} {rest : Text.Shorter r}
    (hs : skipBlanks s = '"' :: r)
    (hbody : stringBody (formCounts limit) r = some (t, rest)) :
    ∃ h, value limit s = some (.string t, ⟨rest.1, h⟩) := by
  refine ⟨Nat.lt_trans rest.2 (length_lt_of_skipBlanks hs), ?_⟩
  rw [value]
  split
  all_goals
    rename_i hs'
    rw [hs] at hs'
    cases hs'
  · rw [hbody]
  · contradiction

/-- A text that is one string. -/
theorem read?_string
    {text : String} {s cs : List Char} {ps : List Piece}
    (depth : Nat)
    (htext : text.toList = '"' :: s)
    (hps : pieces s = some (ps, []))
    (hcs : joinPieces ps = some cs) :
    read? depth text = some (.string (String.ofList cs)) := by
  have hs : skipBlanks text.toList = '"' :: s := by
    rw [htext]
    rfl
  have hstring : ∃ rest, stringBody false s = some (String.ofList cs, rest) ∧ rest.1 = [] := by
    unfold stringBody
    split
    next hnone =>
      rw [hps] at hnone
      cases hnone
    next ps' rest hsome =>
      rw [hps] at hsome
      cases hsome
      rw [hcs]
      exact ⟨_, rfl, rfl⟩
  obtain ⟨⟨rest, hlt⟩, hstring, rfl⟩ := hstring
  obtain ⟨_, hvalue⟩ := @value_of_quote _ (some depth) _ _ _ _ hs hstring
  rw [read?, hvalue]
  rfl

end Floats

end Reader
end Json
end Warrant
