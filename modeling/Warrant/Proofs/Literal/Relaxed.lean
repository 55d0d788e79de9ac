import Warrant.Proofs.Json.Reading
import Warrant.Proofs.Literal.Grammar
import Warrant.Proofs.Permission.Decoding
import Warrant.Standard

/-!
# Literals as relaxed data texts

Every data text of the strict grammar is read as a literal with the same value, with one exception:
an escape by code point that names a surrogate.  The strict grammar pairs such escapes to one
character; in a literal the first of them is refused.

A literal takes a numeral for the number nearest to it.  How the strict reader rounds is left open:
where it takes another number, the two values differ in that number, and where it takes one for a
numeral that is out of range, the literal is refused.

**Results.**
* `characters_follows`, `numberOf?_follows`: strings and numbers.
* `value_follows`: one reading of the strict grammar and what the literal reader makes of it.
* `parse_of_read?`: a complete text is read alike, or refused for its first surrogate or for a
  number out of range.
-/

namespace Warrant

/-- The value of a number in units of `2 ^ -1074`, without rounding. -/
def Number.exactUnits : Number → Int
  | .integer n => n.val * unitsPerOne
  | .float x => x.units

namespace Json

variable [Floats]

/-- Numbers that stand for the same: they are worth the same, or the second one is what the strict
reader takes a numeral for, and the first one is worth what is nearest to that numeral. -/
inductive SameNumber : Number → Number → Prop
  | exact {m n : Number} :
      m.exactUnits = n.exactUnits →
      SameNumber m n
  | rounded {numeral : List Char} {x y : Binary64} {m : Number} :
      Floats.float? numeral = some x →
      Binary64.ofNumeral? numeral = some y →
      m.exactUnits = y.units →
      SameNumber m (.float x)

/-- The strict reader takes a numeral for a number that is out of range by its value. -/
def OutOfRange (numeral : List Char) : Prop :=
  (∃ x, Floats.float? numeral = some x) ∧ Binary64.ofNumeral? numeral = none

/-- The same values, where numbers count by what they are worth and not by how they are held. -/
inductive SameInValue : Json → Json → Prop
  | null : SameInValue .null .null
  | bool (b : Bool) : SameInValue (.bool b) (.bool b)
  | number {m n : Number} :
      SameNumber m n →
      SameInValue (.number m) (.number n)
  | string (s : String) : SameInValue (.string s) (.string s)
  | array {vs ws : List Json} :
      List.Forall₂ SameInValue vs ws →
      SameInValue (.array vs) (.array ws)
  | object {es fs : List (String × Json)} :
      es.map Prod.fst = fs.map Prod.fst →
      List.Forall₂ SameInValue (es.map Prod.snd) (fs.map Prod.snd) →
      SameInValue (.object es) (.object fs)

/-- The same entries in the same order, with the same values. -/
def SameEntriesInValue (es fs : Object) : Prop :=
  List.Forall₂ (fun e f => e.1 = f.1 ∧ SameInValue e.2 f.2) es fs

theorem SameEntriesInValue.object
    {es fs : Object}
    (h : SameEntriesInValue es fs) :
    SameInValue (.object es) (.object fs) := by
  have hparts : es.map Prod.fst = fs.map Prod.fst ∧
      List.Forall₂ SameInValue (es.map Prod.snd) (fs.map Prod.snd) := by
    induction h with
    | nil => exact ⟨rfl, List.Forall₂.nil⟩
    | cons hef _ ih =>
        rw [List.map_cons, List.map_cons, List.map_cons, List.map_cons, hef.1, ih.1]
        exact ⟨rfl, List.Forall₂.cons hef.2 ih.2⟩
  exact SameInValue.object hparts.1 hparts.2

theorem SameEntriesInValue.insert
    {es fs : Object} {v w : Json}
    (h : SameEntriesInValue es fs)
    (key : String)
    (hvw : SameInValue v w) :
    SameEntriesInValue (es.insert key v) (fs.insert key w) := by
  induction h with
  | nil => exact List.Forall₂.cons ⟨rfl, hvw⟩ List.Forall₂.nil
  | @cons e f es fs hef hrest ih =>
      obtain ⟨k, v'⟩ := e
      obtain ⟨k', w'⟩ := f
      obtain ⟨rfl, hvw'⟩ := hef
      rw [Object.insert, Object.insert]
      split
      · exact List.Forall₂.cons ⟨rfl, hvw⟩ hrest
      · exact List.Forall₂.cons ⟨rfl, hvw'⟩ ih

end Json

namespace Literal

open Text (Stops isAllBlank)
open Json (SameInValue SameEntriesInValue)

/-! Escapes of surrogates. -/

/-- The numbers that are halves of surrogate pairs. -/
def isSurrogate (n : Nat) : Bool :=
  0xD800 ≤ n && n ≤ 0xDFFF

/-- The text behind the first escape that names a surrogate.  A backslash takes the character
behind it along. -/
def behindSurrogate? : List Char → Option (List Char)
  | [] => none
  | '\\' :: 'u' :: a :: b :: c :: d :: r =>
      if (hexNumber? [a, b, c, d]).any isSurrogate then some r else behindSurrogate? r
  | '\\' :: _ :: r => behindSurrogate? r
  | _ :: r => behindSurrogate? r

section Surrogates

variable {c : Char}

theorem behindSurrogate?_of_plain
    (hc : c ≠ '\\')
    (s : List Char) :
    behindSurrogate? (c :: s) = behindSurrogate? s := by
  rw [behindSurrogate?]
  · exact fun _ _ _ _ _ h _ => hc h
  · exact fun _ _ h _ => hc h

theorem behindSurrogate?_of_escape
    (hu : c ≠ 'u')
    (s : List Char) :
    behindSurrogate? ('\\' :: c :: s) = behindSurrogate? s := by
  rw [behindSurrogate?]
  rintro _ _ _ _ _ rfl
  exact absurd rfl hu

theorem behindSurrogate?_of_codePoint
    (a1 a2 a3 a4 : Char)
    (s : List Char) :
    behindSurrogate? ('\\' :: 'u' :: a1 :: a2 :: a3 :: a4 :: s) =
      if (hexNumber? [a1, a2, a3, a4]).any isSurrogate then some s else behindSurrogate? s := by
  rw [behindSurrogate?]

theorem behindSurrogate?_run
    {run : List Char}
    (h : '\\' ∉ run)
    (s : List Char) :
    behindSurrogate? (run ++ s) = behindSurrogate? s := by
  induction run with
  | nil => rfl
  | cons c run ih =>
      rw [List.mem_cons, not_or] at h
      rw [List.cons_append, behindSurrogate?_of_plain (Ne.symm h.1), ih h.2]

end Surrogates

section Floats

variable [Json.Floats]

/-- What a reader of literals makes of a part of a strict text: it reads the part up to the same
rest, or refuses the first escape of a surrogate, which is in that part, or a number. -/
inductive Follows {α : Type} (related : α → Prop) (s rest : List Char) :
    Except Failure (α × List Char) → Prop
  | reads {a : α} :
      related a →
      behindSurrogate? s = behindSurrogate? rest →
      Follows related s rest (.ok (a, rest))
  | surrogate {r : List Char} :
      behindSurrogate? s = some r →
      Follows related s rest (.error ⟨.badCodePoint, r⟩)
  | outOfRange {numeral r : List Char} :
      Json.OutOfRange numeral →
      Follows related s rest (.error ⟨.badNumber numeral, r⟩)

namespace Follows

variable {α β : Type} {related : α → Prop} {related' : β → Prop} {s s' rest : List Char}
  {read : Except Failure (α × List Char)}

/-- What stands in front of the part is no escape. -/
theorem front
    (hs : behindSurrogate? s' = behindSurrogate? s)
    (h : Follows related s rest read) :
    Follows related s' rest read := by
  cases h with
  | reads ha hrest => exact .reads ha (hs.trans hrest)
  | surrogate hr => exact .surrogate (hs.trans hr)
  | outOfRange hnumeral => exact .outOfRange hnumeral

theorem map
    {f : α → β}
    (hf : ∀ a, related a → related' (f a))
    (h : Follows related s rest read) :
    Follows related' s rest (read.map fun p => (f p.1, p.2)) := by
  cases h with
  | reads ha hrest => exact .reads (hf _ ha) hrest
  | surrogate hr => exact .surrogate hr
  | outOfRange hnumeral => exact .outOfRange hnumeral

/-- One part is read after another. -/
theorem andThen
    {read' : Except Failure (β × List Char)}
    (h : Follows related s s' read)
    (hok : ∀ a, related a → read = .ok (a, s') → Follows related' s' rest read')
    (herror : ∀ e, read = .error e → read' = .error e) :
    Follows related' s rest read' := by
  cases h with
  | reads ha hs => exact (hok _ ha rfl).front hs
  | surrogate hr =>
      rw [herror _ rfl]
      exact .surrogate hr
  | outOfRange hnumeral =>
      rw [herror _ rfl]
      exact .outOfRange hnumeral

end Follows

end Floats

/-! Blanks. -/

section Blanks

variable {c : Char} {s r : List Char}

/-- The blanks that the strict grammar skips are some that literals skip, and no escapes. -/
theorem exists_gaps
    (h : Json.Reader.skipBlanks s = r) :
    ∃ gaps, s = gaps ++ r ∧ isAllBlank gaps = true ∧ '\\' ∉ gaps := by
  subst h
  have hgaps : ∀ c ∈ s.takeWhile Json.Reader.isGap, Json.Reader.isGap c = true :=
    fun c hc => List.mem_takeWhile_imp hc
  refine ⟨_, List.takeWhile_append_dropWhile.symm, List.all_eq_true.2 fun c hc => ?_, ?_⟩
  · have hgap := hgaps c hc
    simp only [Json.Reader.isGap, Bool.or_eq_true, beq_iff_eq] at hgap
    rcases hgap with ((rfl | rfl) | rfl) | rfl <;> rfl
  · intro hmem
    cases hgaps _ hmem

theorem skipBlanks_of_gaps
    (hs : Json.Reader.skipBlanks s = c :: r)
    (hc : Text.isBlank c = false) :
    skipBlanks s = c :: r := by
  obtain ⟨gaps, rfl, hblanks, -⟩ := exists_gaps hs
  rw [skipBlanks_append hblanks, skipBlanks_cons hc]

theorem skipBlanks_of_gaps_nil
    (hs : Json.Reader.skipBlanks s = []) :
    skipBlanks s = [] := by
  obtain ⟨gaps, rfl, hblanks, -⟩ := exists_gaps hs
  rw [skipBlanks_append hblanks]
  rfl

theorem behindSurrogate?_skipBlanks
    (hs : Json.Reader.skipBlanks s = r) :
    behindSurrogate? s = behindSurrogate? r := by
  obtain ⟨gaps, rfl, -, hslash⟩ := exists_gaps hs
  exact behindSurrogate?_run hslash r

theorem behindSurrogate?_of_gaps
    (hs : Json.Reader.skipBlanks s = c :: r)
    (hc : c ≠ '\\') :
    behindSurrogate? s = behindSurrogate? r := by
  rw [behindSurrogate?_skipBlanks hs, behindSurrogate?_of_plain hc]

theorem ends_of_gaps
    (hs : Json.Reader.skipBlanks s = r)
    (hr : Ends r) :
    Ends s := by
  obtain ⟨gaps, rfl, hblanks, -⟩ := exists_gaps hs
  exact hr.append_blanks hblanks

end Blanks

/-! Strings. -/

section Strings

theorem hexNumberFrom?_lt
    {digits : List Char} {m n : Nat}
    (h : hexNumberFrom? m digits = some n) :
    n < (m + 1) * 16 ^ digits.length := by
  induction digits generalizing m with
  | nil =>
      rw [hexNumberFrom?, Option.some.injEq] at h
      rw [List.length_nil, Nat.pow_zero, Nat.mul_one]
      omega
  | cons c digits ih =>
      rw [hexNumberFrom?] at h
      split at h
      next d hd =>
        have hdigit := hexDigit?_lt hd
        calc n < (16 * m + d + 1) * 16 ^ digits.length := ih h
          _ ≤ (16 * (m + 1)) * 16 ^ digits.length := Nat.mul_le_mul_right _ (by omega)
          _ = (m + 1) * 16 ^ (digits.length + 1) := by
              rw [Nat.pow_succ, Nat.mul_comm 16, Nat.mul_assoc, Nat.mul_comm 16]
      next => cases h

section CodePoints

variable {quote a b c d : Char} {n : Nat} (h : hexNumber? [a, b, c, d] = some n)

include h

theorem escapeNumber?_of_hexNumber? : escapeNumber? a b c d = some n := by
  have hplus : a ≠ '+' := by
    rintro rfl
    rw [hexNumber?_plus] at h
    cases h
  rw [escapeNumber?, if_neg hplus, h]

/-- An escape that does not name a surrogate is read as the character that it names. -/
theorem characters_of_character
    (hn : isSurrogate n = false)
    (s : List Char) :
    characters quote ('\\' :: 'u' :: a :: b :: c :: d :: s) =
      consRead (Char.ofNat n) (characters quote s) := by
  have hlt : n < 65536 := by simpa using hexNumberFrom?_lt h
  have hvalid : n.isValidChar := by
    simp only [isSurrogate, Bool.and_eq_false_iff, decide_eq_false_iff_not] at hn
    rw [Nat.isValidChar]
    omega
  exact characters_of_codePoint (escapeNumber?_of_hexNumber? h) (if_pos hvalid) s

theorem characters_of_surrogate
    (hn : isSurrogate n = true)
    (s : List Char) :
    characters quote ('\\' :: 'u' :: a :: b :: c :: d :: s) = .error ⟨.badCodePoint, s⟩ := by
  have hvalid : ¬n.isValidChar := by
    simp only [isSurrogate, Bool.and_eq_true, decide_eq_true_eq] at hn
    rw [Nat.isValidChar]
    omega
  rw [characters, escapeNumber?_of_hexNumber? h]
  simp only [charOf?, if_neg hvalid]

end CodePoints

theorem joinPieces_unit
    {n : Nat} {ps : List Json.Reader.Piece}
    (hn : isSurrogate n = false) :
    Json.Reader.joinPieces (.unit n :: ps) =
      (Json.Reader.joinPieces ps).map (Char.ofNat n :: ·) := by
  have hplain : (decide (n < 0xD800) || decide (0xDFFF < n)) = true := by
    simp only [isSurrogate, Bool.and_eq_false_iff, decide_eq_false_iff_not] at hn
    rw [Bool.or_eq_true, decide_eq_true_eq, decide_eq_true_eq]
    omega
  conv => lhs; unfold Json.Reader.joinPieces
  rw [if_pos hplain]

theorem ne_of_simpleEscape?
    {c e : Char}
    (h : Json.Reader.simpleEscape? c = some e) :
    c ≠ 'u' := by
  rintro rfl
  cases h

theorem Follows.consRead
    [Json.Floats]
    {s s' cs rest : List Char}
    {read : Except Failure (List Char × List Char)}
    (c : Char)
    (hs : behindSurrogate? s' = behindSurrogate? s)
    (h : Follows (· = cs) s rest read) :
    Follows (· = c :: cs) s' rest (Literal.consRead c read) := by
  refine Follows.front hs (h.map ?_)
  rintro _ rfl
  rfl

/-- A string of the strict grammar. -/
theorem characters_follows
    [Json.Floats]
    {s cs rest : List Char} {ps : List Json.Reader.Piece}
    (hps : Json.Reader.pieces s = some (ps, rest))
    (hcs : Json.Reader.joinPieces ps = some cs) :
    Follows (· = cs) s rest (characters '"' s) := by
  fun_induction Json.Reader.pieces s generalizing ps cs with
  | case1 => cases hps
  | case2 =>
      cases hps
      cases hcs
      rw [characters_of_quote (by decide)]
      exact .reads rfl (behindSurrogate?_of_plain (by decide) _)
  | case3 a b c d r ih =>
      obtain ⟨n, hn, hps⟩ := Option.bind_eq_some_iff.1 hps
      obtain ⟨⟨ps, rest⟩, hrest, hps⟩ := Option.bind_eq_some_iff.1 hps
      cases hps
      have hbehind := behindSurrogate?_of_codePoint a b c d r
      rw [hn, Option.any_some] at hbehind
      cases hsurrogate : isSurrogate n with
      | true =>
          rw [hsurrogate, if_pos rfl] at hbehind
          rw [characters_of_surrogate hn hsurrogate]
          exact .surrogate hbehind
      | false =>
          rw [hsurrogate, if_neg (by decide)] at hbehind
          rw [joinPieces_unit hsurrogate] at hcs
          obtain ⟨ds, hds, rfl⟩ := Option.map_eq_some_iff.1 hcs
          rw [characters_of_character hn hsurrogate]
          exact (ih hrest hds).consRead _ hbehind
  | case4 c r _ ih =>
      obtain ⟨e, he, hps⟩ := Option.bind_eq_some_iff.1 hps
      obtain ⟨⟨ps, rest⟩, hrest, hps⟩ := Option.bind_eq_some_iff.1 hps
      cases hps
      rw [Json.Reader.joinPieces] at hcs
      obtain ⟨ds, hds, rfl⟩ := Option.map_eq_some_iff.1 hcs
      have hu := ne_of_simpleEscape? he
      rw [characters_of_escape hu, unescape_of_simpleEscape? he]
      exact (ih hrest hds).consRead _ (behindSurrogate?_of_escape hu r)
  | case5 => cases hps
  | case6 c r hquote _ _ hplain ih =>
      obtain ⟨⟨ps, rest⟩, hrest, hps⟩ := Option.bind_eq_some_iff.1 hps
      cases hps
      rw [Json.Reader.joinPieces] at hcs
      obtain ⟨ds, hds, rfl⟩ := Option.map_eq_some_iff.1 hcs
      have hslash : c ≠ '\\' := by
        rintro rfl
        exact hplain (by simp)
      rw [characters_of_plain hquote hslash]
      exact (ih hrest hds).consRead _ (behindSurrogate?_of_plain hslash r)

/-- A string of the strict grammar, as literals read it. -/
theorem stringBody_follows
    [Json.Floats]
    {s rest : List Char} {t : String}
    (h : Json.Reader.ReadsString s t rest) :
    Follows (· = t) s rest (plain (stringBody '"' s)) := by
  cases h with
  | intro hps hcs =>
      rw [plain_stringBody]
      apply (characters_follows hps hcs).map
      rintro _ rfl
      rfl

end Strings

/-! Numbers. -/

section Numbers

variable {s : List Char} {n : Number}

theorem inNumeral_eq_isNumeral : inNumeral = Json.Reader.isNumeral := by
  funext c
  rw [inNumeral, startsNumeral, Json.Reader.isNumeral, Bool.or_right_comm (Decimal.isDigit c)]

theorem readInteger?_signText_of_not_digits
    {negative : Bool} {whole tail : List Char}
    (hne : whole ≠ [])
    (hdigits : ∀ c ∈ whole, Decimal.isDigit c = true)
    (htail : tail ≠ [])
    (hstops : Stops Decimal.isDigit tail) :
    Decimal.readInteger? (Decimal.signText negative ++ (whole ++ tail)) = none := by
  have hhead : (whole ++ tail).head? ≠ some '-' := by
    cases whole with
    | nil => exact absurd rfl hne
    | cons c whole =>
        rintro ⟨⟩
        cases hdigits '-' List.mem_cons_self
  have hall : (whole ++ tail).all Decimal.isDigit = false := by
    cases tail with
    | nil => exact absurd rfl htail
    | cons c tail => simp [hstops.head]
  rw [Decimal.readInteger?_signText negative hhead, hall, Bool.not_false, Bool.or_true, if_pos rfl]

/-- The number nearest to a zero is zero, with the same sign. -/
theorem ofNumeral?_of_zero
    {negative : Bool} {whole : List Char}
    (hne : whole ≠ [])
    (hdigits : ∀ c ∈ whole, Decimal.isDigit c = true)
    (hzero : Decimal.wholeNumber whole = 0) :
    Binary64.ofNumeral? (Decimal.signText negative ++ whole) = some (Binary64.zero negative) := by
  have hread := Decimal.read?_eq_some negative hne hdigits Text.stops_nil rfl rfl
  rw [List.append_nil, hzero] at hread
  rw [Binary64.ofNumeral?, hread, Option.bind_some, Decimal.toBinary64?, Decimal.normalize,
    if_pos rfl, Decimal.nearest?, if_pos rfl]

/-- A numeral that is no integer of 64 bits stands for the number nearest to it. -/
theorem numberOf?_of_no_integer
    (h : ∀ i : Integer, Decimal.readInteger? s ≠ some i.val) :
    numberOf? s = (Binary64.ofNumeral? s).map .float := by
  have hnone : (Decimal.readInteger? s).bind Integer.ofInt? = none := by
    rw [Option.eq_none_iff_forall_ne_some]
    intro i hi
    exact h i (readInteger?_bind_eq_some_iff.1 hi)
  rw [numberOf?, hnone]
  rfl

variable [Json.Floats]

/-- A numeral of the strict grammar is one of literals and stands for the same, or is out of range
for literals alone. -/
theorem numberOf?_follows
    (h : Json.Reader.Numeral s n) :
    (∃ m, numberOf? s = some m ∧ Json.SameNumber m n) ∨
      (numberOf? s = none ∧ Json.OutOfRange s) := by
  cases h with
  | @integer negative _ _ hne hdigits hn =>
      have hread := Decimal.readInteger?_signText_digits negative hne hdigits
      have hinteger := Magnitude.integer (hread.trans (congrArg some hn))
      exact Or.inl ⟨_, numberOf?_eq_some_iff.2 hinteger, .exact rfl⟩
  | @negativeZero whole x hne hdigits hzero hx =>
      have hread := Decimal.readInteger?_signText_digits true hne hdigits
      rw [hzero] at hread
      have hinteger := Magnitude.integer (n := ⟨0, by decide, by decide⟩) hread
      have hy := @ofNumeral?_of_zero true whole hne hdigits hzero
      exact Or.inl ⟨_, numberOf?_eq_some_iff.2 hinteger, .rounded hx hy (Int.zero_mul _)⟩
  | @float negative whole tail d x hne hdigits hstops hfits hd hx =>
      have hnone : ∀ i : Integer,
          Decimal.readInteger? (Decimal.signText negative ++ (whole ++ tail)) ≠ some i.val := by
        intro i hi
        by_cases htail : tail = []
        · rw [htail, List.append_nil, Decimal.readInteger?_signText_digits _ hne hdigits,
            Option.some.injEq] at hi
          have hnone := hfits htail
          rw [Json.Reader.signedWhole, Integer.ofInt?_eq_some_iff.2 hi] at hnone
          cases hnone
        · rw [readInteger?_signText_of_not_digits hne hdigits htail hstops] at hi
          cases hi
      rw [numberOf?_of_no_integer hnone]
      cases hy : Binary64.ofNumeral? (Decimal.signText negative ++ (whole ++ tail)) with
      | some y => exact Or.inl ⟨_, rfl, .rounded hx hy rfl⟩
      | none => exact Or.inr ⟨rfl, ⟨x, hx⟩, hy⟩

theorem startsNumeral_of_numeral
    {c : Char} {r : List Char}
    (h : Json.Reader.Numeral (c :: r) n) :
    startsNumeral c = true ∧ c ≠ '+' := by
  obtain ⟨negative, whole, tail, hs, hne, hdigits⟩ := h.exists_whole
  cases negative with
  | true =>
      cases hs
      exact ⟨rfl, by decide⟩
  | false =>
      cases whole with
      | nil => exact absurd rfl hne
      | cons d whole =>
          cases hs
          have hc := hdigits c List.mem_cons_self
          refine ⟨by rw [startsNumeral, hc]; rfl, ?_⟩
          rintro rfl
          cases hc

end Numbers

/-! Values. -/

section Values

variable {s r : List Char}

theorem plain_value_of_brace
    (hs : skipBlanks s = '\x7b' :: r) :
    plain (value s) = (plain (members r [])).map fun p => (.object p.1, p.2) := by
  rw [plain_value, hs]
  rfl

theorem plain_value_of_bracket
    (hs : skipBlanks s = '[' :: r) :
    plain (value s) = (plain (items r)).map fun p => (.array p.1, p.2) := by
  rw [plain_value, hs]
  rfl

theorem plain_value_of_quote
    (hs : skipBlanks s = '"' :: r) :
    plain (value s) = (plain (stringBody '"' r)).map fun p => (.string p.1, p.2) := by
  rw [plain_value, hs]
  rfl

/-- The entries of an object, settled and put into what was read before. -/
def settledOver (before : Object) (es : List (String × Json)) : Object :=
  (es.map fun e => (e.1, e.2.settle)).foldl (fun o e => o.insert e.1 e.2) before

theorem settledOver_cons
    (before : Object)
    (k : String)
    (v : Json)
    (es : List (String × Json)) :
    settledOver before ((k, v) :: es) = settledOver (before.insert k v.settle) es := rfl

variable [Json.Floats]

/-- A number of the strict grammar, as literals read it. -/
theorem number_follows
    {c : Char} {n : Number}
    (hs : Json.Reader.skipBlanks s = c :: r)
    (h : Json.Reader.Numeral (c :: r.takeWhile Json.Reader.isNumeral) n) :
    Follows (Json.SameInValue · (.number n)) s (r.dropWhile Json.Reader.isNumeral)
      (plain (value s)) := by
  obtain ⟨hstart, hplus⟩ := startsNumeral_of_numeral h
  have hblank : Text.isBlank c = false := isBlank_of_inNumeral (by rw [inNumeral, hstart]; rfl)
  have hnumeral : withoutPlus (c :: r.takeWhile inNumeral) = c :: r.takeWhile inNumeral := by
    rw [withoutPlus, List.dropWhile_cons_of_neg (by simpa using hplus)]
  have hslash : '\\' ∉ c :: r.takeWhile inNumeral := by
    rw [List.mem_cons, not_or]
    refine ⟨?_, fun hmem => ?_⟩
    · rintro rfl
      cases hstart
    · cases List.mem_takeWhile_imp hmem
  rw [plain_value_of_numeral (skipBlanks_of_gaps hs hblank) hstart, plain_number, hnumeral,
    inNumeral_eq_isNumeral]
  rcases numberOf?_follows h with ⟨m, hm, hmn⟩ | ⟨hnone, hrange⟩
  · rw [hm]
    refine .reads (SameInValue.number hmn) ?_
    have hrun := behindSurrogate?_run hslash (r.dropWhile inNumeral)
    rw [List.cons_append, List.takeWhile_append_dropWhile, inNumeral_eq_isNumeral] at hrun
    rw [behindSurrogate?_skipBlanks hs, hrun]
  · rw [hnone]
    exact .outOfRange hrange

/-- A word of the strict grammar, as literals read it. -/
theorem word_follows
    {w rest : List Char} {v : Json}
    (hs : Json.Reader.skipBlanks s = w ++ rest)
    (h : Json.Reader.Word w v)
    (hrest : Ends rest) :
    Follows (Json.SameInValue · v.settle) s rest (plain (value s)) := by
  obtain ⟨gaps, rfl, hblanks, -⟩ := exists_gaps hs
  have hreads : Reads (w ++ rest) v rest := by
    cases h with
    | true => exact @reads_word 't' ['r', 'u', 'e'] _ _ rfl rfl rfl hrest
    | false => exact @reads_word 'f' ['a', 'l', 's', 'e'] _ _ rfl rfl rfl hrest
    | null => exact @reads_word 'n' ['u', 'l', 'l'] _ _ rfl rfl rfl hrest
  have hsame : Json.SameInValue v v.settle ∧ '\\' ∉ w := by
    cases h with
    | true => exact ⟨SameInValue.bool true, by decide⟩
    | false => exact ⟨SameInValue.bool false, by decide⟩
    | null => exact ⟨SameInValue.null, by decide⟩
  rw [plain_value_of_reads (hreads.append_blanks hblanks)]
  refine .reads hsame.1 ?_
  rw [behindSurrogate?_skipBlanks hs, behindSurrogate?_run hsame.2]

/-- A value of the strict grammar does not begin with the bracket that closes a list. -/
theorem skipBlanks_ne_bracket_of_strict
    {rest : List Char} {v : Json}
    (h : Json.Reader.Reads s v rest) :
    skipBlanks s ≠ ']' :: r := by
  have hfirst : ∃ c r, Json.Reader.skipBlanks s = c :: r ∧ Text.isBlank c = false ∧ c ≠ ']' := by
    cases h with
    | emptyObject hs _ => exact ⟨_, _, hs, rfl, by decide⟩
    | object hs _ => exact ⟨_, _, hs, rfl, by decide⟩
    | emptyArray hs _ => exact ⟨_, _, hs, rfl, by decide⟩
    | array hs _ => exact ⟨_, _, hs, rfl, by decide⟩
    | string hs _ => exact ⟨_, _, hs, rfl, by decide⟩
    | word hs hw => cases hw <;> exact ⟨_, _, hs, rfl, by decide⟩
    | number hs hn =>
        obtain ⟨hstart, -⟩ := startsNumeral_of_numeral (Json.Reader.numeral_of_numberOf? hn)
        refine ⟨_, _, hs, isBlank_of_inNumeral (by rw [inNumeral, hstart]; rfl), ?_⟩
        rintro rfl
        cases hstart
  obtain ⟨c, r', hs, hblank, hc⟩ := hfirst
  rw [skipBlanks_of_gaps hs hblank]
  rintro ⟨⟩
  exact hc rfl

/-- One item of a list, as literals read it, with what follows its separator. -/
theorem item_follows
    {t rest : List Char} {v : Json} {c : Char} {related : List Json → Prop}
    (hread : Json.Reader.Reads s v r)
    (hv : Follows (Json.SameInValue · v.settle) s r (plain (value s)))
    (hr : Json.Reader.skipBlanks r = c :: t)
    (hc : c = ',' ∨ c = ']')
    (hnext : ∀ w, Json.SameInValue w v.settle → Follows related t rest
      (if c = ',' then (plain (items t)).map fun p => (w :: p.1, p.2) else .ok ([w], t))) :
    Follows related s rest (plain (items s)) := by
  have hitems := plain_items fun _ => skipBlanks_ne_bracket_of_strict hread
  have hblank : Text.isBlank c = false := by rcases hc with rfl | rfl <;> rfl
  have hslash : c ≠ '\\' := by rcases hc with rfl | rfl <;> decide
  refine hv.andThen (fun w hw hvalue => ?_) fun e hvalue => by rw [hitems, hvalue]
  rw [hitems, hvalue]
  dsimp only
  rw [skipBlanks_of_gaps hr hblank]
  apply Follows.front (behindSurrogate?_of_gaps hr hslash)
  refine (congrArg (Follows related t rest) ?_).mp (hnext w hw)
  rcases hc with rfl | rfl <;> rfl

/-- One entry of an object, as literals read it, with what follows its separator. -/
theorem entry_follows
    {q r1 r2 r3 r4 rest : List Char} {k : String} {v : Json} {c : Char} {before : Object}
    {related : Object → Prop}
    (hs : Json.Reader.skipBlanks s = '"' :: q)
    (hk : Json.Reader.ReadsString q k r1)
    (h1 : Json.Reader.skipBlanks r1 = ':' :: r2)
    (hv : Follows (Json.SameInValue · v.settle) r2 r3 (plain (value r2)))
    (h3 : Json.Reader.skipBlanks r3 = c :: r4)
    (hc : c = ',' ∨ c = '\x7d')
    (hnext : ∀ w, Json.SameInValue w v.settle → Follows related r4 rest
      (if c = ',' then plain (members r4 (before.insert k w)) else .ok (before.insert k w, r4))) :
    Follows related s rest (plain (members s before)) := by
  have hblank : Text.isBlank c = false := by rcases hc with rfl | rfl <;> rfl
  have hslash : c ≠ '\\' := by rcases hc with rfl | rfl <;> decide
  have hmembers := plain_members s before
  rw [skipBlanks_of_gaps hs rfl] at hmembers
  dsimp only at hmembers
  rw [if_neg (by decide), plain_key, if_pos (Or.inl rfl)] at hmembers
  apply Follows.front (behindSurrogate?_of_gaps hs (by decide))
  refine (stringBody_follows hk).andThen (fun k' hk' hkey => ?_)
    fun e hkey => by rw [hmembers, hkey]
  subst hk'
  rw [hkey] at hmembers
  dsimp only at hmembers
  rw [skipBlanks_of_gaps h1 rfl] at hmembers
  dsimp only at hmembers
  rw [if_pos rfl] at hmembers
  apply Follows.front (behindSurrogate?_of_gaps h1 (by decide))
  refine hv.andThen (fun w hw hvalue => ?_) fun e hvalue => by rw [hmembers, hvalue]
  rw [hvalue] at hmembers
  dsimp only at hmembers
  rw [skipBlanks_of_gaps h3 hblank] at hmembers
  rw [hmembers]
  apply Follows.front (behindSurrogate?_of_gaps h3 hslash)
  refine (congrArg (Follows related r4 rest) ?_).mp (hnext w hw)
  rcases hc with rfl | rfl <;> rfl

mutual

/-- A value of the strict grammar, as literals read it. -/
theorem value_follows :
    ∀ {s rest : List Char} {v : Json}, Json.Reader.Reads s v rest → Ends rest →
      Follows (Json.SameInValue · v.settle) s rest (plain (value s))
  | _, _, _, .emptyObject hs hr, _ => by
      rw [plain_value_of_brace (skipBlanks_of_gaps hs rfl), plain_members,
        skipBlanks_of_gaps hr rfl]
      refine .reads (SameEntriesInValue.object List.Forall₂.nil) ?_
      rw [behindSurrogate?_of_gaps hs (by decide), behindSurrogate?_of_gaps hr (by decide)]
  | _, _, _, .object hs h, _ => by
      rw [plain_value_of_brace (skipBlanks_of_gaps hs rfl), Json.settle,
        Json.settleEntries_eq_map]
      apply Follows.front (behindSurrogate?_of_gaps hs (by decide))
      exact (entries_follows h List.Forall₂.nil).map fun o ho => ho.object
  | _, _, _, .emptyArray hs hr, _ => by
      rw [plain_value_of_bracket (skipBlanks_of_gaps hs rfl),
        plain_items_of_bracket (skipBlanks_of_gaps hr rfl)]
      refine .reads (SameInValue.array List.Forall₂.nil) ?_
      rw [behindSurrogate?_of_gaps hs (by decide), behindSurrogate?_of_gaps hr (by decide)]
  | _, _, _, .array hs h, _ => by
      rw [plain_value_of_bracket (skipBlanks_of_gaps hs rfl), Json.settle,
        Json.settleItems_eq_map]
      apply Follows.front (behindSurrogate?_of_gaps hs (by decide))
      exact (items_follows h).map fun ws hws => SameInValue.array hws
  | _, _, _, .string hs h, _ => by
      rw [plain_value_of_quote (skipBlanks_of_gaps hs rfl)]
      apply Follows.front (behindSurrogate?_of_gaps hs (by decide))
      apply (stringBody_follows h).map
      rintro _ rfl
      exact SameInValue.string _
  | _, _, _, .word hs h, hrest => word_follows hs h hrest
  | _, _, _, .number hs h, _ => number_follows hs (Json.Reader.numeral_of_numberOf? h)

theorem items_follows :
    ∀ {s rest : List Char} {vs : List Json}, Json.Reader.ReadsItems s vs rest →
      Follows (List.Forall₂ Json.SameInValue · (vs.map Json.settle)) s rest (plain (items s))
  | _, _, _, .last hv hr => by
      refine item_follows hv (value_follows hv (ends_of_gaps hr (ends_cons rfl rfl _))) hr
        (Or.inr rfl) fun w hw => ?_
      exact .reads (List.Forall₂.cons hw List.Forall₂.nil) rfl
  | _, _, _, .more hv hr h => by
      refine item_follows hv (value_follows hv (ends_of_gaps hr (ends_cons rfl rfl _))) hr
        (Or.inl rfl) fun w hw => ?_
      exact (items_follows h).map fun ws hws => List.Forall₂.cons hw hws

theorem entries_follows :
    ∀ {s rest : List Char} {es : List (String × Json)} {before before' : Object},
      Json.Reader.ReadsEntries s es rest → SameEntriesInValue before before' →
        Follows (SameEntriesInValue · (settledOver before' es)) s rest (plain (members s before))
  | _, _, _, _, _, .last hs hk h1 hv h3, hbefore => by
      refine entry_follows hs hk h1 (value_follows hv (ends_of_gaps h3 (ends_cons rfl rfl _))) h3
        (Or.inr rfl) fun w hw => ?_
      exact .reads (hbefore.insert _ hw) rfl
  | _, _, _, _, _, .more hs hk h1 hv h3 h, hbefore => by
      refine entry_follows hs hk h1 (value_follows hv (ends_of_gaps h3 (ends_cons rfl rfl _))) h3
        (Or.inl rfl) fun w hw => ?_
      rw [settledOver_cons]
      exact entries_follows h (hbefore.insert _ hw)

end

end Values

/-- **Literals are relaxed data texts, except for surrogates.**  What the strict grammar reads from
a text is the value of the literal, if no escape in the text names a surrogate; numbers are the
same but for what the strict reader rounds otherwise than to nearest.  If an escape names a
surrogate, also as half of a pair, the literal is refused at the first such escape, unless it is
refused before for a number that only the strict reader takes to be in range. -/
theorem parse_of_read?
    [Json.Floats]
    {depth : Nat} {text : String} {v : Json}
    (h : Json.read? depth text = some v) :
    (behindSurrogate? text.toList = none ∧
        ∃ w, parse text = .ok w ∧ Json.SameInValue w v.settle) ∨
      (∃ r, behindSurrogate? text.toList = some r ∧
        parse text = .error ⟨.badCodePoint, byteSize text.toList - byteSize r⟩) ∨
      ∃ numeral offset, Json.OutOfRange numeral ∧
        parse text = .error ⟨.badNumber numeral, offset⟩ := by
  obtain ⟨rest, hread, hrest⟩ := Json.Reader.exists_reads_of_read? h
  have hfollows := value_follows hread (ends_of_gaps hrest ends_nil)
  generalize hvalue : plain (value text.toList) = outcome at hfollows
  have herror : ∀ f, outcome = .error f → parse text = .error (f.locate text.toList) := by
    rintro f rfl
    rw [parse, parseChars, plain_eq_error_iff.1 hvalue]
  cases hfollows with
  | reads hsame hs =>
      refine Or.inl ⟨hs.trans (behindSurrogate?_skipBlanks hrest), _, ?_, hsame⟩
      exact parseChars_eq_ok_iff.2 ⟨rest, reads_iff.2 hvalue, skipBlanks_of_gaps_nil hrest⟩
  | surrogate hr => exact Or.inr (Or.inl ⟨_, hr, herror _ rfl⟩)
  | outOfRange hnumeral => exact Or.inr (Or.inr ⟨_, _, hnumeral, herror _ rfl⟩)

/-- A string with an escape by code point. -/
def escapedLetter : String :=
  "\"caf\\u00e9\""

/-- A string whose only character is written as a surrogate pair. -/
def escapedPair : String :=
  "\"\\ud83d\\ude00\""

theorem parse_of_read?_escapedLetter :
    Json.read? 0 escapedLetter = some (.string "café") ∧
      behindSurrogate? escapedLetter.toList = none ∧
      ∃ w, parse escapedLetter = .ok w ∧ Json.SameInValue w (.string "café") := by
  have hpieces : Json.Reader.pieces "caf\\u00e9\"".toList =
      some ([.char 'c', .char 'a', .char 'f', .unit 0xe9], []) := by cbv
  have hjoined : Json.Reader.joinPieces [.char 'c', .char 'a', .char 'f', .unit 0xe9] =
      some ['c', 'a', 'f', 'é'] := by simp [Json.Reader.joinPieces]
  have hread : Json.read? 0 escapedLetter = some (.string "café") :=
    Json.Reader.read?_string 0 (by decide) hpieces hjoined
  have hbehind : behindSurrogate? escapedLetter.toList = none := by decide +kernel
  refine ⟨hread, hbehind, ?_⟩
  rcases parse_of_read? hread with ⟨-, hparse⟩ | ⟨r, hr, -⟩ | ⟨_, _, ⟨⟨x, hx⟩, hnone⟩, -⟩
  · exact hparse
  · rw [hbehind] at hr
    cases hr
  · exact absurd (hx.symm.trans hnone) (Option.some_ne_none x)

/-- The strict grammar reads one character from a surrogate pair, which a literal refuses. -/
theorem parse_escapedPair :
    Json.read? 0 escapedPair = some (.string "😀") ∧
      parse escapedPair = .error ⟨.badCodePoint, 7⟩ := by
  have hpieces : Json.Reader.pieces "\\ud83d\\ude00\"".toList =
      some ([.unit 0xd83d, .unit 0xde00], []) := by cbv
  have hjoined : Json.Reader.joinPieces [.unit 0xd83d, .unit 0xde00] = some ['😀'] := by
    simp [Json.Reader.joinPieces]
  have hcharacters : characters '"' "\\ud83d\\ude00\"".toList =
      .error ⟨.badCodePoint, "\\ude00\"".toList⟩ :=
    characters_of_surrogate (n := 0xd83d) (by decide) (by decide) _
  have hskip : skipBlanks escapedPair.toList = '"' :: "\\ud83d\\ude00\"".toList := by decide
  have hvalue : plain (value escapedPair.toList) =
      .error ⟨.badCodePoint, "\\ude00\"".toList⟩ := by
    rw [plain_value_of_quote hskip, plain_stringBody, hcharacters]
    rfl
  refine ⟨Json.Reader.read?_string 0 (by decide) hpieces hjoined, ?_⟩
  rw [parse, parseChars, plain_eq_error_iff.1 hvalue]
  rfl

end Literal
end Warrant
