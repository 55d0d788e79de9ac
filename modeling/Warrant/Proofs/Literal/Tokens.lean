import Mathlib.Data.List.TakeWhile
import Warrant.Proofs.Json.Reading
import Warrant.Proofs.Literal.RoundTrip

/-!
# The tokens of object literals

Which texts are strings, keys and numerals, and what they denote, said of a token by itself: of
how it is taken apart, not of how it is found in a text.  Each reader takes exactly the tokens of
its kind from the front of a text.

A string goes on up to the first quote of its own kind that stands for itself.  A key and a
numeral go on for as long as the characters can belong to them.

**Results.**
* `characters_eq_ok_iff`: the spelled characters in front of a quote are read.
* `exists_of_readsKey`, `Key.readsKey`: so are keys.
* `numberOf?_eq_some_iff`, `numeral_iff`: a run of characters is a numeral if it is read as one.
-/

namespace Warrant
namespace Literal

open Text (Stops)

/-! Strings. -/

/-- The letters that stand for other characters behind a backslash. -/
def escapeLetters : List (Char × Char) :=
  [('n', '\n'), ('t', '\t'), ('r', '\r'), ('b', '\x08'), ('f', '\x0c')]

/-- Hexadecimal digits of either case, with a plus sign in front or without. -/
inductive HexNumeral : List Char → Nat → Prop
  | unsigned {digits : List Char} {n : Nat} :
      digits ≠ [] →
      hexNumber? digits = some n →
      HexNumeral digits n
  | signed {digits : List Char} {n : Nat} :
      digits ≠ [] →
      hexNumber? digits = some n →
      HexNumeral ('+' :: digits) n

/-- How a character may be written between quotes. -/
inductive Written (quote : Char) : List Char → Char → Prop
  | plain {c : Char} :
      c ≠ quote →
      c ≠ '\\' →
      Written quote [c] c
  | letter {letter c : Char} :
      (letter, c) ∈ escapeLetters →
      Written quote ['\\', letter] c
  | itself {c : Char} :
      c ∉ escapeLetters.map Prod.fst →
      c ≠ 'u' →
      Written quote ['\\', c] c
  | codePoint {numeral : List Char} {n : Nat} :
      byteSize numeral = 4 →
      HexNumeral numeral n →
      n.isValidChar →
      Written quote ('\\' :: 'u' :: numeral) (Char.ofNat n)

/-- How characters may be written between quotes. -/
inductive Spelled (quote : Char) : List Char → List Char → Prop
  | nil : Spelled quote [] []
  | cons {w s cs : List Char} {c : Char} :
      Written quote w c →
      Spelled quote s cs →
      Spelled quote (w ++ s) (c :: cs)

/-- A text between quotes of one kind. -/
inductive Quoted : List Char → String → Prop
  | intro {quote : Char} {s cs : List Char} :
      quote = '"' ∨ quote = '\'' →
      Spelled quote s cs →
      Quoted (quote :: s ++ [quote]) (String.ofList cs)

section Escapes

theorem unescape_of_mem
    {letter c : Char}
    (h : (letter, c) ∈ escapeLetters) :
    letter ≠ 'u' ∧ unescape letter = c := by
  simp only [escapeLetters, List.mem_cons, Prod.mk.injEq, List.not_mem_nil, or_false] at h
  rcases h with ⟨rfl, rfl⟩ | ⟨rfl, rfl⟩ | ⟨rfl, rfl⟩ | ⟨rfl, rfl⟩ | ⟨rfl, rfl⟩ <;>
    exact ⟨by decide, rfl⟩

theorem unescape_cases (c : Char) :
    (c, unescape c) ∈ escapeLetters ∨ (c ∉ escapeLetters.map Prod.fst ∧ unescape c = c) := by
  unfold unescape
  split
  · exact Or.inl (by decide)
  · exact Or.inl (by decide)
  · exact Or.inl (by decide)
  · exact Or.inl (by decide)
  · exact Or.inl (by decide)
  next hn ht hr hb hf =>
    refine Or.inr ⟨?_, rfl⟩
    simp only [escapeLetters, List.map_cons, List.map_nil, List.mem_cons, List.not_mem_nil,
      or_false, not_or]
    exact ⟨hn, ht, hr, hb, hf⟩

theorem unescape_of_not_mem
    {c : Char}
    (h : c ∉ escapeLetters.map Prod.fst) :
    unescape c = c := by
  rcases unescape_cases c with hmem | ⟨-, heq⟩
  · exact absurd (List.mem_map_of_mem hmem) h
  · exact heq

theorem utf8Size_of_hexDigit?
    {c : Char} {d : Nat}
    (h : hexDigit? c = some d) :
    c.utf8Size = 1 := by
  have hlow : c.toNat ≤ 102 := by
    unfold hexDigit? at h
    split_ifs at h with h09 haf hAF
    · exact Nat.le_trans (show c.toNat ≤ '9'.toNat from h09.2) (by decide)
    · exact haf.2
    · exact Nat.le_trans (show c.toNat ≤ 'F'.toNat from hAF.2) (by decide)
  rw [Char.utf8Size_eq_one_iff, UInt32.le_iff_toNat_le]
  exact Nat.le_trans hlow (by decide)

/-- Hexadecimal digits take one byte each. -/
theorem byteSize_of_hexNumberFrom?
    {digits : List Char} {m n : Nat}
    (h : hexNumberFrom? m digits = some n) :
    byteSize digits = digits.length := by
  induction digits generalizing m with
  | nil => rfl
  | cons c digits ih =>
      rw [hexNumberFrom?] at h
      split at h
      next d hd =>
        rw [byteSize, utf8Size_of_hexDigit? hd, ih h, List.length_cons, Nat.add_comm]
      next => cases h

theorem hexNumber?_plus (digits : List Char) : hexNumber? ('+' :: digits) = none := rfl

/-- A hexadecimal numeral of four bytes is one of four characters. -/
theorem hexNumeral_iff
    {numeral : List Char} {n : Nat} :
    byteSize numeral = 4 ∧ HexNumeral numeral n ↔
      ∃ a b c d, numeral = [a, b, c, d] ∧ escapeNumber? a b c d = some n := by
  constructor
  · rintro ⟨hsize, hnumeral⟩
    cases hnumeral with
    | unsigned hne h =>
        rw [byteSize_of_hexNumberFrom? h] at hsize
        obtain ⟨a, b, c, d, rfl⟩ := List.length_eq_four.1 hsize
        have hplus : a ≠ '+' := by
          rintro rfl
          rw [hexNumber?_plus] at h
          cases h
        exact ⟨a, b, c, d, rfl, by rw [escapeNumber?, if_neg hplus, h]⟩
    | @signed digits _ hne h =>
        have hlength : digits.length = 3 := by
          rw [byteSize, byteSize_of_hexNumberFrom? h] at hsize
          have hplus : '+'.utf8Size = 1 := rfl
          omega
        obtain ⟨b, c, d, rfl⟩ := List.length_eq_three.1 hlength
        exact ⟨'+', b, c, d, rfl, by rw [escapeNumber?, if_pos rfl, h]⟩
  · rintro ⟨a, b, c, d, rfl, h⟩
    unfold escapeNumber? at h
    split at h
    next hplus =>
      subst hplus
      refine ⟨?_, HexNumeral.signed (List.cons_ne_nil _ _) h⟩
      rw [byteSize, byteSize_of_hexNumberFrom? h]
      rfl
    next =>
      refine ⟨?_, HexNumeral.unsigned (List.cons_ne_nil _ _) h⟩
      rw [byteSize_of_hexNumberFrom? h]
      rfl

end Escapes

section Strings

variable {quote : Char} {s cs w rest : List Char}

theorem characters_of_written
    {c : Char}
    (h : Written quote w c)
    (s : List Char) :
    characters quote (w ++ s) = consRead c (characters quote s) := by
  cases h with
  | plain hquote hslash => exact characters_of_plain hquote hslash s
  | letter hmem =>
      obtain ⟨hu, rfl⟩ := unescape_of_mem hmem
      exact characters_of_escape hu s
  | itself hmem hu =>
      rw [List.cons_append, List.cons_append, List.nil_append, characters_of_escape hu,
        unescape_of_not_mem hmem]
  | codePoint hsize hnumeral hvalid =>
      obtain ⟨a, b, c, d, rfl, hnumber⟩ := hexNumeral_iff.1 ⟨hsize, hnumeral⟩
      exact characters_of_codePoint hnumber (if_pos hvalid) s

/-- The characters read up to a quote are the spelled ones in front of it. -/
theorem characters_eq_ok_iff
    (hquote : quote = '"' ∨ quote = '\'') :
    characters quote s = .ok (cs, rest) ↔ ∃ t, s = t ++ quote :: rest ∧ Spelled quote t cs := by
  constructor
  · intro h
    fun_induction characters quote s generalizing cs with
    | case1 => cases h
    | case2 => cases h
    | case3 => cases h
    | case4 => cases h
    | case5 a b c d r n hnumber e hchar ih =>
        obtain ⟨ds, rfl, hread⟩ := exists_of_consRead h
        obtain ⟨t, rfl, ht⟩ := ih hread
        obtain ⟨hsize, hnumeral⟩ := hexNumeral_iff.2 ⟨a, b, c, d, rfl, hnumber⟩
        unfold charOf? at hchar
        split at hchar
        next hvalid =>
          cases hchar
          exact ⟨_, rfl, Spelled.cons (Written.codePoint hsize hnumeral hvalid) ht⟩
        next => cases hchar
    | case6 => cases h
    | case7 c r _ hu ih =>
        obtain ⟨ds, rfl, hread⟩ := exists_of_consRead h
        obtain ⟨t, rfl, ht⟩ := ih hread
        refine ⟨'\\' :: c :: t, rfl, ?_⟩
        rcases unescape_cases c with hmem | ⟨hmem, heq⟩
        · exact Spelled.cons (Written.letter hmem) ht
        · rw [heq]
          exact Spelled.cons (Written.itself hmem hu) ht
    | case8 =>
        cases h
        exact ⟨[], rfl, Spelled.nil⟩
    | case9 c r hend hcode hescape hne ih =>
        obtain ⟨ds, rfl, hread⟩ := exists_of_consRead h
        obtain ⟨t, rfl, ht⟩ := ih hread
        have hslash : c ≠ '\\' := by
          rintro rfl
          cases hr : t ++ quote :: rest with
          | nil => exact hend rfl hr
          | cons d r => exact hescape d r rfl hr
        exact ⟨c :: t, rfl, Spelled.cons (Written.plain hne hslash) ht⟩
  · rintro ⟨t, rfl, ht⟩
    induction ht with
    | nil => exact characters_of_quote (by rcases hquote with rfl | rfl <;> decide) rest
    | cons hw _ ih =>
        rw [List.append_assoc, characters_of_written hw, ih]
        rfl

end Strings

/-! Keys. -/

/-- A key: an identifier, or a text between quotes. -/
inductive Key : List Char → String → Prop
  | bare {s : List Char} :
      isIdentifier s = true →
      Key s (String.ofList s)
  | quoted {t : List Char} {s : String} :
      Quoted t s →
      Key t s

theorem exists_of_readsKey
    {s rest : List Char} {k : String}
    (h : ReadsKey s k rest) :
    ∃ t, s = t ++ rest ∧ Key t k := by
  cases h with
  | @quoted quote r cs _ hquote h =>
      obtain ⟨t, rfl, ht⟩ := (characters_eq_ok_iff hquote).1 h
      exact ⟨quote :: t ++ [quote], by simp, Key.quoted (Quoted.intro hquote ht)⟩
  | @bare c r hc =>
      refine ⟨c :: r.takeWhile inIdentifier, by simp, Key.bare ?_⟩
      rw [isIdentifier, hc, Bool.true_and, List.all_eq_true]
      exact fun d hd => List.mem_takeWhile_imp hd

/-- A key is read up to what ends it, and is mistaken for nothing else. -/
theorem Key.readsKey
    {t rest : List Char} {k : String}
    (h : Key t k)
    (hrest : Stops inIdentifier rest) :
    ∃ c r, t ++ rest = c :: r ∧ Text.isBlank c = false ∧ c ≠ '\x7d' ∧ ReadsKey (c :: r) k rest := by
  cases h with
  | bare hs => exact readsKey_of_isIdentifier hs hrest
  | quoted hq =>
      cases hq with
      | @intro quote s cs hquote hs =>
          have hchars := (characters_eq_ok_iff hquote).2 ⟨s, Eq.refl (s ++ quote :: rest), hs⟩
          have hread := ReadsKey.quoted hquote hchars
          refine ⟨quote, s ++ quote :: rest, by simp, ?_, ?_, hread⟩
          · rcases hquote with rfl | rfl <;> rfl
          · rcases hquote with rfl | rfl <;> decide

/-! Numerals. -/

/-- What a numeral without plus signs in front of it denotes: an integer that fits 64 bits, and
else a binary64 number that is finite. -/
inductive Magnitude : List Char → Number → Prop
  | integer {s : List Char} {n : Integer} :
      Decimal.readInteger? s = some n.val →
      Magnitude s (.integer n)
  | float {s : List Char} {d : Decimal} {x : Binary64} :
      (∀ n : Integer, Decimal.readInteger? s ≠ some n.val) →
      Decimal.read? s = some d →
      d.toBinary64? = some x →
      Magnitude s (.float x)

/-- A numeral begins with a digit, a sign or a point; the plus signs in front of it do not
count. -/
inductive Numeral : List Char → Number → Prop
  | intro {c : Char} {r s : List Char} {k : Nat} {n : Number} :
      startsNumeral c = true →
      (∀ d ∈ r, inNumeral d = true) →
      c :: r = List.replicate k '+' ++ s →
      s.head? ≠ some '+' →
      Magnitude s n →
      Numeral (c :: r) n

section Numerals

variable {s : List Char} {n : Number}

theorem readInteger?_bind_eq_some_iff
    {n : Integer} :
    (Decimal.readInteger? s).bind Integer.ofInt? = some n ↔
      Decimal.readInteger? s = some n.val := by
  rw [Option.bind_eq_some_iff]
  constructor
  · rintro ⟨i, hi, hn⟩
    rw [hi, Integer.ofInt?_eq_some_iff.1 hn]
  · intro h
    exact ⟨n.val, h, Integer.ofInt?_eq_some_iff.2 rfl⟩

theorem numberOf?_eq_some_iff : numberOf? s = some n ↔ Magnitude s n := by
  unfold numberOf?
  split
  next i hi =>
    have hinteger := readInteger?_bind_eq_some_iff.1 hi
    constructor
    · rintro ⟨⟩
      exact Magnitude.integer hinteger
    · intro h
      cases h with
      | integer h =>
          rw [readInteger?_bind_eq_some_iff.2 h] at hi
          cases hi
          rfl
      | float hnone _ _ => exact absurd hinteger (hnone i)
  next hnone =>
    have hfits : ∀ i : Integer, Decimal.readInteger? s ≠ some i.val := by
      intro i hi
      rw [readInteger?_bind_eq_some_iff.2 hi] at hnone
      cases hnone
    rw [Option.map_eq_some_iff]
    constructor
    · rintro ⟨x, hx, rfl⟩
      obtain ⟨d, hd, hx⟩ := Option.bind_eq_some_iff.1 hx
      exact Magnitude.float hfits hd hx
    · intro h
      cases h with
      | integer h => exact absurd h (hfits _)
      | float _ hd hx => exact ⟨_, Option.bind_eq_some_iff.2 ⟨_, hd, hx⟩, rfl⟩

theorem withoutPlus_replicate
    (k : Nat)
    (hs : s.head? ≠ some '+') :
    withoutPlus (List.replicate k '+' ++ s) = s := by
  apply Text.dropWhile_run
  · intro d hd
    rw [List.eq_of_mem_replicate hd]
    rfl
  · intro d hd
    rw [beq_eq_false_iff_ne]
    rintro rfl
    exact hs hd

/-- The plus signs that are dropped in front of a numeral. -/
theorem exists_replicate_withoutPlus (t : List Char) :
    ∃ k, t = List.replicate k '+' ++ withoutPlus t ∧ (withoutPlus t).head? ≠ some '+' := by
  have hplus : ∀ d ∈ t.takeWhile (· == '+'), d = '+' := by
    intro d hd
    have hbeq := List.mem_takeWhile_imp hd
    exact eq_of_beq hbeq
  refine ⟨(t.takeWhile (· == '+')).length, ?_, ?_⟩
  · rw [← List.eq_replicate_of_mem hplus]
    exact List.takeWhile_append_dropWhile.symm
  · intro hhead
    cases Text.stops_dropWhile (· == '+') t '+' hhead

theorem numeral_iff
    {c : Char} {r : List Char} :
    Numeral (c :: r) n ↔
      startsNumeral c = true ∧ (∀ d ∈ r, inNumeral d = true) ∧
        numberOf? (withoutPlus (c :: r)) = some n := by
  constructor
  · intro h
    cases h with
    | intro hc hr hplus hs hn =>
        refine ⟨hc, hr, ?_⟩
        rw [hplus, withoutPlus_replicate _ hs]
        exact numberOf?_eq_some_iff.2 hn
  · rintro ⟨hc, hr, hn⟩
    obtain ⟨k, hplus, hs⟩ := exists_replicate_withoutPlus (c :: r)
    exact Numeral.intro hc hr hplus hs (numberOf?_eq_some_iff.1 hn)

end Numerals

end Literal
end Warrant
