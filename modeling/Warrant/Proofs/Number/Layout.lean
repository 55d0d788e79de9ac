import Warrant.Literal.Parser
import Warrant.Literal.Writer
import Warrant.Proofs.Number.Digits
import Warrant.Proofs.Number.Shortest

/-!
# The text of a number reads back

The positional and the scientific layout of digits are numerals of the same decimal.  A binary64
number is laid out with a point or a power of ten in any case, and so is never taken for an
integer.

**Results.**
* `toBinary64?_positional`, `toBinary64?_scientific`: what the two layouts read back as.
* `numberOf?_text`: the text of a number is read as that number.
* `inNumeral_of_mem_text`: it consists of the characters of a numeral.
* `exists_text_eq_cons`: it begins with a digit or a minus sign.
-/

namespace Warrant
namespace Decimal

/-! The two layouts. -/

theorem read?_positional_below
    {digits : List Char} {point : Int}
    (negative : Bool)
    (mark : List Char)
    (hdigits : ∀ c ∈ digits, isDigit c = true)
    (hpoint : point ≤ 0) :
    read? (signText negative ++ positional digits point mark) =
      some ⟨negative, wholeNumber digits, point - digits.length⟩ := by
  have hzeros : ∀ c ∈ List.replicate (-point).toNat '0' ++ digits, isDigit c = true := by
    intro c hc
    rcases List.mem_append.1 hc with hzero | hc
    · rw [List.eq_of_mem_replicate hzero]
      rfl
    · exact hdigits c hc
  have hread := read?_plain negative (List.cons_ne_nil '0' []) (by simp [isDigit]) hzeros
  have htext : positional digits point mark =
      ['0'] ++ '.' :: (List.replicate (-point).toNat '0' ++ digits) := by
    rw [positional, if_pos hpoint, List.append_assoc]
    rfl
  have hwhole : wholeNumber (['0'] ++ (List.replicate (-point).toNat '0' ++ digits)) =
      wholeNumber digits := by
    rw [wholeNumber_append ['0'], wholeNumber_zeros_append]
    simp [wholeNumber, digitValue]
  rw [htext, hread, hwhole]
  congr 2
  rw [List.length_append, List.length_replicate]
  omega

theorem read?_positional_whole
    {digits : List Char} {point : Int}
    (negative : Bool)
    (hne : digits ≠ [])
    (hdigits : ∀ c ∈ digits, isDigit c = true)
    (hpoint : (digits.length : Int) ≤ point) :
    read? (signText negative ++ positional digits point ['.', '0']) =
      some ⟨negative, wholeNumber digits * 10 ^ ((point - digits.length).toNat + 1), -1⟩ := by
  have hlength : 0 < digits.length := List.length_pos_iff.2 hne
  have hzeros : ∀ c ∈ digits ++ List.replicate (point - digits.length).toNat '0',
      isDigit c = true := by
    intro c hc
    rcases List.mem_append.1 hc with hc | hzero
    · exact hdigits c hc
    · rw [List.eq_of_mem_replicate hzero]
      rfl
  have hzero : ∀ c ∈ ['0'], isDigit c = true := by simp [isDigit]
  have hread := read?_plain negative (by simp [hne]) hzeros hzero
  have htext : positional digits point ['.', '0'] =
      digits ++ List.replicate (point - digits.length).toNat '0' ++ '.' :: ['0'] := by
    rw [positional, if_neg (by omega), if_pos hpoint]
  have hwhole : wholeNumber (digits ++ List.replicate (point - digits.length).toNat '0' ++ ['0']) =
      wholeNumber digits * 10 ^ ((point - digits.length).toNat + 1) := by
    rw [List.append_assoc, ← wholeNumber_append_zeros, List.replicate_succ']
  rw [htext, hread, hwhole]
  rfl

theorem read?_positional_between
    {digits : List Char} {point : Int}
    (negative : Bool)
    (mark : List Char)
    (hdigits : ∀ c ∈ digits, isDigit c = true)
    (hlow : 0 < point)
    (hhigh : point < digits.length) :
    read? (signText negative ++ positional digits point mark) =
      some ⟨negative, wholeNumber digits, point - digits.length⟩ := by
  have htake : digits.take point.toNat ≠ [] := by
    rw [← List.length_pos_iff, List.length_take]
    omega
  have hwhole : ∀ c ∈ digits.take point.toNat, isDigit c = true :=
    fun c hc => hdigits c (List.mem_of_mem_take hc)
  have hfraction : ∀ c ∈ digits.drop point.toNat, isDigit c = true :=
    fun c hc => hdigits c (List.mem_of_mem_drop hc)
  have hread := read?_plain negative htake hwhole hfraction
  have htext : positional digits point mark =
      digits.take point.toNat ++ '.' :: digits.drop point.toNat := by
    rw [positional, if_neg (by omega), if_neg (by omega), List.append_assoc]
    rfl
  rw [htext, hread, List.take_append_drop, List.length_drop]
  congr 2
  omega

/-- Digits laid out positionally read back as what they denote. -/
theorem toBinary64?_positional
    (d : Decimal)
    {point : Int}
    (hpoint : point = d.exponent + (digitsOf d.digits).length) :
    (read? (signText d.negative ++ positional (digitsOf d.digits) point ['.', '0'])).bind
      toBinary64? = d.toBinary64? := by
  have hdigits := all_isDigit_digitsOf d.digits
  have hexponent : point - (digitsOf d.digits).length = d.exponent := by omega
  by_cases hlow : point ≤ 0
  · rw [read?_positional_below d.negative _ hdigits hlow, wholeNumber_digitsOf, hexponent]
    rfl
  · by_cases hhigh : ((digitsOf d.digits).length : Int) ≤ point
    · rw [read?_positional_whole d.negative (digitsOf_ne_nil _) hdigits hhigh,
        wholeNumber_digitsOf, Option.bind_some, toBinary64?_mul_pow]
      congr 2
      omega
    · rw [read?_positional_between d.negative _ hdigits (by omega) (by omega),
        wholeNumber_digitsOf, hexponent]
      rfl

/-- Digits laid out with a power of ten read back as what they denote. -/
theorem toBinary64?_scientific
    (d : Decimal)
    {exponent : Int}
    (hexponent : exponent = d.exponent + (digitsOf d.digits).length - 1) :
    (read? (signText d.negative ++ scientific (digitsOf d.digits) exponent)).bind
      toBinary64? = d.toBinary64? := by
  have hdigits := all_isDigit_digitsOf d.digits
  have hnumber := wholeNumber_digitsOf d.digits
  cases hcons : digitsOf d.digits with
  | nil => exact absurd hcons (digitsOf_ne_nil _)
  | cons first fraction =>
      rw [hcons] at hdigits hexponent hnumber
      rw [List.length_cons] at hexponent
      have hread := read?_scientific d.negative (decide (exponent < 0)) exponent.natAbs
        (hdigits first List.mem_cons_self) (fun c hc => hdigits c (List.mem_cons_of_mem _ hc))
      have htext : scientific (first :: fraction) exponent =
          [first] ++ ((if fraction = [] then [] else '.' :: fraction) ++
            'e' :: (if decide (exponent < 0) = true then '-' else '+') ::
              digitsOf exponent.natAbs) := by
        cases fraction <;> simp [scientific]
      have hsigned : (if decide (exponent < 0) = true then -(exponent.natAbs : Int)
          else exponent.natAbs) = exponent := by
        simp only [decide_eq_true_eq]
        split <;> omega
      rw [htext, hread, hnumber, hsigned]
      have hback : exponent - fraction.length = d.exponent := by omega
      rw [hback]
      rfl

/-! The characters of the two layouts. -/

theorem mem_positional
    {digits mark : List Char} {point : Int} {c : Char}
    (hc : c ∈ positional digits point mark) :
    c ∈ digits ∨ c = '0' ∨ c = '.' ∨ c ∈ mark := by
  unfold positional at hc
  split at hc
  · rcases List.mem_append.1 hc with hc | hc
    · rcases List.mem_append.1 hc with hc | hc
      · simp at hc
        tauto
      · exact Or.inr (Or.inl (List.eq_of_mem_replicate hc))
    · exact Or.inl hc
  · split at hc
    · rcases List.mem_append.1 hc with hc | hc
      · rcases List.mem_append.1 hc with hc | hc
        · exact Or.inl hc
        · exact Or.inr (Or.inl (List.eq_of_mem_replicate hc))
      · exact Or.inr (Or.inr (Or.inr hc))
    · rcases List.mem_append.1 hc with hc | hc
      · rcases List.mem_append.1 hc with hc | hc
        · exact Or.inl (List.mem_of_mem_take hc)
        · exact Or.inr (Or.inr (Or.inl (by simpa using hc)))
      · exact Or.inl (List.mem_of_mem_drop hc)

theorem mem_scientific
    {digits : List Char} {exponent : Int} {c : Char}
    (hc : c ∈ scientific digits exponent) :
    c ∈ digits ∨ c ∈ digitsOf exponent.natAbs ∨ c = '.' ∨ c = 'e' ∨ c = '-' ∨ c = '+' := by
  unfold scientific at hc
  simp only [List.mem_append] at hc
  rcases hc with ((hc | hc) | hc) | hc
  · exact Or.inl (List.mem_of_mem_take hc)
  · split at hc
    next => cases hc
    next rest _ =>
      rcases List.mem_cons.1 hc with rfl | hc
      · tauto
      · exact Or.inl (List.mem_of_mem_drop hc)
  · rcases List.mem_cons.1 hc with rfl | hc
    · tauto
    · rw [List.mem_singleton] at hc
      subst hc
      split <;> tauto
  · exact Or.inr (Or.inl hc)

theorem point_mem_positional
    (digits : List Char)
    (point : Int) :
    '.' ∈ positional digits point ['.', '0'] := by
  unfold positional
  split
  · simp
  · split <;> simp

theorem e_mem_scientific
    (digits : List Char)
    (exponent : Int) :
    'e' ∈ scientific digits exponent := by
  unfold scientific
  simp

theorem exists_positional_eq_cons
    {digits : List Char} {point : Int}
    (mark : List Char)
    (hne : digits ≠ [])
    (hdigits : ∀ c ∈ digits, isDigit c = true) :
    ∃ c s, positional digits point mark = c :: s ∧ isDigit c = true := by
  obtain ⟨first, rest, rfl⟩ := List.exists_cons_of_ne_nil hne
  have hfirst := hdigits first List.mem_cons_self
  unfold positional
  split
  · exact ⟨'0', _, rfl, rfl⟩
  · split
    · exact ⟨first, _, rfl, hfirst⟩
    next hpos _ =>
      obtain ⟨k, hk⟩ : ∃ k, point.toNat = k + 1 := ⟨point.toNat - 1, by omega⟩
      rw [hk]
      exact ⟨first, _, rfl, hfirst⟩

theorem exists_scientific_eq_cons
    {digits : List Char}
    (exponent : Int)
    (hne : digits ≠ [])
    (hdigits : ∀ c ∈ digits, isDigit c = true) :
    ∃ c s, scientific digits exponent = c :: s ∧ isDigit c = true := by
  obtain ⟨first, rest, rfl⟩ := List.exists_cons_of_ne_nil hne
  exact ⟨first, _, rfl, hdigits first List.mem_cons_self⟩

end Decimal

/-! The text of a binary64 number. -/

namespace Binary64

open Decimal

theorem text_cases (x : Binary64) :
    (∃ point, point = x.shortest.exponent + (digitsOf x.shortest.digits).length ∧
      x.text = signText x.negative ++
        positional (digitsOf x.shortest.digits) point ['.', '0']) ∨
    (∃ exponent, exponent = x.shortest.exponent + (digitsOf x.shortest.digits).length - 1 ∧
      x.text = signText x.negative ++ scientific (digitsOf x.shortest.digits) exponent) := by
  unfold text
  dsimp only
  split
  · refine Or.inl ⟨_, ?_, rfl⟩
    omega
  · exact Or.inr ⟨_, rfl, rfl⟩

/-- The text of a number is a numeral of that number. -/
theorem toBinary64?_text (x : Binary64) : (read? x.text).bind toBinary64? = some x := by
  rw [← toBinary64?_shortest x]
  rcases text_cases x with ⟨point, hpoint, htext⟩ | ⟨exponent, hexponent, htext⟩
  · rw [htext, ← negative_shortest x]
    exact toBinary64?_positional x.shortest hpoint
  · rw [htext, ← negative_shortest x]
    exact toBinary64?_scientific x.shortest hexponent

theorem readInteger?_text (x : Binary64) : readInteger? x.text = none := by
  rcases text_cases x with ⟨point, -, htext⟩ | ⟨exponent, -, htext⟩
  · have hpoint : '.' ∈ x.text := by
      rw [htext]
      exact List.mem_append_right _ (point_mem_positional _ _)
    exact readInteger?_eq_none hpoint rfl (by decide)
  · have he : 'e' ∈ x.text := by
      rw [htext]
      exact List.mem_append_right _ (e_mem_scientific _ _)
    exact readInteger?_eq_none he rfl (by decide)

end Binary64

namespace Number

open Decimal

/-- The text of a number is read as that number. -/
theorem numberOf?_text (n : Number) : Literal.numberOf? n.text = some n := by
  cases n with
  | integer n =>
      have hread : readInteger? (Number.integer n).text = some n.val := by
        have hdigits := readInteger?_signText_digitsOf (decide (n.val < 0)) n.val.natAbs
        rw [Number.text, Integer.text, hdigits]
        simp only [decide_eq_true_eq, Option.some.injEq]
        split <;> omega
      have hfits : Integer.ofInt? n.val = some n := dif_pos ⟨n.lower, n.upper⟩
      rw [Literal.numberOf?, hread, Option.bind_some, hfits]
  | float x =>
      rw [Literal.numberOf?, Number.text, x.readInteger?_text, Option.bind_none, x.toBinary64?_text]
      rfl

theorem inNumeral_of_isDigit
    {c : Char} (hc : isDigit c = true) :
    Literal.inNumeral c = true := by
  simp [Literal.inNumeral, Literal.startsNumeral, hc]

theorem inNumeral_of_mem_signText
    {negative : Bool} {c : Char}
    (hc : c ∈ signText negative) :
    Literal.inNumeral c = true := by
  cases negative with
  | false => cases hc
  | true =>
      rw [List.mem_singleton.1 hc]
      rfl

/-- The text of a number consists of the characters of a numeral. -/
theorem inNumeral_of_mem_text
    {n : Number} {c : Char}
    (hc : c ∈ n.text) :
    Literal.inNumeral c = true := by
  have hdigits : ∀ {m : Nat}, c ∈ digitsOf m → Literal.inNumeral c = true :=
    fun hc => inNumeral_of_isDigit (all_isDigit_digitsOf _ c hc)
  cases n with
  | integer n =>
      rcases List.mem_append.1 hc with hc | hc
      · exact inNumeral_of_mem_signText hc
      · exact hdigits hc
  | float x =>
      rcases x.text_cases with ⟨point, -, htext⟩ | ⟨exponent, -, htext⟩
      · rw [Number.text, htext] at hc
        rcases List.mem_append.1 hc with hc | hc
        · exact inNumeral_of_mem_signText hc
        · rcases mem_positional hc with hc | rfl | rfl | hc
          · exact hdigits hc
          · rfl
          · rfl
          · simp only [List.mem_cons, List.not_mem_nil, or_false] at hc
            rcases hc with rfl | rfl <;> rfl
      · rw [Number.text, htext] at hc
        rcases List.mem_append.1 hc with hc | hc
        · exact inNumeral_of_mem_signText hc
        · rcases mem_scientific hc with hc | hc | rfl | rfl | rfl | rfl
          · exact hdigits hc
          · exact hdigits hc
          · rfl
          · rfl
          · rfl
          · rfl

/-- The text of a number begins with a minus sign or a digit. -/
theorem exists_text_eq_cons (n : Number) :
    ∃ c s, n.text = c :: s ∧ (c = '-' ∨ isDigit c = true) := by
  have hsigned : ∀ (negative : Bool) (t : List Char), (∃ c s, t = c :: s ∧ isDigit c = true) →
      ∃ c s, signText negative ++ t = c :: s ∧ (c = '-' ∨ isDigit c = true) := by
    rintro negative _ ⟨c, s, rfl, hc⟩
    cases negative with
    | true => exact ⟨'-', c :: s, rfl, Or.inl rfl⟩
    | false => exact ⟨c, s, rfl, Or.inr hc⟩
  cases n with
  | integer n =>
      apply hsigned
      obtain ⟨c, s, hcons⟩ := List.exists_cons_of_ne_nil (digitsOf_ne_nil n.val.natAbs)
      refine ⟨c, s, hcons, all_isDigit_digitsOf n.val.natAbs c ?_⟩
      rw [hcons]
      exact List.mem_cons_self
  | float x =>
      have hne := digitsOf_ne_nil x.shortest.digits
      have hdigits := all_isDigit_digitsOf x.shortest.digits
      rcases x.text_cases with ⟨point, -, htext⟩ | ⟨exponent, -, htext⟩
      · rw [Number.text, htext]
        exact hsigned _ _ (exists_positional_eq_cons _ hne hdigits)
      · rw [Number.text, htext]
        exact hsigned _ _ (exists_scientific_eq_cons _ hne hdigits)

end Number
end Warrant
