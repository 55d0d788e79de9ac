import Mathlib.Algebra.Group.Nat.Defs
import Warrant.Number.Binary64
import Warrant.Number.Layout
import Warrant.Proofs.Text.Runs

/-!
# Digits and numerals

The digits of a number are read back as that number, and a numeral as the decimal that its
digits, point and exponent stand for.  A text of digits is told from what follows it by its
characters alone.

**Results.**
* `wholeNumber_digitsOf`: the digits of a number denote it.
* `readInteger?_signText`: a sign and what follows it are read as an integer if these are digits.
* `read?_plain`, `read?_scientific`: the two forms of numerals that numbers are printed in.
* `toBinary64?_mul_pow`: trailing zeros may be moved into the exponent.
-/

namespace Warrant
namespace Decimal

/-! Lists of digits. -/

theorem isDigit_eq (c : Char) : isDigit c = c.isDigit := by
  rw [Bool.eq_iff_iff]
  simp only [isDigit, Char.isDigit, Bool.and_eq_true, decide_eq_true_eq, Char.le_def, ge_iff_le]

theorem all_isDigit_digitsOf (n : Nat) : ∀ c ∈ digitsOf n, isDigit c = true := by
  intro c hc
  rw [isDigit_eq]
  exact Nat.isDigit_of_mem_toDigits (by decide) (by decide) hc

theorem digitsOf_ne_nil (n : Nat) : digitsOf n ≠ [] :=
  Nat.toDigits_ne_nil

theorem wholeNumber_eq_ofDigitChars (s : List Char) : wholeNumber s = Nat.ofDigitChars 10 s 0 :=
  rfl

/-- The digits of a number denote it. -/
theorem wholeNumber_digitsOf (n : Nat) : wholeNumber (digitsOf n) = n := by
  rw [wholeNumber_eq_ofDigitChars, digitsOf, Nat.ofDigitChars_ten_toDigits]

theorem wholeNumber_append
    (s t : List Char) :
    wholeNumber (s ++ t) = 10 ^ t.length * wholeNumber s + wholeNumber t := by
  rw [wholeNumber_eq_ofDigitChars, Nat.ofDigitChars_append, Nat.ofDigitChars_eq_ofDigitChars_zero]
  rfl

theorem wholeNumber_zeros (n : Nat) : wholeNumber (List.replicate n '0') = 0 := by
  rw [wholeNumber_eq_ofDigitChars, Nat.ofDigitChars_replicate_zero, Nat.mul_zero]

theorem wholeNumber_zeros_append
    (n : Nat)
    (s : List Char) :
    wholeNumber (List.replicate n '0' ++ s) = wholeNumber s := by
  rw [wholeNumber_append, wholeNumber_zeros, Nat.mul_zero, Nat.zero_add]

theorem wholeNumber_append_zeros
    (s : List Char)
    (n : Nat) :
    wholeNumber (s ++ List.replicate n '0') = wholeNumber s * 10 ^ n := by
  rw [wholeNumber_append, wholeNumber_zeros, List.length_replicate, Nat.add_zero, Nat.mul_comm]

theorem splitSign_of_digit
    {c : Char} {s : List Char}
    (hc : isDigit c = true) :
    splitSign (c :: s) = (false, c :: s) := by
  unfold splitSign
  split
  next h =>
    cases h
    simp [isDigit] at hc
  next h =>
    cases h
    simp [isDigit] at hc
  next => rfl

theorem splitSign_signText
    {s : List Char}
    (negative : Bool)
    (hne : s ≠ [])
    (hdigit : ∀ c ∈ s.head?, isDigit c = true) :
    splitSign (signText negative ++ s) = (negative, s) := by
  cases s with
  | nil => exact absurd rfl hne
  | cons c s =>
      cases negative with
      | true => rfl
      | false => exact splitSign_of_digit (hdigit c rfl)

/-! Integers. -/

/-- A sign and what follows it are read as an integer if these are digits. -/
theorem readInteger?_signText
    {s : List Char}
    (negative : Bool)
    (hs : s.head? ≠ some '-') :
    readInteger? (signText negative ++ s) =
      if s.isEmpty || !s.all isDigit then none
      else some (if negative then -(wholeNumber s : Int) else wholeNumber s) := by
  cases negative with
  | true => rfl
  | false =>
      change readInteger? s = _
      unfold readInteger?
      split
      next => exact absurd rfl hs
      next => rfl

theorem readInteger?_signText_digits
    {s : List Char}
    (negative : Bool)
    (hne : s ≠ [])
    (hs : ∀ c ∈ s, isDigit c = true) :
    readInteger? (signText negative ++ s) =
      some (if negative then -(wholeNumber s : Int) else wholeNumber s) := by
  have hminus : s.head? ≠ some '-' := by
    intro hhead
    cases hs '-' (List.mem_of_mem_head? hhead)
  have hempty : s.isEmpty = false := List.isEmpty_eq_false_iff.2 hne
  have hall : s.all isDigit = true := List.all_eq_true.2 hs
  rw [readInteger?_signText negative hminus, hempty, hall]
  rfl

/-- A sign and the digits of a number are read as an integer. -/
theorem readInteger?_signText_digitsOf
    (negative : Bool)
    (n : Nat) :
    readInteger? (signText negative ++ digitsOf n) =
      some (if negative then -(n : Int) else n) := by
  rw [readInteger?_signText_digits negative (digitsOf_ne_nil n) (all_isDigit_digitsOf n),
    wholeNumber_digitsOf]

theorem readInteger?_eq_none
    {s : List Char} {c : Char}
    (hc : c ∈ s)
    (hdigit : isDigit c = false)
    (hsign : c ≠ '-') :
    readInteger? s = none := by
  have hnot : ∀ t : List Char, c ∈ t → t.all isDigit = false := by
    intro t ht
    rw [List.all_eq_false]
    exact ⟨c, ht, by simp [hdigit]⟩
  unfold readInteger?
  split
  next digits =>
    have hmem : c ∈ digits := by
      rcases List.mem_cons.1 hc with rfl | h
      · exact absurd rfl hsign
      · exact h
    simp [hnot digits hmem]
  next => simp [hnot s hc]

/-! Numerals with a point or an exponent. -/

theorem splitFraction_point
    {fraction tail : List Char}
    (hfraction : ∀ c ∈ fraction, isDigit c = true)
    (htail : Text.Stops isDigit tail) :
    splitFraction ('.' :: (fraction ++ tail)) = (fraction, tail) := by
  rw [splitFraction, Text.takeWhile_run hfraction htail, Text.dropWhile_run hfraction htail]

theorem readExponent?_signed
    (below : Bool)
    (n : Nat) :
    readExponent? ('e' :: (if below then '-' else '+') :: digitsOf n) =
      some (if below then -(n : Int) else n) := by
  have hall : (digitsOf n).all isDigit = true := List.all_eq_true.2 (all_isDigit_digitsOf n)
  have hempty : (digitsOf n).isEmpty = false := by
    rw [List.isEmpty_eq_false_iff]
    exact digitsOf_ne_nil n
  cases below <;> simp [readExponent?, splitSign, hempty, hall, wholeNumber_digitsOf]

/-- A sign, digits, and what the rest divides into. -/
theorem read?_eq_some
    {whole rest fraction tail : List Char}
    {exponent : Int}
    (negative : Bool)
    (hne : whole ≠ [])
    (hwhole : ∀ c ∈ whole, isDigit c = true)
    (hrest : Text.Stops isDigit rest)
    (hsplit : splitFraction rest = (fraction, tail))
    (hexponent : readExponent? tail = some exponent) :
    read? (signText negative ++ (whole ++ rest)) =
      some ⟨negative, wholeNumber (whole ++ fraction), exponent - fraction.length⟩ := by
  have hsign : splitSign (signText negative ++ (whole ++ rest)) = (negative, whole ++ rest) := by
    refine splitSign_signText negative (by simp [hne]) ?_
    cases whole with
    | nil => exact absurd rfl hne
    | cons c whole =>
        rintro _ ⟨⟩
        exact hwhole c List.mem_cons_self
  have hempty : whole.isEmpty = false := by
    rw [List.isEmpty_eq_false_iff]
    exact hne
  unfold read?
  simp only [hsign, Text.takeWhile_run hwhole hrest, Text.dropWhile_run hwhole hrest, hsplit,
    hempty, Bool.false_and, Bool.false_eq_true, if_false, hexponent, Option.map_some]

/-- Digits, a point and more digits. -/
theorem read?_plain
    {whole fraction : List Char}
    (negative : Bool)
    (hne : whole ≠ [])
    (hwhole : ∀ c ∈ whole, isDigit c = true)
    (hfraction : ∀ c ∈ fraction, isDigit c = true) :
    read? (signText negative ++ (whole ++ '.' :: fraction)) =
      some ⟨negative, wholeNumber (whole ++ fraction), -(fraction.length : Int)⟩ := by
  have hpoint : Text.Stops isDigit ('.' :: fraction) := Text.stops_cons rfl fraction
  have hsplit := splitFraction_point hfraction Text.stops_nil
  rw [List.append_nil] at hsplit
  rw [read?_eq_some negative hne hwhole hpoint hsplit rfl, Int.zero_sub]

/-- One digit, more digits behind a point if there are any, and a signed exponent. -/
theorem read?_scientific
    {first : Char} {fraction : List Char}
    (negative below : Bool)
    (n : Nat)
    (hfirst : isDigit first = true)
    (hfraction : ∀ c ∈ fraction, isDigit c = true) :
    read? (signText negative ++ ([first] ++ ((if fraction = [] then [] else '.' :: fraction) ++
        'e' :: (if below then '-' else '+') :: digitsOf n))) =
      some ⟨negative, wholeNumber (first :: fraction),
        (if below then -(n : Int) else n) - fraction.length⟩ := by
  have hone : ∀ c ∈ [first], isDigit c = true := by simpa using hfirst
  have htail : Text.Stops isDigit ('e' :: (if below then '-' else '+') :: digitsOf n) :=
    Text.stops_cons rfl _
  have hexponent := readExponent?_signed below n
  by_cases hempty : fraction = []
  · subst hempty
    exact read?_eq_some negative (by simp) hone htail rfl hexponent
  · have hpoint : Text.Stops isDigit ('.' :: (fraction ++
        'e' :: (if below then '-' else '+') :: digitsOf n)) := Text.stops_cons rfl _
    rw [if_neg hempty, List.cons_append]
    exact read?_eq_some negative (by simp) hone hpoint (splitFraction_point hfraction htail)
      hexponent

end Decimal

/-- Trailing zeros may be moved into the exponent. -/
theorem Decimal.toBinary64?_mul_pow
    (negative : Bool)
    (digits : Nat)
    (exponent : Int)
    (n : Nat) :
    toBinary64? ⟨negative, digits * 10 ^ n, exponent⟩ =
      toBinary64? ⟨negative, digits, exponent + n⟩ := by
  induction n generalizing exponent with
  | zero => simp
  | succ n ih =>
      have hdigits : digits * 10 ^ (n + 1) = 10 * (digits * 10 ^ n) := by
        rw [Nat.pow_succ, ← Nat.mul_assoc, Nat.mul_comm]
      rw [hdigits, toBinary64?_mul_ten, ih]
      congr 2
      omega

end Warrant
