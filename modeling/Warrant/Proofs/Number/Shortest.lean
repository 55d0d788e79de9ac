import Mathlib.Tactic.Ring
import Warrant.Number.Shortest

/-!
# The shortest decimal reads back

The shortest decimal of a binary64 number is either one that was tried, or the exact value of the
number, in case none of the tried ones read back.  Either way the number is the one nearest to it.

**Results.**
* `normalize_normalize`: a decimal has no trailing zeros after they were taken off.
* `roundQuotient_mul`: a number that fits is its own rounding.
* `nearest?_of_denotes`: the nearest number to a decimal that denotes a number is that number.
* `toBinary64?_shortest`: the shortest decimal reads back as the number.
* `negative_shortest`: it has the sign of the number.
-/

namespace Warrant
namespace Decimal

theorem normalize_normalize (d : Decimal) : d.normalize.normalize = d.normalize := by
  induction d using normalize.induct with
  | case1 d h =>
      have hself : d.normalize = ⟨d.negative, 0, 0⟩ := by rw [normalize, if_pos h]
      have hzero : normalize ⟨d.negative, 0, 0⟩ = ⟨d.negative, 0, 0⟩ := by
        rw [normalize, if_pos rfl]
      rw [hself, hzero]
  | case2 d h h' ih =>
      have hself : d.normalize = normalize ⟨d.negative, d.digits / 10, d.exponent + 1⟩ := by
        rw [normalize, if_neg h, if_pos h']
      rw [hself, ih]
  | case3 d h h' =>
      have hself : d.normalize = d := by rw [normalize, if_neg h, if_neg h']
      rw [hself, hself]

theorem toBinary64?_normalize (d : Decimal) : d.normalize.toBinary64? = d.toBinary64? := by
  rw [toBinary64?, toBinary64?, normalize_normalize]

theorem negative_normalize (d : Decimal) : d.normalize.negative = d.negative := by
  induction d using normalize.induct with
  | case1 d h => rw [normalize, if_pos h]
  | case2 d h h' ih =>
      rw [normalize, if_neg h, if_pos h']
      exact ih
  | case3 d h h' => rw [normalize, if_neg h, if_neg h']

/-- The decimal is, apart from its sign, `m` units of `2 ^ -1074`. -/
def Denotes (d : Decimal) (m : Nat) : Prop :=
  match d.exponent with
  | .ofNat e => d.digits * 10 ^ e * unitsPerOne = m
  | .negSucc e => d.digits * unitsPerOne = m * 10 ^ (e + 1)

theorem denotes_ofNat
    {d : Decimal} {m e : Nat}
    (he : d.exponent = .ofNat e) :
    d.Denotes m ↔ d.digits * 10 ^ e * unitsPerOne = m := by
  rw [Denotes, he]

theorem denotes_negSucc
    {d : Decimal} {m e : Nat}
    (he : d.exponent = .negSucc e) :
    d.Denotes m ↔ d.digits * unitsPerOne = m * 10 ^ (e + 1) := by
  rw [Denotes, he]

theorem denotes_step
    {negative : Bool} {q m : Nat} {exponent : Int}
    (h : Denotes ⟨negative, 10 * q, exponent⟩ m) :
    Denotes ⟨negative, q, exponent + 1⟩ m := by
  match exponent, h with
  | .ofNat e, h =>
      change 10 * q * 10 ^ e * unitsPerOne = m at h
      change q * 10 ^ (e + 1) * unitsPerOne = m
      rw [← h, Nat.pow_succ]
      ring
  | .negSucc 0, h =>
      change 10 * q * unitsPerOne = m * 10 ^ 1 at h
      change q * 10 ^ 0 * unitsPerOne = m
      have hten : 10 * (q * unitsPerOne) = 10 * m := by
        rw [← Nat.mul_assoc, h]
        ring
      rw [Nat.pow_zero, Nat.mul_one]
      exact Nat.eq_of_mul_eq_mul_left (by decide) hten
  | .negSucc (e + 1), h =>
      change 10 * q * unitsPerOne = m * 10 ^ (e + 1 + 1) at h
      change q * unitsPerOne = m * 10 ^ (e + 1)
      have hten : 10 * (q * unitsPerOne) = 10 * (m * 10 ^ (e + 1)) := by
        rw [← Nat.mul_assoc, h, Nat.pow_succ]
        ring
      exact Nat.eq_of_mul_eq_mul_left (by decide) hten

theorem Denotes.digits_ne_zero
    {d : Decimal} {m : Nat}
    (hm : m ≠ 0)
    (h : d.Denotes m) :
    d.digits ≠ 0 := by
  intro hzero
  cases he : d.exponent with
  | ofNat e =>
      rw [denotes_ofNat he, hzero, Nat.zero_mul, Nat.zero_mul] at h
      exact hm h.symm
  | negSucc e =>
      rw [denotes_negSucc he, hzero, Nat.zero_mul] at h
      have hpow : 0 < 10 ^ (e + 1) := Nat.pow_pos (by decide)
      exact Nat.mul_ne_zero hm (Nat.pos_iff_ne_zero.1 hpow) h.symm

theorem denotes_normalize
    {d : Decimal} {m : Nat}
    (hm : m ≠ 0)
    (h : d.Denotes m) :
    d.normalize.Denotes m := by
  induction d using normalize.induct with
  | case1 d h0 => exact absurd h0 (h.digits_ne_zero hm)
  | case2 d h0 h10 ih =>
      rw [normalize, if_neg h0, if_pos h10]
      apply ih
      apply denotes_step
      have hdigits : 10 * (d.digits / 10) = d.digits :=
        Nat.mul_div_cancel' (Nat.dvd_of_mod_eq_zero h10)
      rwa [hdigits]
  | case3 d h0 h10 =>
      rwa [normalize, if_neg h0, if_neg h10]

end Decimal

/-! Rounding. -/

theorem roundQuotient_mul
    {m den : Nat}
    (hfits : FitsBinary64 m)
    (hden : 0 < den) :
    roundQuotient (m * den) den = m := by
  obtain ⟨q, hq⟩ := Nat.dvd_of_mod_eq_zero hfits.2
  have hquot : m * den / den = m := Nat.mul_div_cancel m hden
  have hstep : 0 < den * Nat.pow 2 (m.log2 - 52) := Nat.mul_pos hden (Nat.pow_pos (by decide))
  have hnum : m * den = q * (den * Nat.pow 2 (m.log2 - 52)) := by
    rw [Nat.mul_left_comm, Nat.mul_comm q, ← hq, Nat.mul_comm]
  have hlow : m * den / (den * Nat.pow 2 (m.log2 - 52)) = q := by
    rw [hnum, Nat.mul_div_cancel q hstep]
  have hrest : m * den % (den * Nat.pow 2 (m.log2 - 52)) = 0 := by
    rw [hnum, Nat.mul_mod_left]
  unfold roundQuotient
  simp only [hquot, hlow, hrest, Nat.mul_zero, if_pos hstep]
  rw [Nat.mul_comm, ← hq]

theorem ofQuotient?_mul
    (x : Binary64)
    {den : Nat}
    (hden : 0 < den) :
    Binary64.ofQuotient? x.negative (x.magnitude * den) den = some x := by
  have hround := roundQuotient_mul x.fits hden
  unfold Binary64.ofQuotient?
  rw [dif_pos (by rw [hround]; exact x.fits)]
  cases x
  simp only [hround]

/-- The powers of two are kept under a name, so that they are not computed. -/
theorem unitsPerOne_eq
    {k : Nat}
    (hk : k = 1074) :
    unitsPerOne = 2 ^ k :=
  congrArg (Nat.pow 2) hk.symm

theorem magnitude_lt
    (x : Binary64)
    {k : Nat}
    (hk : k = 2098) :
    x.magnitude < 2 ^ k :=
  Nat.lt_of_lt_of_eq x.fits.1 (congrArg (Nat.pow 2) hk.symm)

theorem two_pow_le_ten_pow (n : Nat) : 2 ^ (3 * n) ≤ 10 ^ n := by
  rw [Nat.pow_mul]
  exact Nat.pow_le_pow_left (by decide) n

namespace Decimal

theorem Denotes.exponent_le
    {d : Decimal} {x : Binary64}
    (hx : x.magnitude ≠ 0)
    (h : d.Denotes x.magnitude) :
    d.exponent ≤ 400 := by
  have hdigits := h.digits_ne_zero hx
  obtain ⟨units, hunits⟩ : ∃ k, k = 1074 := ⟨_, rfl⟩
  obtain ⟨limit, hlimit⟩ : ∃ k, k = 2098 := ⟨_, rfl⟩
  cases he : d.exponent with
  | ofNat e =>
      rw [denotes_ofNat he] at h
      rw [Int.ofNat_eq_natCast]
      by_contra hgt
      have hpow : 2 ^ (3 * e) * 2 ^ units ≤ x.magnitude := by
        rw [← h, unitsPerOne_eq hunits]
        apply Nat.mul_le_mul_right
        calc 2 ^ (3 * e) ≤ 10 ^ e := two_pow_le_ten_pow e
          _ ≤ d.digits * 10 ^ e := Nat.le_mul_of_pos_left _ (Nat.pos_of_ne_zero hdigits)
      rw [← Nat.pow_add] at hpow
      have hlt : 2 ^ (3 * e + units) < 2 ^ limit := Nat.lt_of_le_of_lt hpow (magnitude_lt x hlimit)
      have hexp := (Nat.pow_lt_pow_iff_right (by decide)).1 hlt
      omega
  | negSucc e =>
      rw [Int.negSucc_eq]
      omega

theorem Denotes.le_exponent
    {d : Decimal} {m : Nat}
    (hm : m ≠ 0)
    (h : d.Denotes m) :
    -(401 + d.digits.log2 : Int) ≤ d.exponent := by
  obtain ⟨units, hunits⟩ : ∃ k, k = 1074 := ⟨_, rfl⟩
  cases he : d.exponent with
  | ofNat e =>
      rw [Int.ofNat_eq_natCast]
      omega
  | negSucc e =>
      rw [denotes_negSucc he] at h
      rw [Int.negSucc_eq]
      by_contra hlt
      have hdigits : d.digits < 2 ^ (d.digits.log2 + 1) := Nat.lt_log2_self
      have hpow : 2 ^ (3 * (e + 1)) < 2 ^ (d.digits.log2 + 1 + units) := by
        calc 2 ^ (3 * (e + 1)) ≤ 10 ^ (e + 1) := two_pow_le_ten_pow (e + 1)
          _ ≤ m * 10 ^ (e + 1) := Nat.le_mul_of_pos_left _ (Nat.pos_of_ne_zero hm)
          _ = d.digits * 2 ^ units := by rw [← h, unitsPerOne_eq hunits]
          _ < 2 ^ (d.digits.log2 + 1) * 2 ^ units :=
              Nat.mul_lt_mul_of_pos_right hdigits (Nat.pow_pos (by decide))
          _ = 2 ^ (d.digits.log2 + 1 + units) := (Nat.pow_add ..).symm
      have hexp := (Nat.pow_lt_pow_iff_right (by decide)).1 hpow
      omega

/-- The nearest number to a decimal that denotes a number is that number. -/
theorem nearest?_of_denotes
    {d : Decimal} {x : Binary64}
    (hsign : d.negative = x.negative)
    (hx : x.magnitude ≠ 0)
    (h : d.Denotes x.magnitude) :
    d.nearest? = some x := by
  have hdigits := h.digits_ne_zero hx
  have hupper := h.exponent_le hx
  have hlower := h.le_exponent hx
  unfold nearest?
  rw [if_neg hdigits, if_neg (by omega), if_neg (by omega), hsign]
  cases he : d.exponent with
  | ofNat e =>
      have hmul := ofQuotient?_mul x Nat.one_pos
      rw [Nat.mul_one, ← (denotes_ofNat he).1 h] at hmul
      exact hmul
  | negSucc e =>
      have hmul := ofQuotient?_mul x (Nat.pow_pos (by decide) : 0 < 10 ^ (e + 1))
      rw [← (denotes_negSucc he).1 h] at hmul
      exact hmul

end Decimal

namespace Binary64

theorem denotes_exactDecimal (x : Binary64) : x.exactDecimal.Denotes x.magnitude := by
  have hpow : ∀ k, k = 1074 → Nat.pow 5 k * unitsPerOne = Nat.pow 10 k := by
    intro k hk
    rw [unitsPerOne_eq hk, Nat.pow_eq, Nat.pow_eq, ← Nat.mul_pow]
  have hmul := congrArg (x.magnitude * ·) (hpow _ rfl)
  exact (Nat.mul_assoc ..).trans hmul

/-- The shortest decimal of a number reads back as that number. -/
theorem toBinary64?_shortest (x : Binary64) : x.shortest.toBinary64? = some x := by
  unfold shortest
  split
  next hzero =>
    obtain ⟨negative, magnitude, fits⟩ := x
    cases hzero
    simp [Decimal.toBinary64?, Decimal.normalize, Decimal.nearest?, zero]
  next hzero =>
    rw [Decimal.toBinary64?_normalize]
    cases hfound : (List.range 17).findSome?
        (fun i : Nat => x.candidate? (decimalExponent x.magnitude - i)) with
    | some d =>
        obtain ⟨i, -, hi⟩ := List.exists_of_findSome?_eq_some hfound
        exact toBinary64?_of_candidate hi
    | none =>
        have hdenotes := Decimal.denotes_normalize hzero x.denotes_exactDecimal
        refine Decimal.nearest?_of_denotes ?_ hzero hdenotes
        rw [Decimal.negative_normalize]
        rfl

theorem negative_of_ofQuotient?
    {negative : Bool} {num den : Nat} {x : Binary64}
    (h : ofQuotient? negative num den = some x) :
    x.negative = negative := by
  unfold ofQuotient? at h
  split at h
  · cases h
    rfl
  · cases h

theorem negative_of_nearest?
    {d : Decimal} {x : Binary64}
    (h : d.nearest? = some x) :
    x.negative = d.negative := by
  unfold Decimal.nearest? at h
  split at h
  · cases h
    rfl
  · split at h
    · cases h
    · split at h
      · cases h
        rfl
      · split at h
        · exact negative_of_ofQuotient? h
        · exact negative_of_ofQuotient? h

theorem negative_shortest (x : Binary64) : x.shortest.negative = x.negative := by
  have h := toBinary64?_shortest x
  rw [Decimal.toBinary64?] at h
  rw [negative_of_nearest? h, Decimal.negative_normalize]

end Binary64
end Warrant
