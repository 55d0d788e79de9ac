import Warrant.Proofs.Number.Shortest

/-!
# The nearest numbers to integers

Rounding to 53 significant bits keeps the order of whole numbers: numbers of the same length are
rounded to multiples of one step, and between numbers of different lengths there is a power of two,
which neither of the two passes.  Numbers up to `2 ^ 53` are kept exactly.  So two integers have the
same nearest number only if both are at least as large as that.

**Results.**
* `roundQuotient_mono`: rounding keeps the order.
* `nearestUnits_mono`: larger integers have no smaller nearest numbers.
* `nearestUnits_of_natAbs_le`: an integer up to `2 ^ 53` is its own nearest number.
* `eq_of_nearestUnits_eq`: below `2 ^ 53`, the nearest number tells an integer from all others.
-/

namespace Warrant

/-! Rounding to multiples of one step. -/

/-- The number of steps nearest to a whole number; of two equally near ones the even one. -/
def nearestSteps (step n : Nat) : Nat :=
  if 2 * (n % step) < step then n / step
  else if step < 2 * (n % step) then n / step + 1
  else n / step + n / step % 2

theorem roundQuotient_one (n : Nat) :
    roundQuotient n 1 = nearestSteps (2 ^ (n.log2 - 52)) n * 2 ^ (n.log2 - 52) := by
  unfold roundQuotient nearestSteps
  simp only [Nat.div_one, Nat.one_mul, Nat.pow_eq]

section Steps

variable {step m n : Nat}

theorem div_le_nearestSteps (step n : Nat) : n / step ≤ nearestSteps step n := by
  unfold nearestSteps
  split
  · exact Nat.le_refl _
  · split
    · exact Nat.le_succ _
    · exact Nat.le_add_right ..

theorem nearestSteps_le (step n : Nat) : nearestSteps step n ≤ n / step + 1 := by
  unfold nearestSteps
  split
  · exact Nat.le_succ _
  · split
    · exact Nat.le_refl _
    · omega

theorem nearestSteps_mono
    (h : m ≤ n) :
    nearestSteps step m ≤ nearestSteps step n := by
  rcases Nat.lt_or_eq_of_le (Nat.div_le_div_right (c := step) h) with hlt | heq
  · calc nearestSteps step m ≤ m / step + 1 := nearestSteps_le step m
      _ ≤ n / step := hlt
      _ ≤ nearestSteps step n := div_le_nearestSteps step n
  have hmod : m % step ≤ n % step := by
    have hm := Nat.div_add_mod m step
    have hn := Nat.div_add_mod n step
    rw [heq] at hm
    omega
  by_cases hbelow : 2 * (m % step) < step
  · rw [nearestSteps, if_pos hbelow, heq]
    exact div_le_nearestSteps step n
  have hbelow' : ¬2 * (n % step) < step := by omega
  rw [nearestSteps, nearestSteps, if_neg hbelow, if_neg hbelow', heq]
  by_cases habove : step < 2 * (m % step)
  · rw [if_pos habove, if_pos (by omega)]
  · rw [if_neg habove]
    split <;> omega

end Steps

/-! The powers of two around a number bound its rounding. -/

section Rounding

variable {m n : Nat}

theorem two_pow_log2_le_roundQuotient
    (hn : n ≠ 0) :
    2 ^ n.log2 ≤ roundQuotient n 1 := by
  have hself : 2 ^ n.log2 ≤ n := Nat.log2_self_le hn
  rw [roundQuotient_one]
  rcases Nat.le_total n.log2 52 with hshort | hlong
  · rw [Nat.sub_eq_zero_of_le hshort, Nat.pow_zero, Nat.mul_one]
    calc 2 ^ n.log2 ≤ n / 1 := by rwa [Nat.div_one]
      _ ≤ nearestSteps 1 n := div_le_nearestSteps 1 n
  · have hstep : 2 ^ n.log2 = 2 ^ 52 * 2 ^ (n.log2 - 52) := by
      rw [← Nat.pow_add, Nat.add_sub_cancel' hlong]
    rw [hstep]
    apply Nat.mul_le_mul_right
    calc 2 ^ 52 ≤ n / 2 ^ (n.log2 - 52) := by
          rw [Nat.le_div_iff_mul_le (Nat.two_pow_pos _), ← hstep]
          exact hself
      _ ≤ nearestSteps (2 ^ (n.log2 - 52)) n := div_le_nearestSteps _ n

theorem roundQuotient_le_two_pow (n : Nat) : roundQuotient n 1 ≤ 2 ^ (n.log2 + 1) := by
  have hself : n < 2 ^ (n.log2 + 1) := Nat.lt_log2_self
  rw [roundQuotient_one]
  rcases Nat.le_total n.log2 52 with hshort | hlong
  · rw [Nat.sub_eq_zero_of_le hshort, Nat.pow_zero, Nat.mul_one]
    calc nearestSteps 1 n ≤ n / 1 + 1 := nearestSteps_le 1 n
      _ ≤ 2 ^ (n.log2 + 1) := by rwa [Nat.div_one]
  · have hstep : 2 ^ (n.log2 + 1) = 2 ^ 53 * 2 ^ (n.log2 - 52) := by
      rw [← Nat.pow_add]
      congr 1
      omega
    rw [hstep]
    apply Nat.mul_le_mul_right
    calc nearestSteps (2 ^ (n.log2 - 52)) n ≤ n / 2 ^ (n.log2 - 52) + 1 := nearestSteps_le _ n
      _ ≤ 2 ^ 53 := by
          rw [Nat.succ_le_iff, Nat.div_lt_iff_lt_mul (Nat.two_pow_pos _), ← hstep]
          exact hself

/-- Rounding keeps the order. -/
theorem roundQuotient_mono
    (h : m ≤ n) :
    roundQuotient m 1 ≤ roundQuotient n 1 := by
  by_cases hm : m = 0
  · subst hm
    exact Nat.zero_le _
  have hn : n ≠ 0 := by omega
  have hlog : m.log2 ≤ n.log2 := by
    rw [Nat.le_log2 hn]
    exact (Nat.log2_self_le hm).trans h
  rcases Nat.lt_or_eq_of_le hlog with hlt | heq
  · calc roundQuotient m 1 ≤ 2 ^ (m.log2 + 1) := roundQuotient_le_two_pow m
      _ ≤ 2 ^ n.log2 := Nat.pow_le_pow_right (by decide) hlt
      _ ≤ roundQuotient n 1 := two_pow_log2_le_roundQuotient hn
  · rw [roundQuotient_one, roundQuotient_one, heq]
    exact Nat.mul_le_mul_right _ (nearestSteps_mono h)

end Rounding

theorem unitsPerOne_pos : 0 < unitsPerOne := by
  obtain ⟨units, hunits⟩ : ∃ k, k = 1074 := ⟨_, rfl⟩
  rw [unitsPerOne_eq hunits]
  exact Nat.two_pow_pos _

theorem overflowUnits_eq
    {k : Nat}
    (hk : k = 2098) :
    overflowUnits = 2 ^ k :=
  congrArg (Nat.pow 2) hk.symm

/-- A whole number up to `2 ^ 53` is a binary64 number. -/
theorem fitsBinary64_mul_unitsPerOne
    {n : Nat}
    (h : n ≤ 2 ^ 53) :
    FitsBinary64 (n * unitsPerOne) := by
  obtain ⟨units, hunits⟩ : ∃ k, k = 1074 := ⟨_, rfl⟩
  obtain ⟨limit, hlimit⟩ : ∃ k, k = 2098 := ⟨_, rfl⟩
  rw [FitsBinary64, unitsPerOne_eq hunits, overflowUnits_eq hlimit, Nat.pow_eq]
  refine ⟨?_, ?_⟩
  · calc n * 2 ^ units ≤ 2 ^ 53 * 2 ^ units := Nat.mul_le_mul_right _ h
      _ = 2 ^ (53 + units) := (Nat.pow_add ..).symm
      _ < 2 ^ limit := Nat.pow_lt_pow_right (by decide) (by omega)
  by_cases hzero : n = 0
  · rw [hzero, Nat.zero_mul, Nat.zero_mod]
  have hlog : (n * 2 ^ units).log2 = n.log2 + units := by
    rw [Nat.log2_eq_iff (Nat.mul_ne_zero hzero (Nat.two_pow_pos _).ne')]
    rw [Nat.add_right_comm, Nat.pow_add, Nat.pow_add]
    exact ⟨Nat.mul_le_mul_right _ (Nat.log2_self_le hzero),
      Nat.mul_lt_mul_of_pos_right Nat.lt_log2_self (Nat.two_pow_pos _)⟩
  rw [hlog]
  apply Nat.mod_eq_zero_of_dvd
  rcases Nat.lt_or_eq_of_le h with hlt | rfl
  · have hlt' : n.log2 < 53 := (Nat.log2_lt hzero).2 hlt
    exact Nat.dvd_mul_left_of_dvd (Nat.pow_dvd_pow 2 (by omega)) n
  · rw [← Nat.pow_add, Nat.log2_two_pow]
    exact Nat.pow_dvd_pow 2 (by omega)

namespace Binary64

variable {m n : Int}

theorem nearestUnits_of_nonneg
    (h : 0 ≤ n) :
    nearestUnits n = roundQuotient (n.natAbs * unitsPerOne) 1 := by
  rw [nearestUnits]
  rcases Int.lt_or_eq_of_le h with hpos | rfl
  · rw [Int.sign_eq_one_of_pos hpos, Int.one_mul]
  · rw [Int.natAbs_zero, Nat.zero_mul]
    rfl

theorem nearestUnits_neg (n : Int) : nearestUnits (-n) = -nearestUnits n := by
  rw [nearestUnits, nearestUnits, Int.natAbs_neg, Int.sign_neg, Int.neg_mul]

/-- Larger integers have no smaller nearest numbers. -/
theorem nearestUnits_mono
    (h : m ≤ n) :
    nearestUnits m ≤ nearestUnits n := by
  have hnonneg : ∀ {a b : Int}, 0 ≤ a → a ≤ b → nearestUnits a ≤ nearestUnits b := by
    intro a b ha hab
    rw [nearestUnits_of_nonneg ha, nearestUnits_of_nonneg (ha.trans hab)]
    exact Int.ofNat_le.2 (roundQuotient_mono (Nat.mul_le_mul_right _ (by omega)))
  have hsign : ∀ {a : Int}, 0 ≤ a → 0 ≤ nearestUnits a := by
    intro a ha
    rw [nearestUnits_of_nonneg ha]
    exact Int.natCast_nonneg _
  rcases Int.le_total 0 m with hm | hm
  · exact hnonneg hm h
  rcases Int.le_total 0 n with hn | hn
  · have hneg := hsign (Int.neg_nonneg.2 hm)
    rw [nearestUnits_neg] at hneg
    exact (Int.neg_nonneg.1 hneg).trans (hsign hn)
  · have hneg := hnonneg (Int.neg_nonneg.2 hn) (Int.neg_le_neg h)
    rw [nearestUnits_neg, nearestUnits_neg] at hneg
    exact Int.neg_le_neg_iff.1 hneg

/-- An integer up to `2 ^ 53` is its own nearest number. -/
theorem nearestUnits_of_natAbs_le
    (h : n.natAbs ≤ 2 ^ 53) :
    nearestUnits n = n * unitsPerOne := by
  have hround := roundQuotient_mul (fitsBinary64_mul_unitsPerOne h) Nat.one_pos
  rw [Nat.mul_one] at hround
  rw [nearestUnits, hround, Int.natCast_mul, ← Int.mul_assoc, Int.sign_mul_natAbs]

theorem nearestUnits_lt_of_lt
    (hsmall : m.natAbs < 2 ^ 53 ∨ n.natAbs < 2 ^ 53)
    (h : m < n) :
    nearestUnits m < nearestUnits n := by
  have hunits : (0 : Int) < unitsPerOne := Int.natCast_pos.2 unitsPerOne_pos
  have hstep : ∀ {a : Int}, a.natAbs ≤ 2 ^ 53 → (a + 1).natAbs ≤ 2 ^ 53 →
      nearestUnits a < nearestUnits (a + 1) := by
    intro a ha ha'
    rw [nearestUnits_of_natAbs_le ha, nearestUnits_of_natAbs_le ha']
    exact Int.mul_lt_mul_of_pos_right (Int.lt_succ a) hunits
  rcases hsmall with hm | hn
  · calc nearestUnits m < nearestUnits (m + 1) := hstep (by omega) (by omega)
      _ ≤ nearestUnits n := nearestUnits_mono h
  · calc nearestUnits m ≤ nearestUnits (n - 1) := nearestUnits_mono (by omega)
      _ < nearestUnits (n - 1 + 1) := hstep (by omega) (by omega)
      _ = nearestUnits n := by rw [Int.sub_add_cancel]

/-- Below `2 ^ 53`, the nearest number tells an integer from all others. -/
theorem eq_of_nearestUnits_eq
    (hsmall : m.natAbs < 2 ^ 53 ∨ n.natAbs < 2 ^ 53)
    (h : nearestUnits m = nearestUnits n) :
    m = n := by
  rcases Int.lt_trichotomy m n with hlt | heq | hgt
  · exact absurd h (Int.ne_of_lt (nearestUnits_lt_of_lt hsmall hlt))
  · exact heq
  · exact absurd h.symm (Int.ne_of_lt (nearestUnits_lt_of_lt hsmall.symm hgt))

end Binary64
end Warrant
