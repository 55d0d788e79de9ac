/-!
# Hexadecimal numerals

The value of hexadecimal digits of either case.

**Results.**
* `hexDigit?_lt`: a digit is less than sixteen.
-/

namespace Warrant

/-- The value of a hexadecimal digit. -/
def hexDigit? (c : Char) : Option Nat :=
  if '0' ≤ c ∧ c ≤ '9' then some (c.toNat - '0'.toNat)
  else if 'a' ≤ c ∧ c ≤ 'f' then some (c.toNat - 'a'.toNat + 10)
  else if 'A' ≤ c ∧ c ≤ 'F' then some (c.toNat - 'A'.toNat + 10)
  else none

/-- The number written by hexadecimal digits, after those that gave `n`. -/
def hexNumberFrom? (n : Nat) : List Char → Option Nat
  | [] => some n
  | c :: r =>
      match hexDigit? c with
      | some d => hexNumberFrom? (16 * n + d) r
      | none => none

/-- The number written by hexadecimal digits. -/
def hexNumber? (s : List Char) : Option Nat :=
  hexNumberFrom? 0 s

theorem hexDigit?_lt {c : Char} {d : Nat} (h : hexDigit? c = some d) : d < 16 := by
  have le_toNat : ∀ {a b : Char}, a ≤ b → a.toNat ≤ b.toNat := fun hab => hab
  unfold hexDigit? at h
  split at h
  · next hc =>
      have h1 := le_toNat hc.2
      have e : '9'.toNat = 57 := rfl
      have e' : '0'.toNat = 48 := rfl
      simp only [Option.some.injEq] at h
      omega
  · split at h
    · next hc =>
        have h1 := le_toNat hc.2
        have e : 'f'.toNat = 102 := rfl
        have e' : 'a'.toNat = 97 := rfl
        simp only [Option.some.injEq] at h
        omega
    · split at h
      · next hc =>
          have h1 := le_toNat hc.2
          have e : 'F'.toNat = 70 := rfl
          have e' : 'A'.toNat = 65 := rfl
          simp only [Option.some.injEq] at h
          omega
      · exact absurd h (by simp)

end Warrant
