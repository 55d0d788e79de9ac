/-!
# Integers of 64 bits

The bounds of signed and of unsigned integers of 64 bits, written out.
-/

namespace Warrant

/-- One more than the greatest signed integer: the sixty-third power of two. -/
def signedBound : Int :=
  9223372036854775808

/-- One more than the greatest unsigned integer: the sixty-fourth power of two. -/
def unsignedBound : Int :=
  18446744073709551616

/-- Whether a signed integer of 64 bits holds a number. -/
def FitsSigned (n : Int) : Prop :=
  -signedBound ≤ n ∧ n < signedBound

/-- Whether an unsigned integer of 64 bits holds a number. -/
def FitsUnsigned (n : Int) : Prop :=
  0 ≤ n ∧ n < unsignedBound

instance (n : Int) : Decidable (FitsSigned n) :=
  inferInstanceAs (Decidable (_ ∧ _))

instance (n : Int) : Decidable (FitsUnsigned n) :=
  inferInstanceAs (Decidable (_ ∧ _))

end Warrant
