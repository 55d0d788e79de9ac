/-!
# The rest of a text

A reader takes characters or tokens from the front of a text and hands on the rest.  `Shorter s`
is the type of rests of `s` that are shorter than `s`: readers that return it can call each other
on what is left, and their recursion ends because the texts get shorter.

**Results.**
* `length_lt_of_dropWhile`: what follows the first character after a skipped run is shorter.
-/

namespace Warrant
namespace Text

variable {α : Type}

/-- What is left of a text after something was read from it. -/
abbrev Shorter (s : List α) := { r : List α // r.length < s.length }

theorem length_lt_cons (c : α) (r : List α) : r.length < (c :: r).length :=
  Nat.lt_succ_self _

theorem lt_length_cons_of_lt (c : α) {r rest : List α} (h : rest.length < r.length) :
    rest.length < (c :: r).length :=
  Nat.lt_succ_of_lt h

theorem length_dropWhile_le (p : α → Bool) (s : List α) : (s.dropWhile p).length ≤ s.length :=
  (List.dropWhile_sublist p).length_le

theorem length_lt_of_dropWhile {p : α → Bool} {s r : List α} {c : α}
    (h : s.dropWhile p = c :: r) : r.length < s.length := by
  have := length_dropWhile_le p s
  rw [h, List.length_cons] at this
  exact this

end Text
end Warrant
