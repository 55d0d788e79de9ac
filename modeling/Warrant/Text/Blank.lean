/-!
# Blank characters

A blank is a character with the Unicode property `White_Space`: the ASCII blanks and, among
others, the no-break space and the ideographic space, but neither the zero width space nor the
byte order mark.  `trim` takes the blanks from both ends of a text, and `isAllBlank` says that
nothing else is in it.

**Results.**
* `head?_trimStart`: what is left after trimming at the front does not begin with a blank.
* `trimStart_eq_nil_iff`: trimming leaves nothing exactly of a blank text.
-/

namespace Warrant
namespace Text

/-- Whether a character has the property `White_Space`. -/
def isBlank (c : Char) : Bool :=
  let n := c.toNat
  (9 ≤ n && n ≤ 13) || n == 32 || n == 133 || n == 160 || n == 5760 || (8192 ≤ n && n ≤ 8202) ||
    n == 8232 || n == 8233 || n == 8239 || n == 8287 || n == 12288

/-- The text from its first character that is not blank. -/
def trimStart (s : List Char) : List Char :=
  s.dropWhile isBlank

/-- The text without the blanks at either end. -/
def trim (s : List Char) : List Char :=
  (trimStart (trimStart s).reverse).reverse

/-- Whether a text consists of blanks only. -/
def isAllBlank (s : List Char) : Bool :=
  s.all isBlank

theorem head?_trimStart (s : List Char) (c : Char) (h : (trimStart s).head? = some c) :
    isBlank c = false := by
  induction s with
  | nil => simp [trimStart] at h
  | cons d r ih =>
      simp only [trimStart, List.dropWhile_cons] at *
      split at h
      · exact ih h
      · next hd => simp_all

theorem trimStart_eq_nil_iff (s : List Char) : trimStart s = [] ↔ isAllBlank s = true := by
  induction s with
  | nil => simp [trimStart, isAllBlank]
  | cons c r ih =>
      simp only [trimStart, isAllBlank, List.dropWhile_cons, List.all_cons] at *
      split
      · next hc => simp [hc, ih]
      · next hc => simp [hc]

end Text
end Warrant
