import Warrant.Text.CaseTable

/-!
# Full lowercase text

Every character moves to its simple lowercase form, with the two exceptions that full case
mapping makes: a capital I with a dot above becomes two characters, and a capital sigma that
ends a word takes its final form.  Whether it does is read off the neighbouring characters,
skipping those that case mapping ignores.

**Results.**
* `lowercase_of_no_sigma`: away from the capital sigma the mapping goes character by character.
-/

namespace Warrant
namespace Text

/-- The simple lowercase form of a character. -/
def lowerChar (c : Char) : Char :=
  match lowerRuns.find? (·.covers c.toNat) with
  | some r => Char.ofNat (Int.toNat (c.toNat + r.shift))
  | none => c

/-- The lowercase form of a character that stands alone. -/
def lowerForms (c : Char) : List Char :=
  if c = '\u0130' then ['i', '\u0307'] else [lowerChar c]

/-- Whether a code point lies in one of the given inclusive ranges. -/
def inRanges (ranges : List (Nat × Nat)) (c : Char) : Bool :=
  ranges.any fun r => decide (r.1 ≤ c.toNat) && decide (c.toNat ≤ r.2)

/-- Whether the first character that case mapping does not ignore has case. -/
def meetsCased (s : List Char) : Bool :=
  match s.dropWhile (inRanges ignorableRanges) with
  | [] => false
  | c :: _ => inRanges casedRanges c

/-- The lowercase form of what follows the characters `before`, which stand in reverse order. -/
def lowercaseAfter (before : List Char) : List Char → List Char
  | [] => []
  | c :: rest =>
      let tail := lowercaseAfter (c :: before) rest
      if c = 'Σ' then
        (if meetsCased before && !meetsCased rest then 'ς' else 'σ') :: tail
      else
        lowerForms c ++ tail

/-- The full lowercase form of a text. -/
def lowercase (s : List Char) : List Char :=
  lowercaseAfter [] s

theorem lowercaseAfter_of_no_sigma (before s : List Char) (h : 'Σ' ∉ s) :
    lowercaseAfter before s = s.flatMap lowerForms := by
  induction s generalizing before with
  | nil => rfl
  | cons c r ih =>
      simp only [List.mem_cons, not_or] at h
      have hc : c ≠ 'Σ' := fun e => h.1 e.symm
      simp [lowercaseAfter, hc, ih _ h.2]

/-- Away from the capital sigma a text is lowercased character by character. -/
theorem lowercase_of_no_sigma (s : List Char) (h : 'Σ' ∉ s) :
    lowercase s = s.flatMap lowerForms :=
  lowercaseAfter_of_no_sigma [] s h

end Text
end Warrant
