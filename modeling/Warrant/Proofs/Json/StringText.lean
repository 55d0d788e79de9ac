import Mathlib.Tactic.SplitIfs
import Warrant.Json.Printer
import Warrant.Proofs.Json.Reading

/-!
# Reading strings back

A string is written between double quotes, with the quote, the backslash and the control characters
escaped.  Its text is read as that string again, whatever characters it holds.

**Results.**
* `pieces_escapeChar`: an escaped character is one piece, which stands for that character.
* `read?_print_string`: the text of a string is read as the string.
-/

namespace Warrant
namespace Json

open Reader

/-- The three ways in which a character stands in a string. -/
theorem escapeChar_cases (c : Char) :
    (∃ d, d ≠ 'u' ∧ simpleEscape? d = some c ∧ escapeChar c = ['\\', d]) ∨
    (c.toNat < 32 ∧ escapeChar c = ['\\', 'u', '0', '0'] ++ hexPair c.toNat) ∨
    (c ≠ '"' ∧ c ≠ '\\' ∧ ¬c.toNat < 32 ∧ escapeChar c = [c]) := by
  unfold escapeChar
  split_ifs with hquote hslash hb hf hn hr ht hlow
  · exact Or.inl ⟨'"', by decide, by rw [hquote]; rfl, rfl⟩
  · exact Or.inl ⟨'\\', by decide, by rw [hslash]; rfl, rfl⟩
  · exact Or.inl ⟨'b', by decide, by rw [hb]; rfl, rfl⟩
  · exact Or.inl ⟨'f', by decide, by rw [hf]; rfl, rfl⟩
  · exact Or.inl ⟨'n', by decide, by rw [hn]; rfl, rfl⟩
  · exact Or.inl ⟨'r', by decide, by rw [hr]; rfl, rfl⟩
  · exact Or.inl ⟨'t', by decide, by rw [ht]; rfl, rfl⟩
  · exact Or.inr (Or.inl ⟨hlow, rfl⟩)
  · exact Or.inr (Or.inr ⟨hquote, hslash, hlow, rfl⟩)

theorem hexNumber?_hexPair :
    ∀ n < 32, hexNumber? (['0', '0'] ++ hexPair n) = some n := by
  decide

/-- A piece that stands for a character by itself. -/
def StandsFor (p : Piece) (c : Char) : Prop :=
  ∀ ps, joinPieces (p :: ps) = (joinPieces ps).map (c :: ·)

theorem standsFor_char (c : Char) : StandsFor (.char c) c :=
  fun _ => rfl

theorem standsFor_unit
    {c : Char}
    (hc : c.toNat < 32) :
    StandsFor (.unit c.toNat) c := by
  intro ps
  have hplane : (c.toNat < 0xD800 || 0xDFFF < c.toNat) = true := by
    simp only [Bool.or_eq_true, decide_eq_true_eq]
    omega
  rw [joinPieces.eq_def]
  dsimp only
  rw [if_pos hplane, Char.ofNat_toNat]

section Pieces

variable {c : Char}

theorem pieces_of_escape
    {d : Char}
    (hu : d ≠ 'u')
    (hd : simpleEscape? d = some c)
    (s : List Char) :
    pieces ('\\' :: d :: s) = (pieces s).map fun read => (.char c :: read.1, read.2) := by
  rw [pieces]
  · rw [hd]
    cases pieces s <;> rfl
  · rintro _ _ _ _ _ rfl
    exact absurd rfl hu

theorem pieces_of_control
    (hc : c.toNat < 32)
    (s : List Char) :
    pieces (['\\', 'u', '0', '0'] ++ hexPair c.toNat ++ s) =
      (pieces s).map fun read => (.unit c.toNat :: read.1, read.2) := by
  have hnumber := hexNumber?_hexPair c.toNat hc
  simp only [hexPair, List.cons_append, List.nil_append] at hnumber ⊢
  rw [pieces, hnumber]
  cases pieces s <;> rfl

theorem pieces_of_plain
    (hquote : c ≠ '"')
    (hslash : c ≠ '\\')
    (hc : ¬c.toNat < 32)
    (s : List Char) :
    pieces (c :: s) = (pieces s).map fun read => (.char c :: read.1, read.2) := by
  rw [pieces]
  · rw [if_neg (by simp [hc, hslash])]
    cases pieces s <;> rfl
  · exact hquote
  · exact fun _ _ _ _ _ h _ => hslash h
  · exact fun _ _ h _ => hslash h

end Pieces

/-- An escaped character is one piece, which stands for that character. -/
theorem pieces_escapeChar
    (c : Char)
    (s : List Char) :
    ∃ p, StandsFor p c ∧
      pieces (escapeChar c ++ s) = (pieces s).map fun read => (p :: read.1, read.2) := by
  rcases escapeChar_cases c with ⟨d, hu, hd, heq⟩ | ⟨hlow, heq⟩ | ⟨hquote, hslash, hlow, heq⟩
  · rw [heq]
    exact ⟨.char c, standsFor_char c, pieces_of_escape hu hd s⟩
  · rw [heq]
    exact ⟨.unit c.toNat, standsFor_unit hlow, pieces_of_control hlow s⟩
  · rw [heq]
    exact ⟨.char c, standsFor_char c, pieces_of_plain hquote hslash hlow s⟩

theorem exists_pieces_escaped
    (cs rest : List Char) :
    ∃ ps, pieces (cs.flatMap escapeChar ++ '"' :: rest) = some (ps, rest) ∧
      joinPieces ps = some cs := by
  induction cs with
  | nil => exact ⟨[], rfl, rfl⟩
  | cons c cs ih =>
      obtain ⟨ps, hread, hjoin⟩ := ih
      obtain ⟨p, hp, hpiece⟩ := pieces_escapeChar c (cs.flatMap escapeChar ++ '"' :: rest)
      refine ⟨p :: ps, ?_, ?_⟩
      · rw [List.flatMap_cons, List.append_assoc, hpiece, hread]
        rfl
      · rw [hp, hjoin]
        rfl

/-- The text of a string is read as the string. -/
theorem read?_print_string
    [Floats]
    (depth : Nat)
    (s : String) :
    read? depth (Json.string s).print = some (.string s) := by
  obtain ⟨ps, hread, hjoin⟩ := exists_pieces_escaped s.toList []
  have htext : (Json.string s).print.toList = '"' :: (s.toList.flatMap escapeChar ++ ['"']) := by
    rw [print, String.toList_ofList, text, stringText, List.cons_append]
  rw [read?_string depth htext hread hjoin, String.ofList_toList]

end Json
end Warrant
