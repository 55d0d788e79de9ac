import Mathlib.Data.List.TakeWhile
import Warrant.Text.Blank
import Warrant.Text.Brace

/-!
# Runs of characters

A reader takes from the front of a text the run of characters that belong together.  Where the
run ends is told by the first character that does not belong to it.

**Results.**
* `takeWhile_run`, `dropWhile_run`: a run is taken off the text that follows it.
* `brace_parts_iff`: a text is divided at its first brace in one way only.
* `trim_eq_self_iff`: a text is its own trimmed form if neither end is blank.
* `trim_eq_nil_iff`: trimming leaves nothing exactly of a blank text.
-/

namespace Warrant
namespace Text

variable {p : Char → Bool} {s rest : List Char}

/-- The text does not begin with a character of the run. -/
def Stops (p : Char → Bool) (s : List Char) : Prop :=
  ∀ c ∈ s.head?, p c = false

theorem stops_nil : Stops p [] := by
  rintro _ ⟨⟩

theorem stops_cons
    {c : Char}
    (hc : p c = false)
    (s : List Char) :
    Stops p (c :: s) := by
  rintro _ ⟨⟩
  exact hc

theorem Stops.head
    {c : Char}
    (h : Stops p (c :: s)) :
    p c = false :=
  h c rfl

theorem takeWhile_of_stops (h : Stops p s) : s.takeWhile p = [] := by
  cases s with
  | nil => rfl
  | cons c s => simp [h.head]

theorem dropWhile_of_stops (h : Stops p s) : s.dropWhile p = s := by
  cases s with
  | nil => rfl
  | cons c s => simp [h.head]

theorem takeWhile_run
    (hs : ∀ c ∈ s, p c = true)
    (hrest : Stops p rest) :
    (s ++ rest).takeWhile p = s := by
  rw [List.takeWhile_append_of_pos hs, takeWhile_of_stops hrest, List.append_nil]

theorem dropWhile_run
    (hs : ∀ c ∈ s, p c = true)
    (hrest : Stops p rest) :
    (s ++ rest).dropWhile p = rest := by
  rw [List.dropWhile_append_of_pos hs, dropWhile_of_stops hrest]

theorem stops_append
    (hs : s ≠ [])
    (h : Stops p s) :
    Stops p (s ++ rest) := by
  cases s with
  | nil => exact absurd rfl hs
  | cons c s => exact stops_cons h.head _

/-- A text that begins a text begins like it. -/
theorem stops_of_isPrefix
    {t : List Char}
    (ht : t <+: s)
    (hs : Stops p s) :
    Stops p t := by
  obtain ⟨tail, rfl⟩ := ht
  cases t with
  | nil => exact stops_nil
  | cons c t => exact stops_cons hs.head t

theorem stops_dropWhile
    (p : Char → Bool)
    (s : List Char) :
    Stops p (s.dropWhile p) := by
  intro c hc
  cases hd : s.dropWhile p with
  | nil => rw [hd] at hc; cases hc
  | cons d r =>
      rw [hd] at hc
      cases hc
      have hne : s.dropWhile p ≠ [] := by rw [hd]; exact List.cons_ne_nil _ _
      have hhead := List.head_dropWhile_not p hne
      simpa [hd] using hhead

/-! Braces. -/

/-- A text is divided at its first brace in one way only. -/
theorem brace_parts_iff
    {rest body block : List Char} :
    body = beforeBrace rest ∧ block = fromBrace rest ↔
      rest = body ++ block ∧ (∀ c ∈ body, isBrace c = false) ∧
        ∀ c ∈ block.head?, isBrace c = true := by
  constructor
  · rintro ⟨rfl, rfl⟩
    refine ⟨(beforeBrace_append_fromBrace rest).symm, ?_, ?_⟩
    · intro c hc
      have hnot := List.mem_takeWhile_imp hc
      rwa [Bool.not_eq_true'] at hnot
    · intro c hc
      have hstop := stops_dropWhile (!isBrace ·) rest c hc
      rwa [Bool.not_eq_false'] at hstop
  · rintro ⟨rfl, hbody, hblock⟩
    have hrun : ∀ c ∈ body, (!isBrace c) = true := by
      intro c hc
      rw [hbody c hc]
      rfl
    have hstops : Stops (!isBrace ·) block := by
      intro c hc
      dsimp only
      rw [hblock c hc]
      rfl
    exact ⟨(takeWhile_run hrun hstops).symm, (dropWhile_run hrun hstops).symm⟩

/-! Blanks at the ends. -/

theorem isBlank_eq_false
    {c : Char}
    (hlow : 33 ≤ c.toNat)
    (hhigh : c.toNat ≤ 132) :
    isBlank c = false := by
  simp only [isBlank, Bool.or_eq_false_iff, Bool.and_eq_false_iff, decide_eq_false_iff_not,
    beq_eq_false_iff_ne]
  omega

theorem trim_of_stops
    (hfront : Stops isBlank s)
    (hback : Stops isBlank s.reverse) :
    trim s = s := by
  unfold trim trimStart
  rw [dropWhile_of_stops hfront, dropWhile_of_stops hback, List.reverse_reverse]

theorem stops_reverse_trim (s : List Char) : Stops isBlank (trim s).reverse := by
  unfold trim
  rw [List.reverse_reverse]
  exact stops_dropWhile isBlank _

theorem trim_isPrefix_trimStart (s : List Char) : trim s <+: trimStart s := by
  have hsuffix : trimStart (trimStart s).reverse <:+ (trimStart s).reverse :=
    List.dropWhile_suffix isBlank
  have hreverse := List.reverse_prefix.2 hsuffix
  rwa [List.reverse_reverse] at hreverse

theorem stops_trim (s : List Char) : Stops isBlank (trim s) :=
  stops_of_isPrefix (trim_isPrefix_trimStart s) (stops_dropWhile isBlank s)

/-- A text that does not begin with a blank is begun by its trimmed form. -/
theorem trim_isPrefix
    (hs : Stops isBlank s) :
    trim s <+: s := by
  have hstart := trim_isPrefix_trimStart s
  rwa [trimStart, dropWhile_of_stops hs] at hstart

/-- A text is its own trimmed form if neither end is blank. -/
theorem trim_eq_self_iff : trim s = s ↔ Stops isBlank s ∧ Stops isBlank s.reverse := by
  constructor
  · intro h
    rw [← h]
    exact ⟨stops_trim s, stops_reverse_trim s⟩
  · rintro ⟨hfront, hback⟩
    exact trim_of_stops hfront hback

/-- A character at the front that is not blank stays there. -/
theorem exists_trim_eq_cons
    {c : Char}
    (hc : isBlank c = false)
    (s : List Char) :
    ∃ r, trim (c :: s) = c :: r := by
  have hstart : trimStart (c :: s) = c :: s := dropWhile_of_stops (stops_cons hc s)
  have hlast : [c].dropWhile isBlank = [c] := dropWhile_of_stops (stops_cons hc [])
  rw [trim, hstart, trimStart, List.reverse_cons, List.dropWhile_append]
  split
  · exact ⟨[], by rw [hlast]; rfl⟩
  · exact ⟨_, by rw [List.reverse_append]; rfl⟩

/-- Trimming leaves nothing exactly of a blank text. -/
theorem trim_eq_nil_iff : trim s = [] ↔ isAllBlank s = true := by
  rw [← trimStart_eq_nil_iff]
  constructor
  · intro h
    cases hstart : trimStart s with
    | nil => rfl
    | cons c r =>
        have hc : isBlank c = false := head?_trimStart s c (by rw [hstart]; rfl)
        have hstops : trimStart (c :: r) = c :: r := dropWhile_of_stops (stops_cons hc r)
        -- the first character that is not blank is kept also when the other end is trimmed
        obtain ⟨r', htrim⟩ := exists_trim_eq_cons hc r
        rw [trim, hstops, ← hstart] at htrim
        rw [trim, htrim] at h
        cases h
  · intro h
    rw [trim, h]
    rfl

theorem mem_of_mem_trim
    {c : Char}
    (hc : c ∈ trim s) :
    c ∈ s := by
  unfold trim trimStart at hc
  rw [List.mem_reverse] at hc
  have hstart := (List.dropWhile_sublist isBlank).subset hc
  rw [List.mem_reverse] at hstart
  exact (List.dropWhile_sublist isBlank).subset hstart

end Text
end Warrant
