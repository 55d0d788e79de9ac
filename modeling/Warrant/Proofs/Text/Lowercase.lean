import Warrant.Proofs.Text.Runs
import Warrant.Text.Brace
import Warrant.Text.Lowercase

/-!
# What lowercasing leaves alone

Blanks, braces, the colon and the exclamation mark show where the parts of a text begin and end.
No character is lowercased to one of them but itself: the case table moves no run of code points
across a mark.  A text therefore has the same marks before and after.

Nor does the table move a run onto a character that it moves.  What was lowercased once is left
alone by lowercasing it again.

**Results.**
* `mem_of_mem_lowercase`: a mark in a lowercased text was in the text.
* `stops_lowercase`, `stops_reverse_lowercase`: the ends of a text are marks after lowercasing
  only if they were before.
* `lowercase_lowercase`: lowercasing twice is lowercasing once.
-/

namespace Warrant
namespace Text

/-- Whether a character marks where a part of a text begins or ends. -/
def isMark (c : Char) : Bool :=
  isBlank c || isBrace c || c == ':' || c == '!'

/-- The code points of the marks. -/
def markPoints : List Nat :=
  [9, 10, 11, 12, 13, 32, 33, 58, 123, 125, 133, 160, 5760, 8192, 8193, 8194, 8195, 8196, 8197,
    8198, 8199, 8200, 8201, 8202, 8232, 8233, 8239, 8287, 12288]

theorem toNat_mem_markPoints
    {c : Char} (hc : isMark c = true) :
    c.toNat ∈ markPoints := by
  simp only [isMark, isBrace, Bool.or_eq_true, beq_iff_eq] at hc
  rcases hc with ((hblank | rfl | rfl) | rfl) | rfl
  · simp only [isBlank, Bool.or_eq_true, Bool.and_eq_true, decide_eq_true_eq, beq_iff_eq]
      at hblank
    simp only [markPoints, List.mem_cons, List.not_mem_nil, or_false]
    rcases hblank with (((((((((hblank | hblank) | hblank) | hblank) | hblank) | hblank) | hblank) |
      hblank) | hblank) | hblank) | hblank <;> omega
  · decide
  · decide
  · decide
  · decide

/-- No run of the case table moves across a mark. -/
theorem markPoints_not_moved :
    ∀ r ∈ lowerRuns, ∀ n ∈ markPoints, ¬(r.first + r.shift ≤ n ∧ n ≤ r.last + r.shift) := by
  -- checked on natural numbers, which the kernel computes with directly
  have hcheck : (lowerRuns.all fun r => markPoints.all fun n =>
      Nat.blt n (r.first + r.shift).toNat || Nat.blt (r.last + r.shift).toNat n) = true := by
    decide +kernel
  rintro r hr n hn ⟨hlow, hhigh⟩
  have hmissed := List.all_eq_true.1 (List.all_eq_true.1 hcheck r hr) n hn
  simp only [Bool.or_eq_true, Nat.blt_eq] at hmissed
  omega

theorem toNat_ofNat_eq
    {n : Nat}
    (h : (Char.ofNat n).toNat ≠ 0) :
    (Char.ofNat n).toNat = n := by
  by_cases hvalid : n.isValidChar
  · rw [Char.ofNat, dif_pos hvalid]
    rfl
  · rw [Char.ofNat, dif_neg hvalid] at h
    exact absurd rfl h

theorem lowerChar_eq_self_of_isMark
    {c : Char} (hc : isMark (lowerChar c) = true) :
    lowerChar c = c := by
  unfold lowerChar at hc ⊢
  split at hc
  next r hr =>
    exfalso
    have hmem := List.mem_of_find?_eq_some hr
    have hcovers := List.find?_some hr
    simp only [CaseRun.covers, Bool.and_eq_true, decide_eq_true_eq] at hcovers
    have hpoint := toNat_mem_markPoints hc
    have hnonzero : ∀ n ∈ markPoints, n ≠ 0 := by decide
    have hpos := hnonzero _ hpoint
    have hvalue := toNat_ofNat_eq hpos
    apply markPoints_not_moved r hmem _ hpoint
    omega
  next h => rfl

theorem eq_of_mem_lowerForms
    {c d : Char}
    (hd : d ∈ lowerForms c)
    (hmark : isMark d = true) :
    d = c := by
  unfold lowerForms at hd
  split at hd
  next =>
    simp only [List.mem_cons, List.not_mem_nil, or_false] at hd
    rcases hd with rfl | rfl
    · cases hmark
    · cases hmark
  next =>
    rw [List.mem_singleton] at hd
    subst hd
    exact lowerChar_eq_self_of_isMark hmark

theorem lowerForms_ne_nil (c : Char) : lowerForms c ≠ [] := by
  unfold lowerForms
  split <;> exact List.cons_ne_nil _ _

/-! One character after the other. -/

/-- The lowercase forms that a character takes within a text. -/
inductive Forms : Char → List Char → Prop
  | sigma : Forms 'Σ' ['σ']
  | finalSigma : Forms 'Σ' ['ς']
  | alone {c : Char} : c ≠ 'Σ' → Forms c (lowerForms c)

theorem Forms.ne_nil
    {c : Char} {forms : List Char}
    (h : Forms c forms) :
    forms ≠ [] := by
  cases h with
  | sigma => exact List.cons_ne_nil _ _
  | finalSigma => exact List.cons_ne_nil _ _
  | alone hc => exact lowerForms_ne_nil c

theorem Forms.eq_of_mem
    {c d : Char} {forms : List Char}
    (h : Forms c forms)
    (hd : d ∈ forms)
    (hmark : isMark d = true) :
    d = c := by
  cases h with
  | sigma =>
      rw [List.mem_singleton.1 hd] at hmark
      cases hmark
  | finalSigma =>
      rw [List.mem_singleton.1 hd] at hmark
      cases hmark
  | alone hc => exact eq_of_mem_lowerForms hd hmark

theorem exists_lowercaseAfter_cons
    (before : List Char)
    (c : Char)
    (s : List Char) :
    ∃ forms, Forms c forms ∧
      lowercaseAfter before (c :: s) = forms ++ lowercaseAfter (c :: before) s := by
  rw [lowercaseAfter]
  split
  next hc =>
    subst hc
    split
    · exact ⟨['ς'], Forms.finalSigma, rfl⟩
    · exact ⟨['σ'], Forms.sigma, rfl⟩
  next hc => exact ⟨lowerForms c, Forms.alone hc, rfl⟩

theorem lowercase_eq_nil_iff {s : List Char} : lowercase s = [] ↔ s = [] := by
  cases s with
  | nil => exact iff_of_true rfl rfl
  | cons c s =>
      obtain ⟨forms, hforms, heq⟩ := exists_lowercaseAfter_cons [] c s
      rw [lowercase, heq]
      simp [hforms.ne_nil]

theorem exists_forms_of_mem_lowercaseAfter
    {before s : List Char} {d : Char}
    (hd : d ∈ lowercaseAfter before s) :
    ∃ c ∈ s, ∃ forms, Forms c forms ∧ d ∈ forms := by
  induction s generalizing before with
  | nil => cases hd
  | cons c s ih =>
      obtain ⟨forms, hforms, heq⟩ := exists_lowercaseAfter_cons before c s
      rw [heq] at hd
      rcases List.mem_append.1 hd with hd | hd
      · exact ⟨c, List.mem_cons_self, forms, hforms, hd⟩
      · obtain ⟨c', hc', hrest⟩ := ih hd
        exact ⟨c', List.mem_cons_of_mem c hc', hrest⟩

/-! Marks. -/

theorem isMark_of_isBlank
    {c : Char} (hc : isBlank c = true) :
    isMark c = true := by
  simp [isMark, hc]

/-- A mark in a lowercased text was in the text. -/
theorem mem_of_mem_lowercase
    {s : List Char} {d : Char}
    (hd : d ∈ lowercase s)
    (hmark : isMark d = true) :
    d ∈ s := by
  obtain ⟨c, hc, forms, hforms, hmem⟩ := exists_forms_of_mem_lowercaseAfter hd
  rwa [hforms.eq_of_mem hmem hmark]

section Ends

variable {p : Char → Bool} (hp : ∀ d, p d = true → isMark d = true)
include hp

theorem Forms.eq_false_of_mem
    {c : Char} {forms : List Char}
    (h : Forms c forms)
    (hc : p c = false) :
    ∀ d ∈ forms, p d = false := by
  intro d hd
  cases hpd : p d with
  | false => rfl
  | true =>
      rw [h.eq_of_mem hd (hp d hpd), hc] at hpd
      exact hpd.symm

/-- A text that does not begin with a mark does not after lowercasing. -/
theorem stops_lowercase
    {s : List Char}
    (hs : Stops p s) :
    Stops p (lowercase s) := by
  cases s with
  | nil => exact stops_nil
  | cons c s =>
      obtain ⟨forms, hforms, heq⟩ := exists_lowercaseAfter_cons [] c s
      rw [lowercase, heq]
      refine stops_append hforms.ne_nil ?_
      intro d hd
      exact hforms.eq_false_of_mem hp hs.head d (List.mem_of_mem_head? hd)

/-- A text that does not end with a mark does not after lowercasing. -/
theorem stops_reverse_lowercase
    {s : List Char}
    (hs : Stops p s.reverse) :
    Stops p (lowercase s).reverse := by
  rcases List.eq_nil_or_concat s with rfl | ⟨s, c, rfl⟩
  · exact stops_nil
  · rw [List.concat_eq_append, List.reverse_append] at hs
    -- the last character is lowercased behind whatever was lowercased before it
    have hlast : ∀ before, ∃ front forms, Forms c forms ∧
        lowercaseAfter before (s ++ [c]) = front ++ forms := by
      induction s with
      | nil =>
          intro before
          obtain ⟨forms, hforms, heq⟩ := exists_lowercaseAfter_cons before c []
          exact ⟨[], forms, hforms, by rw [List.nil_append, heq]; simp [lowercaseAfter]⟩
      | cons d s ih =>
          intro before
          obtain ⟨forms, -, heq⟩ := exists_lowercaseAfter_cons before d (s ++ [c])
          obtain ⟨front, last, hlast, htail⟩ := ih hs (d :: before)
          exact ⟨forms ++ front, last, hlast, by rw [List.cons_append, heq, htail,
            List.append_assoc]⟩
    obtain ⟨front, forms, hforms, heq⟩ := hlast []
    rw [List.concat_eq_append, lowercase, heq, List.reverse_append]
    refine stops_append (List.reverse_ne_nil_iff.2 hforms.ne_nil) ?_
    intro d hd
    have hmem := List.mem_of_mem_head? hd
    exact hforms.eq_false_of_mem hp hs.head d (List.mem_reverse.1 hmem)

end Ends

/-! Lowercasing what is lowercase. -/

/-- Whether no member of a run is among the code points from `low` to `high` that are `step`
apart. -/
def CaseRun.avoids (low high step : Nat) (r : CaseRun) : Bool :=
  Nat.blt r.last low || Nat.blt high r.first ||
    (Nat.beq r.stride 2 && (Nat.beq step 2 || Nat.beq low high) &&
      Nat.beq ((low + r.first) % 2) 1)

/-- The capital I with a dot above, which has a form of its own, as a run. -/
def dottedRun : CaseRun :=
  ⟨304, 304, 1, 0⟩

/-- Whether the run moves its members to code points that are not moved again. -/
def CaseRun.settles (r : CaseRun) : Bool :=
  (dottedRun :: lowerRuns).all
    (avoids (r.first + r.shift).toNat (r.last + r.shift).toNat r.stride)

theorem lowerRuns_settle : lowerRuns.all CaseRun.settles = true := by
  decide +kernel

theorem runs_bounded : ∀ r ∈ dottedRun :: lowerRuns, 0 < r.first ∧ 0 ≤ r.first + r.shift := by
  decide +kernel

theorem CaseRun.covers_eq_false_of_avoids
    {low high step n : Nat}
    {r : CaseRun}
    (h : r.avoids low high step = true)
    (hlow : low ≤ n)
    (hhigh : n ≤ high)
    (hstep : (n - low) % step = 0) :
    r.covers n = false := by
  rw [← Bool.not_eq_true]
  intro hcovers
  simp only [covers, Bool.and_eq_true, decide_eq_true_eq, beq_iff_eq] at hcovers
  obtain ⟨⟨hfirst, hlast⟩, hstride⟩ := hcovers
  simp only [avoids, Bool.or_eq_true, Bool.and_eq_true, Nat.blt_eq, Nat.beq_eq] at h
  rcases h with (h | h) | ⟨⟨htwo, hstep' | hsingle⟩, hodd⟩
  · omega
  · omega
  · rw [htwo] at hstride
    rw [hstep'] at hstep
    omega
  · rw [htwo] at hstride
    omega

theorem toNat_moved
    {first last n : Nat} {shift : Int}
    (hbound : 0 ≤ first + shift)
    (hfirst : first ≤ n)
    (hlast : n ≤ last) :
    (first + shift).toNat ≤ (n + shift).toNat ∧ (n + shift).toNat ≤ (last + shift).toNat ∧
      (n + shift).toNat - (first + shift).toNat = n - first := by
  omega

theorem lowerChar_eq_self
    {c : Char}
    (h : ∀ r ∈ lowerRuns, r.covers c.toNat = false) :
    lowerChar c = c := by
  have hnone : lowerRuns.find? (·.covers c.toNat) = none := by
    rw [List.find?_eq_none]
    intro r hr
    rw [h r hr]
    exact Bool.false_ne_true
  rw [lowerChar, hnone]

/-- A character that is moved has neither a run nor a form of its own where it moves to. -/
theorem lowerChar_settled (c : Char) :
    lowerChar c = c ∨
      ∀ r ∈ dottedRun :: lowerRuns, r.covers (lowerChar c).toNat = false := by
  cases hfind : lowerRuns.find? (·.covers c.toNat) with
  | none => exact Or.inl (by rw [lowerChar, hfind])
  | some r =>
      have hr := List.mem_of_find?_eq_some hfind
      have hcovers := List.find?_some hfind
      simp only [CaseRun.covers, Bool.and_eq_true, decide_eq_true_eq, beq_iff_eq] at hcovers
      obtain ⟨⟨hfirst, hlast⟩, hstride⟩ := hcovers
      obtain ⟨-, hbound⟩ := runs_bounded r (List.mem_cons_of_mem dottedRun hr)
      have hmoved : lowerChar c = Char.ofNat (c.toNat + r.shift).toNat := by rw [lowerChar, hfind]
      refine Or.inr fun s hs => ?_
      rw [hmoved]
      by_cases hzero : (Char.ofNat (c.toNat + r.shift).toNat).toNat = 0
      · obtain ⟨hpos, -⟩ := runs_bounded s hs
        rw [hzero, CaseRun.covers, decide_eq_false (Nat.not_le_of_lt hpos)]
        rfl
      · have hsettles := List.all_eq_true.1 lowerRuns_settle r hr
        have havoids := List.all_eq_true.1 hsettles s hs
        obtain ⟨hlow, hhigh, hdistance⟩ := toNat_moved hbound hfirst hlast
        rw [toNat_ofNat_eq hzero]
        exact CaseRun.covers_eq_false_of_avoids havoids hlow hhigh (by rw [hdistance, hstride])

/-- A character is its own lowercase form wherever it stands. -/
def IsLowered (c : Char) : Prop :=
  c ≠ 'Σ' ∧ lowerForms c = [c]

theorem isLowered_lowerChar
    {c : Char}
    (hsigma : c ≠ 'Σ')
    (hdotted : c ≠ '\u0130') :
    IsLowered (lowerChar c) := by
  have hforms : ∀ {d : Char}, d ≠ '\u0130' → lowerForms d = [lowerChar d] :=
    fun hd => if_neg hd
  rcases lowerChar_settled c with hself | hsettled
  · rw [hself]
    exact ⟨hsigma, by rw [hforms hdotted, hself]⟩
  · have hout : ∀ d r, r ∈ dottedRun :: lowerRuns → r.covers d.toNat = true →
        lowerChar c ≠ d := by
      rintro d r hr hd rfl
      rw [hsettled r hr] at hd
      cases hd
    have hself := lowerChar_eq_self fun r hr => hsettled r (List.mem_cons_of_mem dottedRun hr)
    have hdotted' := hout '\u0130' dottedRun List.mem_cons_self (by decide +kernel)
    have hsigma' := hout 'Σ' ⟨931, 939, 1, 32⟩
      (List.mem_cons_of_mem dottedRun (by decide +kernel)) (by decide +kernel)
    exact ⟨hsigma', by rw [hforms hdotted', hself]⟩

theorem Forms.isLowered
    {c d : Char} {forms : List Char}
    (h : Forms c forms)
    (hd : d ∈ forms) :
    IsLowered d := by
  cases h with
  | sigma =>
      rw [List.mem_singleton.1 hd]
      exact ⟨by decide, by decide +kernel⟩
  | finalSigma =>
      rw [List.mem_singleton.1 hd]
      exact ⟨by decide, by decide +kernel⟩
  | alone hc =>
      unfold lowerForms at hd
      split at hd
      next =>
        simp only [List.mem_cons, List.not_mem_nil, or_false] at hd
        rcases hd with rfl | rfl
        · exact ⟨by decide, by decide +kernel⟩
        · exact ⟨by decide, by decide +kernel⟩
      next hdotted =>
        rw [List.mem_singleton.1 hd]
        exact isLowered_lowerChar hc hdotted

/-- A text of lowered characters is its own lowercase form. -/
theorem lowercase_of_isLowered
    {s : List Char}
    (h : ∀ c ∈ s, IsLowered c) :
    lowercase s = s := by
  have hsigma : 'Σ' ∉ s := fun hmem => (h 'Σ' hmem).1 rfl
  rw [lowercase_of_no_sigma s hsigma]
  clear hsigma
  induction s with
  | nil => rfl
  | cons c s ih =>
      obtain ⟨hc, hs⟩ := List.forall_mem_cons.1 h
      rw [List.flatMap_cons, hc.2, ih hs]
      rfl

/-- Lowercasing twice is lowercasing once. -/
theorem lowercase_lowercase (s : List Char) : lowercase (lowercase s) = lowercase s := by
  apply lowercase_of_isLowered
  intro d hd
  obtain ⟨c, -, forms, hforms, hmem⟩ := exists_forms_of_mem_lowercaseAfter hd
  exact hforms.isLowered hmem

end Text
end Warrant
