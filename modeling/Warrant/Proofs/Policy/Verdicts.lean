import Mathlib.Algebra.BigOperators.Group.List.Basic
import Mathlib.Data.List.Forall2
import Warrant.Policy.Check
import Warrant.Proofs.Outcome
import Warrant.Proofs.Permission.OneLine

/-!
# The lines of a check

A check that succeeds writes its verdicts one behind the other, each with a newline at its end.
Its output can be divided into lines again, one for each verdict, unless the text of a request has
a newline of its own.  Conditions never bring one in, but names and scopes may: what stands behind
it then looks like the line of another request.

**Results.**
* `report_eq_ok_iff`: when a check succeeds, and what it writes.
* `lineByLine_iff`: when the output has one line for each verdict.
* `outcome_text`: the outcome of a check for every policy text.
* `outcome_forgedLine`: a denial that looks like a denial and a grant.
-/

namespace Warrant
namespace Policy

/-- The line of a verdict without its newline. -/
def Verdict.chars (v : Verdict) : List Char :=
  (if v.allowed then "ALLOW " else "DENY ").toList ++ v.request.chars

theorem Verdict.toList_line (v : Verdict) :
    v.line.toList = v.chars ++ ['\n'] := by
  simp [line, chars, Permission.text]

theorem toList_join_line (verdicts : List Verdict) :
    (String.join (verdicts.map Verdict.line)).toList =
      (verdicts.map Verdict.chars).flatMap (· ++ ['\n']) := by
  simp [String.toList_join, List.flatMap_map, Verdict.toList_line]

/-- A line is that of a verdict: it has no newline and begins with the decision. -/
structure IsLineOf (v : Verdict) (line : List Char) : Prop where
  newline_not_mem : '\n' ∉ line
  allowed : "ALLOW ".toList <+: line ↔ v.allowed = true
  denied : "DENY ".toList <+: line ↔ v.allowed = false

/-- The text is made of one line for each verdict, in order. -/
def LineByLine (verdicts : List Verdict) (output : List Char) : Prop :=
  ∃ lines, output = lines.flatMap (· ++ ['\n']) ∧ List.Forall₂ IsLineOf verdicts lines

theorem isLineOf_chars
    {v : Verdict}
    (h : v.request.OnOneLine) :
    IsLineOf v v.chars := by
  have hrequest := Permission.newline_not_mem_chars_iff.2 h
  obtain ⟨allowed, request⟩ := v
  cases allowed with
  | true =>
      refine ⟨?_, ?_, ?_⟩
      · simp [Verdict.chars, hrequest]
      · simp [Verdict.chars]
      · simp [Verdict.chars]
  | false =>
      refine ⟨?_, ?_, ?_⟩
      · simp [Verdict.chars, hrequest]
      · simp [Verdict.chars]
      · simp [Verdict.chars]

theorem count_newline_lines (lines : List (List Char)) :
    (lines.flatMap (· ++ ['\n'])).count '\n' = lines.length + (lines.map (List.count '\n')).sum := by
  induction lines with
  | nil => rfl
  | cons line lines ih =>
      rw [List.flatMap_cons, List.count_append, ih, List.count_append]
      simp only [List.count_singleton_self, List.length_cons, List.map_cons, List.sum_cons]
      omega

/-- Texts that are divided into as many lines as they are have no newline of their own. -/
theorem newline_not_mem_of_lines
    {texts lines : List (List Char)}
    (heq : texts.flatMap (· ++ ['\n']) = lines.flatMap (· ++ ['\n']))
    (hlength : texts.length = lines.length)
    (hlines : ∀ line ∈ lines, '\n' ∉ line) :
    ∀ text ∈ texts, '\n' ∉ text := by
  have hnone : (lines.map (List.count '\n')).sum = 0 := by
    rw [List.sum_eq_zero_iff_forall_eq_nat]
    intro n hn
    obtain ⟨line, hline, rfl⟩ := List.mem_map.1 hn
    exact List.count_eq_zero.2 (hlines line hline)
  have hcount := congrArg (List.count '\n') heq
  rw [count_newline_lines, count_newline_lines, hlength, hnone, Nat.add_left_cancel_iff,
    List.sum_eq_zero_iff_forall_eq_nat] at hcount
  intro text htext
  exact List.count_eq_zero.1 (hcount _ (List.mem_map_of_mem htext))

/-- The output has one line for each verdict exactly if no request has a newline in its text. -/
theorem lineByLine_iff
    {verdicts : List Verdict} :
    LineByLine verdicts (String.join (verdicts.map Verdict.line)).toList ↔
      ∀ v ∈ verdicts, v.request.OnOneLine := by
  rw [toList_join_line]
  constructor
  · rintro ⟨lines, hlines, hverdicts⟩ v hv
    have hlength : (verdicts.map Verdict.chars).length = lines.length := by
      rw [List.length_map]
      exact hverdicts.length_eq
    have hnewlines : ∀ line ∈ lines, '\n' ∉ line := by
      intro line hline
      obtain ⟨w, -, hw⟩ := exists_left_of_forall₂ hverdicts hline
      exact hw.newline_not_mem
    have hchars := newline_not_mem_of_lines hlines hlength hnewlines v.chars
      (List.mem_map_of_mem hv)
    rw [Verdict.chars, List.mem_append, not_or] at hchars
    exact Permission.newline_not_mem_chars_iff.1 hchars.2
  · intro h
    refine ⟨_, rfl, ?_⟩
    rw [List.forall₂_map_right_iff, List.forall₂_same]
    exact fun v hv => isLineOf_chars (h v hv)

/-- The parts of a policy text that is decided: the policy, the ability of its granted items, and
the flattened requests. -/
structure Decoded [Json.Floats] (content : String) (policy : Policy) (ability : Ability)
    (requests : List Permission) : Prop where
  reads : read? content = some policy
  grants : Ability.ofItems policy.granted = .ok ability
  asks : Item.flatten policy.requests = .ok requests

theorem ofSource_text_eq_ok_iff
    [Json.Floats]
    {content : String}
    {policy : Policy} :
    ofSource (.text content) = .ok policy ↔ read? content = some policy := by
  unfold ofSource
  dsimp only
  cases read? content with
  | none => exact ⟨nofun, nofun⟩
  | some policy' => simp only [Except.ok.injEq, Option.some.injEq]

section Languages

variable [Languages]

/-- The verdicts of an ability on some requests. -/
def verdictsOf (ability : Ability) (context : Option Json) (requests : List Permission) :
    List Verdict :=
  requests.map fun r => ⟨ability.passes r context, r⟩

theorem verdicts_eq_ok_iff
    {policy : Policy}
    {verdicts : List Verdict} :
    policy.verdicts = .ok verdicts ↔
      ∃ ability requests, Ability.ofItems policy.granted = .ok ability ∧
        Item.flatten policy.requests = .ok requests ∧
          verdictsOf ability policy.context requests = verdicts := by
  unfold Policy.verdicts
  simp only [bind_eq_ok_iff, mapError_eq_ok_iff]
  constructor
  · rintro ⟨ability, hability, requests, hrequests, hverdicts⟩
    exact ⟨ability, requests, hability, hrequests, Except.ok.inj hverdicts⟩
  · rintro ⟨ability, requests, hability, hrequests, hverdicts⟩
    exact ⟨ability, hability, requests, hrequests, congrArg Except.ok hverdicts⟩

/-- A check succeeds with its verdicts if the policy and all its items decode. -/
theorem report_eq_ok_iff
    [Json.Floats]
    {content output : String} :
    report (.text content) = .ok output ↔
      ∃ policy ability requests, Decoded content policy ability requests ∧
        String.join ((verdictsOf ability policy.context requests).map Verdict.line) = output := by
  unfold report
  simp only [bind_eq_ok_iff, ofSource_text_eq_ok_iff, verdicts_eq_ok_iff]
  constructor
  · rintro ⟨policy, hpolicy, verdicts, ⟨ability, requests, hability, hrequests, rfl⟩, houtput⟩
    exact ⟨policy, ability, requests, ⟨hpolicy, hability, hrequests⟩, Except.ok.inj houtput⟩
  · rintro ⟨policy, ability, requests, ⟨hpolicy, hability, hrequests⟩, houtput⟩
    exact ⟨policy, hpolicy, _, ⟨ability, requests, hability, hrequests, rfl⟩,
      congrArg Except.ok houtput⟩

/-- **A check fails without output, or it writes its verdicts in the order of the requests.**
Its output has one line for each of them, with the decision in front, if and only if no name and
no scope of a request has a newline in it. -/
theorem outcome_text
    [Json.Floats]
    (content : String) :
    ((¬∃ policy ability requests, Decoded content policy ability requests) ∧
      (outcome (.text content)).exit = 1 ∧ (outcome (.text content)).output = "") ∨
    ∃ policy ability requests, Decoded content policy ability requests ∧
      (outcome (.text content)).exit = 0 ∧
      (outcome (.text content)).output = String.join (requests.map fun r =>
        (if ability.passes r policy.context then "ALLOW " else "DENY ") ++ r.text ++ "\n") ∧
      (LineByLine (verdictsOf ability policy.context requests)
          (outcome (.text content)).output.toList ↔
        ∀ r ∈ requests, r.OnOneLine) := by
  cases hreport : report (.text content) with
  | error fault =>
      refine Or.inl ⟨?_, ?_, ?_⟩
      · rintro ⟨policy, ability, requests, h⟩
        have hok := report_eq_ok_iff.2 ⟨policy, ability, requests, h, rfl⟩
        rw [hreport] at hok
        cases hok
      · simp only [outcome, hreport]
      · simp only [outcome, hreport]
  | ok output =>
      obtain ⟨policy, ability, requests, h, rfl⟩ := report_eq_ok_iff.1 hreport
      refine Or.inr ⟨policy, ability, requests, h, ?_, ?_, ?_⟩
      · simp only [outcome, hreport]
      · simp only [outcome, hreport, verdictsOf, List.map_map]
        rfl
      · simp only [outcome, hreport, lineByLine_iff]
        simp only [verdictsOf, List.forall_mem_map]

end Languages

/-- A policy without grants, and one request whose subject goes on behind a newline. -/
def forgedLine : String :=
  "\x7b\"granted\":[],\"requests\":[\"doc:read\\nALLOW doc:write\"]\x7d"

/-- The request that is read, in the scope `doc` and for the action `write`. -/
def forgedRequest : Permission where
  subjects := ["read\nALLOW doc"]
  actions := ["write"]
  scope := some ⟨[⟨"doc", none⟩]⟩

/-- **One request may have two lines.**  The second one of them looks like a grant, though nothing
is granted, and so the output has no line for each request. -/
theorem outcome_forgedLine :
    (outcome (.text forgedLine)).exit = 0 ∧
      (outcome (.text forgedLine)).output = "DENY doc:read\nALLOW doc:write\n" ∧
      Decoded forgedLine ⟨[], [.encoded "doc:read\nALLOW doc:write"], none⟩ ⟨[], {}⟩
        [forgedRequest] ∧
      ¬LineByLine (verdictsOf ⟨[], {}⟩ none [forgedRequest])
        (outcome (.text forgedLine)).output.toList := by
  have hdecoded : Decoded forgedLine ⟨[], [.encoded "doc:read\nALLOW doc:write"], none⟩ ⟨[], {}⟩
      [forgedRequest] := by
    refine ⟨?_, rfl, ?_⟩
    · cbv
    · cbv
  have hreport := report_eq_ok_iff.2 ⟨_, _, _, hdecoded, rfl⟩
  have hoffline : ¬forgedRequest.OnOneLine := by
    rintro ⟨hsubjects, -⟩
    exact hsubjects _ List.mem_cons_self (by decide)
  refine ⟨?_, ?_, hdecoded, ?_⟩
  · rw [outcome, hreport]
  · rw [outcome, hreport]
    rfl
  · rw [outcome, hreport]
    dsimp only
    rw [lineByLine_iff]
    exact fun h => hoffline (h _ List.mem_cons_self)

end Policy
end Warrant
