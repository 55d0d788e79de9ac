import Mathlib.Data.Finset.Card
import Mathlib.Data.List.DropRight
import Warrant.Expression.Engine

/-!
# Sessions of an engine

An engine is asked to compile texts, to test them in contexts and to be cleared, in any order and
any number of times.  What it keeps is a matter of speed alone: each text that it keeps stands
with the expression that it is compiled to, so no answer depends on what was asked before.

**Results.**
* `Keeps.perform_fst`: an answer depends on the step alone.
* `Keeps.perform`, `keeps_after`: what an engine keeps after one step, and after a session.
* `test_after`: an engine tests as conditions do, whatever it was asked before.
* `answers_session`: what a session of an engine answers, leaves as it is, and keeps.
-/

namespace Warrant
namespace Expression

/-- What an engine is asked to do. -/
inductive Step where
  | compile (text : String)
  | test (text : String) (context : Json)
  | clear

namespace Step

/-- Whether a step forgets what was compiled before. -/
def isClear : Step → Bool
  | .clear => true
  | _ => false

/-- The text that a step compiles. -/
def text? : Step → Option String
  | .compile text | .test text _ => some text
  | .clear => none

/-- The text that a step compiles, if it is an expression. -/
def compiled? (i : Interpreter) (s : Step) : Option String :=
  s.text?.filter fun text => (i.compile text).toOption.isSome

variable {i : Interpreter} {s : Step} {text : String}

theorem compiled?_of_ok
    {e : i.Program}
    (htext : s.text? = some text)
    (h : i.compile text = .ok e) :
    s.compiled? i = some text := by
  simp [compiled?, htext, h, Except.toOption]

theorem compiled?_of_error
    {fault : i.Fault}
    (htext : s.text? = some text)
    (h : i.compile text = .error fault) :
    s.compiled? i = none := by
  simp [compiled?, htext, h, Except.toOption]

end Step

/-- The expressions that the steps after the last clearing have compiled, as often as they have. -/
def textsSinceClear (i : Interpreter) (steps : List Step) : List String :=
  (steps.rtakeWhile fun s => !s.isClear).filterMap (Step.compiled? i)

theorem textsSinceClear_concat
    (i : Interpreter)
    (steps : List Step)
    (s : Step) :
    textsSinceClear i (steps ++ [s]) =
      if s.isClear then [] else textsSinceClear i steps ++ (s.compiled? i).toList := by
  unfold textsSinceClear
  rw [List.rtakeWhile_concat]
  cases s.isClear with
  | true => rfl
  | false =>
      simp only [Bool.not_false, if_true, List.filterMap_append]
      cases h : s.compiled? i <;> simp [h]

/-- What an engine answers to a step. -/
inductive Answer (i : Interpreter) where
  | compiled (outcome : Except i.Fault i.Program)
  | tested (outcome : Except i.Fault Bool)
  | cleared

/-- What an interpreter says to a step. -/
def Step.answer (i : Interpreter) : Step → Answer i
  | .compile text => .compiled (i.compile text)
  | .test text context => .tested (i.test text context)
  | .clear => .cleared

namespace Engine

variable {i : Interpreter}

/-- The answer to a step, and the engine after it. -/
def perform (g : Engine i) : Step → Answer i × Engine i
  | .compile text => (g.compile text).map .compiled id
  | .test text context => (g.test text context).map .tested id
  | .clear => (.cleared, g.clear)

/-- The engine after some steps. -/
def after (g : Engine i) (steps : List Step) : Engine i :=
  steps.foldl (fun g s => (g.perform s).2) g

/-- The answers to some steps, taken one after the other. -/
def answers (g : Engine i) : List Step → List (Answer i)
  | [] => []
  | s :: rest => (g.perform s).1 :: answers (g.perform s).2 rest

/-- The texts of the expressions that are kept. -/
def texts (g : Engine i) : List String :=
  g.programs.map Prod.fst

theorem mem_texts_of_lookup
    {g : Engine i}
    {text : String} {e : i.Program}
    (hlookup : g.programs.lookup text = some e) :
    text ∈ g.texts := by
  obtain ⟨before, after, hsplit, -⟩ := List.lookup_eq_some_iff.1 hlookup
  simp [texts, hsplit]

theorem not_mem_texts_of_lookup
    {g : Engine i}
    {text : String}
    (hlookup : g.programs.lookup text = none) :
    text ∉ g.texts := by
  intro hkept
  obtain ⟨entry, hentry, rfl⟩ := List.mem_map.1 hkept
  simpa using List.lookup_eq_none_iff.1 hlookup entry hentry

/-- The expressions that are kept are those of some texts, each once and under its own text. -/
structure Keeps (g : Engine i) (texts : List String) : Prop where
  nodup : g.texts.Nodup
  mem_iff : ∀ text, text ∈ g.texts ↔ text ∈ texts
  own : ∀ entry ∈ g.programs, i.compile entry.1 = .ok entry.2

theorem keeps_fresh : Keeps ({} : Engine i) [] where
  nodup := List.nodup_nil
  mem_iff _ := Iff.rfl
  own _ hentry := absurd hentry List.not_mem_nil

/-- A text that is no expression changes nothing. -/
theorem compile_snd_of_error
    (g : Engine i)
    {text : String} {fault : i.Fault}
    (h : i.compile text = .error fault) :
    (g.compile text).2 = g := by
  unfold compile
  rw [h]
  cases g.programs.lookup text <;> rfl

theorem test_snd
    (g : Engine i)
    (text : String)
    (context : Json) :
    (g.test text context).2 = (g.compile text).2 := by
  unfold test
  split
  next hcompile => rw [hcompile]
  next hcompile => rw [hcompile]

theorem perform_snd
    (g : Engine i)
    (s : Step) :
    (g.perform s).2 = (s.text?.map fun text => (g.compile text).2).getD {} := by
  cases s with
  | compile text => rfl
  | test text context => exact test_snd g text context
  | clear => rfl

namespace Keeps

variable {g : Engine i} {texts : List String}

theorem compile_of_lookup
    (h : g.Keeps texts)
    {text : String} {e : i.Program}
    (hlookup : g.programs.lookup text = some e) :
    i.compile text = .ok e := by
  obtain ⟨before, after, hsplit, -⟩ := List.lookup_eq_some_iff.1 hlookup
  exact h.own (text, e) (by rw [hsplit]; simp)

/-- What is compiled does not depend on what is kept. -/
theorem compile_fst
    (h : g.Keeps texts)
    (text : String) :
    (g.compile text).1 = i.compile text := by
  unfold Engine.compile
  split
  next e hlookup => rw [h.compile_of_lookup hlookup]
  next hlookup =>
    split
    next hcompile => rw [hcompile]
    next hcompile => rw [hcompile]

theorem test_fst
    (h : g.Keeps texts)
    (text : String)
    (context : Json) :
    (g.test text context).1 = i.test text context := by
  rw [Interpreter.test, ← h.compile_fst text]
  unfold Engine.test
  split
  next hcompile => rw [hcompile]; rfl
  next hcompile => rw [hcompile]; rfl

/-- An answer depends on the step alone. -/
theorem perform_fst
    (h : g.Keeps texts)
    (s : Step) :
    (g.perform s).1 = s.answer i := by
  cases s with
  | compile text => exact congrArg Answer.compiled (h.compile_fst text)
  | test text context => exact congrArg Answer.tested (h.test_fst text context)
  | clear => rfl

/-- What is kept already may be compiled again. -/
theorem again
    (h : g.Keeps texts)
    {text : String}
    (hkept : text ∈ g.texts) :
    g.Keeps (texts ++ [text]) := by
  refine ⟨h.nodup, ?_, h.own⟩
  intro other
  rw [h.mem_iff, List.mem_append, List.mem_singleton]
  refine ⟨.inl, ?_⟩
  rintro (hold | rfl)
  · exact hold
  · exact (h.mem_iff other).1 hkept

theorem add
    (h : g.Keeps texts)
    {text : String} {e : i.Program}
    (hnew : text ∉ g.texts)
    (hcompile : i.compile text = .ok e) :
    Keeps ⟨g.programs ++ [(text, e)]⟩ (texts ++ [text]) := by
  have htexts : Engine.texts ⟨g.programs ++ [(text, e)]⟩ = g.texts ++ [text] := by
    simp [Engine.texts]
  refine ⟨?_, ?_, ?_⟩
  · rw [htexts]
    simpa using h.nodup.concat hnew
  · intro other
    rw [htexts, List.mem_append, List.mem_append, h.mem_iff]
  · intro entry hentry
    rcases List.mem_append.1 hentry with hold | hadded
    · exact h.own entry hold
    · cases List.mem_singleton.1 hadded
      exact hcompile

/-- An expression is kept from the first time that it is compiled. -/
theorem compile
    (h : g.Keeps texts)
    {text : String} {e : i.Program}
    (hcompile : i.compile text = .ok e) :
    (g.compile text).2.Keeps (texts ++ [text]) := by
  unfold Engine.compile
  split
  next hlookup => exact h.again (mem_texts_of_lookup hlookup)
  next hlookup =>
    rw [hcompile]
    exact h.add (not_mem_texts_of_lookup hlookup) hcompile

/-- What is kept after a step: nothing if it clears, and otherwise what it compiled as well. -/
theorem perform
    (h : g.Keeps texts)
    (s : Step) :
    (g.perform s).2.Keeps (if s.isClear then [] else texts ++ (s.compiled? i).toList) := by
  rw [perform_snd]
  have hcompile : ∀ text, s.text? = some text →
      (g.compile text).2.Keeps (texts ++ (s.compiled? i).toList) := by
    intro text htext
    cases hcompile : i.compile text with
    | error fault =>
        rw [compile_snd_of_error g hcompile, Step.compiled?_of_error htext hcompile,
          Option.toList_none, List.append_nil]
        exact h
    | ok e =>
        rw [Step.compiled?_of_ok htext hcompile, Option.toList_some]
        exact h.compile hcompile
  cases s with
  | compile text => exact hcompile text rfl
  | test text context => exact hcompile text rfl
  | clear => exact keeps_fresh

theorem size_eq
    (h : g.Keeps texts) :
    g.size = texts.toFinset.card := by
  have hsame : g.texts.toFinset = texts.toFinset := by
    ext text
    rw [List.mem_toFinset, List.mem_toFinset, h.mem_iff]
  rw [← hsame, List.toFinset_card_of_nodup h.nodup, Engine.texts, List.length_map, size]

theorem answers_eq
    (h : g.Keeps texts)
    (steps : List Step) :
    g.answers steps = steps.map (Step.answer i) := by
  induction steps generalizing g texts with
  | nil => rfl
  | cons s steps ih => rw [answers, h.perform_fst, ih (h.perform s), List.map_cons]

end Keeps

/-- What an engine keeps after a session: the expressions compiled since it was last cleared. -/
theorem keeps_after
    (steps : List Step) :
    (after {} steps : Engine i).Keeps (textsSinceClear i steps) := by
  induction steps using List.reverseRecOn with
  | nil => exact keeps_fresh
  | append_singleton steps s ih =>
      rw [after, List.foldl_concat, textsSinceClear_concat]
      exact ih.perform s

/-- An engine tests as conditions do, whatever it was asked before. -/
theorem test_after
    (steps : List Step)
    (text : String)
    (context : Json) :
    ((after {} steps : Engine i).test text context).1 = i.test text context :=
  (keeps_after steps).test_fst text context

/-- **What an engine keeps does not show in its answers.**  In every session each step is answered
as by a fresh engine, a text that is no expression changes nothing, and what is kept are as many
expressions as there are different ones that were compiled since the last clearing, be it to be
tested only and whatever the test came to. -/
theorem answers_session
    (i : Interpreter)
    (steps : List Step) :
    ({} : Engine i).answers steps = steps.map (fun s => (({} : Engine i).perform s).1) ∧
      (∀ s text fault, s.text? = some text → i.compile text = .error fault →
        ((after {} steps : Engine i).perform s).2 = after {} steps) ∧
      (after {} steps : Engine i).size = (textsSinceClear i steps).toFinset.card := by
  refine ⟨?_, ?_, (keeps_after steps).size_eq⟩
  · rw [keeps_fresh.answers_eq]
    exact List.map_congr_left fun s _ => (keeps_fresh.perform_fst s).symm
  · intro s text fault htext hfault
    rw [perform_snd, htext]
    exact compile_snd_of_error _ hfault

/-- A session with an expression that is cleared away, with one that holds no truth value and
with a text that is no expression. -/
def mixedSession : List Step :=
  [.compile "true", .clear, .test "user.id" (.object []), .compile "user.id ==",
    .compile "user.id"]

theorem compile_true : standard.compile "true" = .ok (.bool true) := by
  cbv

theorem compile_userId : standard.compile "user.id" = .ok (.field (.variable "user") "id") := by
  cbv

theorem holds_userId :
    standard.holds (.field (.variable "user") "id") (.object []) =
      .error (.noValue (.unknownName "user")) := rfl

theorem compile_unfinished : standard.compile "user.id ==" = .error .notReadable := by
  cbv

theorem textsSinceClear_mixedSession :
    textsSinceClear standard mixedSession = ["user.id", "user.id"] := by
  have hsteps : textsSinceClear standard mixedSession =
      [.test "user.id" (.object []), .compile "user.id ==", .compile "user.id"].filterMap
        (Step.compiled? standard) :=
    rfl
  have htest : (Step.test "user.id" (.object [])).compiled? standard = some "user.id" :=
    Step.compiled?_of_ok rfl compile_userId
  have hfault : (Step.compile "user.id ==").compiled? standard = none :=
    Step.compiled?_of_error rfl compile_unfinished
  have hcompile : (Step.compile "user.id").compiled? standard = some "user.id" :=
    Step.compiled?_of_ok rfl compile_userId
  rw [hsteps, List.filterMap_cons_some htest, List.filterMap_cons_none hfault,
    List.filterMap_cons_some hcompile, List.filterMap_nil]

/-- The expression is kept once although its test had no outcome, and the text that is no
expression may be tried again. -/
theorem answers_session_mixedSession :
    ({} : Engine).answers mixedSession =
        [.compiled (.ok (.bool true)), .cleared, .tested (.error (.noValue (.unknownName "user"))),
          .compiled (.error .notReadable),
          .compiled (.ok (.field (.variable "user") "id"))] ∧
      ((after {} mixedSession : Engine).perform (.compile "user.id ==")).2 =
        after {} mixedSession ∧
      (after {} mixedSession : Engine).size = 1 := by
  obtain ⟨hanswers, hfaulty, hsize⟩ := answers_session standard mixedSession
  refine ⟨?_, hfaulty _ _ _ rfl compile_unfinished, ?_⟩
  · rw [hanswers]
    simp only [keeps_fresh.perform_fst, mixedSession, List.map_cons, List.map_nil, Step.answer,
      Interpreter.test, compile_true, compile_userId, compile_unfinished]
    simp only [bind, Except.bind, holds_userId]
  · rw [hsize, textsSinceClear_mixedSession]
    decide

end Engine
end Expression
end Warrant
