import Warrant.Proofs.Literal.Cursor

/-!
# Runs of the reader with a cursor

What it is for a run to perform a reading that is told by what is left of the text.  Started with
the cursor in front of some rest of the text, and under a limit that is large enough for the text,
the run ends, no cut goes amiss, its result is what the reading says, the cursor stands where the
reading stops, and whatever the run records is sound.  Runs that perform readings are put together
like the runs themselves.

**Results.**
* `Performs.bind`, `Performs.bind_error`, `Performs.andThen`: one run after another.
* `performs_bump_cons`, `performs_turned`: a step of the cursor, and a round of a loop.
* `performs_skipWhile`, `performs_takeWhile`: the loop over a run of characters.
-/

namespace Warrant
namespace Literal
namespace Cursor

/-- The place in front of what is left of a text. -/
def placeOf (text rest : List Char) : Nat :=
  byteSize text - byteSize rest

section Places

variable {text s r : List Char}

theorem placeOf_append (front back : List Char) :
    placeOf (front ++ back) back = byteSize front := by
  rw [placeOf, byteSize_append, Nat.add_sub_cancel]

@[simp] theorem placeOf_nil (text : List Char) : placeOf text [] = byteSize text := rfl

@[simp] theorem placeOf_self (text : List Char) : placeOf text text = 0 :=
  Nat.sub_self _

theorem boundary_placeOf (hs : s <:+ text) : Boundary text (placeOf text s) := by
  obtain ⟨front, rfl⟩ := hs
  exact ⟨front, s, rfl, (placeOf_append front s).symm⟩

theorem afterBytes_placeOf (hs : s <:+ text) : afterBytes (placeOf text s) text = some s := by
  obtain ⟨front, rfl⟩ := hs
  exact afterBytes_eq_some_iff.2 ⟨front, rfl, (placeOf_append front s).symm⟩

theorem placeOf_append_of_suffix
    (part : List Char)
    (hs : part ++ r <:+ text) :
    placeOf text r = placeOf text (part ++ r) + byteSize part := by
  obtain ⟨front, rfl⟩ := hs
  rw [placeOf_append, ← List.append_assoc, placeOf_append, byteSize_append]

theorem placeOf_le
    (hs : s <:+ text)
    (hr : r <:+ s) :
    placeOf text s ≤ placeOf text r := by
  obtain ⟨part, rfl⟩ := hr
  rw [placeOf_append_of_suffix part hs]
  exact Nat.le_add_right _ _

theorem placeOf_lt
    (hs : s <:+ text)
    (hr : r <:+ s)
    (hlt : r.length < s.length) :
    placeOf text s < placeOf text r := by
  obtain ⟨part, rfl⟩ := hr
  have hpart : byteSize part ≠ 0 := by
    intro h
    rw [byteSize_eq_zero_iff] at h
    subst h
    exact Nat.lt_irrefl _ hlt
  rw [placeOf_append_of_suffix part hs]
  omega

theorem lt_placeOf_of_suffix
    {n : Nat}
    (hs : s <:+ text)
    (hn : n < placeOf text s)
    (hr : r <:+ s) :
    n < placeOf text r :=
  Nat.lt_of_lt_of_le hn (placeOf_le hs hr)

theorem bytesBetween?_placeOf_iff
    {part : List Char} {n : Nat}
    (hs : s <:+ text) :
    bytesBetween? (placeOf text s) (placeOf text s + n) text = some part ↔
      ∃ back, s = part ++ back ∧ byteSize part = n := by
  rw [bytesBetween?_eq_some_iff]
  constructor
  · rintro ⟨front, back, rfl, hfront, hlast⟩
    have hcut := afterBytes_eq_some_iff.2 ⟨front, Eq.refl (front ++ (part ++ back)), hfront⟩
    rw [afterBytes_placeOf hs] at hcut
    rw [byteSize_append] at hlast
    exact ⟨back, Option.some.inj hcut, by omega⟩
  · rintro ⟨back, rfl, rfl⟩
    obtain ⟨front, rfl⟩ := hs
    rw [placeOf_append]
    exact ⟨front, back, rfl, rfl, byteSize_append front part⟩

end Places

/-- What an event may be in a run over a text. -/
def Event.Sound (text : List Char) : Event → Prop
  | .moved place => Boundary text place
  | .turned before after =>
      ∃ front passed back, text = front ++ (passed ++ back) ∧ passed ≠ [] ∧
        byteSize front = before ∧ byteSize (front ++ passed) = after
  | .called around start => Boundary text start ∧ ∀ outer ∈ around, outer < start

/-- How a run ends of which a reader says what is read. -/
def answer {α : Type} (text : List Char) : Except Failure (α × List Char) → Except Halt α
  | .ok p => .ok p.1
  | .error f => .error (.fault (f.locate text))

/-- Where a reader stops. -/
def remaining {α : Type} : Except Failure (α × List Char) → List Char
  | .ok p => p.2
  | .error f => f.rest

/-- Begun with the cursor in front of `s`, a run ends, and it ends as `read` says; all that it adds
to the record is sound.  The limit is to leave two for each character of the text. -/
def Performs {α : Type} (limit : Nat) (text : List Char) (run : Run α) (s : List Char)
    (read : Except Failure (α × List Char)) : Prop :=
  2 * text.length < limit → s <:+ text →
    remaining read <:+ text ∧
    ∀ record, cursorOf record = placeOf text s →
      ∃ events, (∀ event ∈ events, event.Sound text) ∧
        outcome run limit record = some (answer text read, events ++ record) ∧
        ∀ p, read = .ok p → cursorOf (events ++ record) = placeOf text p.2

section Outcomes

variable {α β : Type} {limit : Nat} {run : Run α} {next : α → Run β}
  {record record' : List Event}

theorem outcome_bind_of_ok
    {a : α}
    (h : outcome run limit record = some (.ok a, record')) :
    outcome (run >>= next) limit record = outcome (next a) limit record' := by
  simp only [outcome, ReaderT.run_bind, ExceptT.run_bind, StateT.run_bind] at h ⊢
  rw [h]
  rfl

theorem outcome_bind_of_error
    {halt : Halt}
    (h : outcome run limit record = some (.error halt, record')) :
    outcome (run >>= next) limit record = some (.error halt, record') := by
  simp only [outcome, ReaderT.run_bind, ExceptT.run_bind, StateT.run_bind] at h ⊢
  rw [h]
  rfl

end Outcomes

section Steps

variable {α β : Type} {limit : Nat} {text s rest : List Char} {run : Run α} {next : α → Run β}
  {read : Except Failure (β × List Char)}

/-- A run of one step. -/
theorem performs_of_outcome
    {a : α}
    (events : List Event)
    (hrest : s <:+ text → rest <:+ text)
    (hevents : ∀ event ∈ events, event.Sound text)
    (h : ∀ record, cursorOf record = placeOf text s →
      outcome run limit record = some (.ok a, events ++ record) ∧
        cursorOf (events ++ record) = placeOf text rest) :
    Performs limit text run s (.ok (a, rest)) := by
  intro _ hs
  refine ⟨hrest hs, fun record hrecord => ?_⟩
  obtain ⟨hout, hcursor⟩ := h record hrecord
  refine ⟨events, hevents, hout, ?_⟩
  rintro p ⟨⟩
  exact hcursor

theorem performs_pure
    (a : α)
    (s : List Char) :
    Performs limit text (pure a) s (.ok (a, s)) :=
  performs_of_outcome [] id nofun fun _ hrecord => ⟨rfl, hrecord⟩

theorem Performs.bind
    {a : α}
    (h : Performs limit text run s (.ok (a, rest)))
    (hnext : Performs limit text (next a) rest read) :
    Performs limit text (run >>= next) s read := by
  intro hlimit hs
  obtain ⟨hrest, hrun⟩ := h hlimit hs
  obtain ⟨hremaining, hthen⟩ := hnext hlimit hrest
  refine ⟨hremaining, fun record hrecord => ?_⟩
  obtain ⟨events, hevents, hout, hcursor⟩ := hrun record hrecord
  obtain ⟨events', hevents', hout', hcursor'⟩ := hthen (events ++ record) (hcursor _ rfl)
  refine ⟨events' ++ events, List.forall_mem_append.2 ⟨hevents', hevents⟩, ?_, ?_⟩
  · rw [outcome_bind_of_ok hout, hout', List.append_assoc]
  · rwa [List.append_assoc]

theorem Performs.bind_error
    {f : Failure}
    (h : Performs limit text run s (.error f)) :
    Performs limit text (run >>= next) s (.error f) := by
  intro hlimit hs
  obtain ⟨hrest, hrun⟩ := h hlimit hs
  refine ⟨hrest, fun record hrecord => ?_⟩
  obtain ⟨events, hevents, hout, -⟩ := hrun record hrecord
  exact ⟨events, hevents, outcome_bind_of_error hout, nofun⟩

/-- One run after another, whether or not the first one finds what it reads. -/
theorem Performs.andThen
    {read : Except Failure (α × List Char)}
    {readNext : α × List Char → Except Failure (β × List Char)}
    (h : Performs limit text run s read)
    (hnext : ∀ a rest, read = .ok (a, rest) → Performs limit text (next a) rest (readNext (a, rest))) :
    Performs limit text (run >>= next) s (read.bind readNext) := by
  cases read with
  | error f => exact h.bind_error
  | ok p => exact h.bind (hnext p.1 p.2 rfl)

/-- A run whose result is passed on through a function. -/
theorem Performs.map
    {read : Except Failure (α × List Char)}
    (g : α → β)
    (h : Performs limit text run s read) :
    Performs limit text (run >>= fun a => pure (g a)) s (read.map fun p => (g p.1, p.2)) :=
  h.andThen fun a rest _ => performs_pure (g a) rest

theorem performs_limit (s : List Char) :
    Performs limit text (MonadReader.read : Run Nat) s (.ok (limit, s)) :=
  performs_of_outcome [] id nofun fun _ hrecord => ⟨rfl, hrecord⟩

theorem performs_place (s : List Char) : Performs limit text place s (.ok (placeOf text s, s)) := by
  refine performs_of_outcome [] id nofun fun record hrecord => ⟨?_, hrecord⟩
  rw [← hrecord]
  rfl

theorem performs_moveTo
    (hrest : rest <:+ text)
    (s : List Char) :
    Performs limit text (moveTo (placeOf text rest)) s (.ok ((), rest)) := by
  have hmoved : (Event.moved (placeOf text rest)).Sound text := boundary_placeOf hrest
  exact performs_of_outcome [_] (fun _ => hrest) (List.forall_mem_singleton.2 hmoved)
    fun _ _ => ⟨rfl, rfl⟩

theorem performs_called
    {around : Option Nat}
    (hs : s <:+ text)
    (haround : ∀ outer ∈ around, outer < placeOf text s) :
    Performs limit text (note (.called around (placeOf text s))) s (.ok ((), s)) := by
  have hcalled : (Event.called around (placeOf text s)).Sound text :=
    ⟨boundary_placeOf hs, haround⟩
  exact performs_of_outcome [_] id (List.forall_mem_singleton.2 hcalled)
    fun _ hrecord => ⟨rfl, hrecord⟩

/-- The cursor has gone on since the round of a loop began. -/
theorem performs_turned
    (hs : s <:+ text)
    (hrest : rest <:+ s)
    (hlt : rest.length < s.length) :
    Performs limit text (turned (placeOf text s)) rest (.ok ((), rest)) := by
  have hturned : (Event.turned (placeOf text s) (placeOf text rest)).Sound text := by
    obtain ⟨passed, rfl⟩ := hrest
    obtain ⟨front, rfl⟩ := hs
    refine ⟨front, passed, rest, rfl, ?_, (placeOf_append _ _).symm, ?_⟩
    · rintro rfl
      exact Nat.lt_irrefl _ hlt
    · rw [← List.append_assoc, placeOf_append]
  exact (performs_place rest).bind
    (performs_of_outcome [_] id (List.forall_mem_singleton.2 hturned)
      fun _ hrecord => ⟨rfl, hrecord⟩)

theorem performs_throw
    {f : Failure}
    (hf : f.rest <:+ text)
    (s : List Char) :
    Performs limit text (throw (.fault (f.locate text)) : Run α) s (.error f) :=
  fun _ _ => ⟨hf, fun _ _ => ⟨[], nofun, rfl, nofun⟩⟩

theorem performs_fail
    (cause : Cause)
    (s : List Char) :
    Performs limit text (fail cause : Run α) s (.error ⟨cause, s⟩) := by
  intro hlimit hs
  exact ((performs_place s).bind (performs_throw (f := ⟨cause, s⟩) hs s)) hlimit hs

theorem performs_peek (s : List Char) : Performs limit text (peek text) s (.ok (s.head?, s)) := by
  intro hlimit hs
  refine ((performs_place s).bind ?_) hlimit hs
  rw [afterBytes_placeOf hs]
  exact (performs_pure s s).bind (performs_pure _ s)

theorem performs_bump_nil : Performs limit text (bump text) [] (.ok (none, [])) :=
  (performs_peek []).bind (performs_pure none [])

theorem performs_bump_cons
    (c : Char)
    (r : List Char) :
    Performs limit text (bump text) (c :: r) (.ok (some c, r)) := by
  intro hlimit hs
  have hplace : placeOf text (c :: r) + c.utf8Size = placeOf text r :=
    (placeOf_append_of_suffix [c] hs).symm
  have hr := (List.suffix_cons c r).trans hs
  refine ((performs_peek (c :: r)).bind ((performs_place (c :: r)).bind ?_)) hlimit hs
  rw [hplace]
  exact (performs_moveTo hr (c :: r)).bind (performs_pure (some c) r)

/-- A character that must come next. -/
def readExpected (wanted : Char) : List Char → Except Failure (Unit × List Char)
  | [] => .error ⟨.expected wanted none, []⟩
  | c :: r => if c = wanted then .ok ((), r) else .error ⟨.expected wanted (some c), r⟩

theorem suffix_of_readExpected
    {wanted : Char} {u : Unit}
    (h : readExpected wanted s = .ok (u, rest)) :
    rest <:+ s := by
  cases s with
  | nil => cases h
  | cons c r =>
      rw [readExpected] at h
      split at h
      next =>
        cases h
        exact List.suffix_cons c _
      next => cases h

theorem performs_expect
    (wanted : Char)
    (s : List Char) :
    Performs limit text (expect text wanted) s (readExpected wanted s) := by
  cases s with
  | nil => exact performs_bump_nil.bind (performs_fail _ [])
  | cons c r =>
      refine (performs_bump_cons c r).bind ?_
      rw [readExpected]
      dsimp only
      split
      · exact performs_pure () r
      · exact performs_fail _ r

theorem performs_expect_self
    (c : Char)
    (r : List Char) :
    Performs limit text (expect text c) (c :: r) (.ok ((), r)) := by
  have hself : readExpected c (c :: r) = .ok ((), r) := if_pos rfl
  rw [← hself]
  exact performs_expect c (c :: r)

theorem performs_skipRounds
    (p : Char → Bool)
    (rounds : Nat)
    (s : List Char)
    (hrounds : s.length < rounds) :
    Performs limit text (skipRounds text p rounds) s (.ok ((), s.dropWhile p)) := by
  induction rounds generalizing s with
  | zero => cases hrounds
  | succ rounds ih =>
      intro hlimit hs
      rw [skipRounds]
      refine ((performs_place s).bind ((performs_peek s).bind ?_)) hlimit hs
      cases s with
      | nil => exact performs_pure () []
      | cons c r =>
          rw [List.dropWhile_cons]
          by_cases hc : p c = true
          · rw [List.head?_cons, Option.any_some, if_pos hc, if_pos hc]
            have hturned : Performs limit text (turned (placeOf text (c :: r))) r (.ok ((), r)) :=
              performs_turned hs (List.suffix_cons c r) (Nat.lt_succ_self _)
            have hagain := ih r (Nat.lt_of_succ_lt_succ hrounds)
            exact (performs_bump_cons c r).bind (hturned.bind hagain)
          · rw [List.head?_cons, Option.any_some, if_neg hc, if_neg hc]
            exact performs_pure () (c :: r)

/-- What is left of a text leaves room under the limit. -/
theorem length_lt_limit
    (hlimit : 2 * text.length < limit)
    (hs : s <:+ text) :
    s.length < limit := by
  have hle := hs.length_le
  omega

theorem performs_skipWhile
    (p : Char → Bool)
    (s : List Char) :
    Performs limit text (skipWhile text p) s (.ok ((), s.dropWhile p)) := by
  intro hlimit hs
  have hrounds := length_lt_limit hlimit hs
  exact ((performs_limit s).bind (performs_skipRounds p limit s hrounds)) hlimit hs

theorem performs_skipBlanks (s : List Char) :
    Performs limit text (skipWhile text Text.isBlank) s (.ok ((), skipBlanks s)) :=
  performs_skipWhile Text.isBlank s

theorem performs_takeWhile
    (p : Char → Bool)
    (s : List Char) :
    Performs limit text (takeWhile text p) s (.ok (s.takeWhile p, s.dropWhile p)) := by
  intro hlimit hs
  have hsplit : s.takeWhile p ++ s.dropWhile p = s := List.takeWhile_append_dropWhile
  have hplace : placeOf text (s.dropWhile p) = placeOf text s + byteSize (s.takeWhile p) := by
    have hsuffix : s.takeWhile p ++ s.dropWhile p <:+ text := by rwa [hsplit]
    have hafter := placeOf_append_of_suffix (s.takeWhile p) hsuffix
    rwa [hsplit] at hafter
  have hcut := (bytesBetween?_placeOf_iff hs).2 ⟨s.dropWhile p, hsplit.symm, rfl⟩
  refine ((performs_place s).bind ((performs_skipWhile p s).bind
    ((performs_place _).bind ?_))) hlimit hs
  rw [hplace, hcut]
  exact performs_pure _ _

end Steps

end Cursor
end Literal
end Warrant
