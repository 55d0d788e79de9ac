import Warrant.Proofs.Literal.Tokens

/-!
# Reading object literals with a cursor

A second reader of literals.  It keeps the whole text and a cursor, the number of bytes in front
of the next character, and gets at characters only by cutting the text at places given in bytes.
A cut outside the text or within a character ends the run.  A run is given a limit: when a loop
takes more rounds, or values stand deeper within each other, it has no result.  Whether that
happens under every limit, as it does where a loop never ends, is not settled by the definitions
here.

The run is recorded: where the cursor was set to, from where to where each round of a loop took
it, and where each call of `value` began within which other call.

**Results.**
* `afterBytes_eq_some_iff`, `bytesBetween?_eq_some_iff`: a text can be cut exactly at the sizes in
  bytes of its beginnings; by `eq_of_append_eq` in one way only.
* `codeNumber?_eq_some_iff`: the digits of an escape are a hexadecimal numeral.
-/

namespace Warrant
namespace Literal

/-- A place between the characters of a text, at one of its ends included. -/
def Boundary (text : List Char) (place : Nat) : Prop :=
  ∃ front back, text = front ++ back ∧ byteSize front = place

/-- The text from the byte `first` up to the byte `last`, if both are between characters. -/
def bytesBetween? (first last : Nat) (text : List Char) : Option (List Char) :=
  if first ≤ last then
    (afterBytes first text).bind fun s =>
      (afterBytes (last - first) s).map fun back => s.take (s.length - back.length)
  else none

section Cuts

variable {text s back part : List Char} {n first last : Nat}

theorem byteSize_eq_zero_iff : byteSize s = 0 ↔ s = [] := by
  cases s with
  | nil => exact ⟨fun _ => rfl, fun _ => rfl⟩
  | cons c r =>
      have hc := c.utf8Size_pos
      rw [byteSize]
      constructor
      · omega
      · exact fun h => absurd h (List.cons_ne_nil c r)

theorem byteSize_eq_utf8ByteSize (s : List Char) : byteSize s = (String.ofList s).utf8ByteSize := by
  induction s with
  | nil => rfl
  | cons c r ih =>
      rw [byteSize, ih, String.ofList_cons, String.utf8ByteSize_append,
        String.utf8ByteSize_singleton]

theorem Boundary.le_byteSize
    {place : Nat}
    (h : Boundary text place) :
    place ≤ byteSize text := by
  obtain ⟨front, back, rfl, rfl⟩ := h
  rw [byteSize_append]
  exact Nat.le_add_right _ _

theorem afterBytes_eq_some_iff :
    afterBytes n s = some back ↔ ∃ front, s = front ++ back ∧ byteSize front = n := by
  constructor
  · intro h
    fun_induction afterBytes n s with
    | case1 s =>
        cases h
        exact ⟨[], rfl, rfl⟩
    | case2 => cases h
    | case3 n c r hsize ih =>
        obtain ⟨front, rfl, hfront⟩ := ih h
        refine ⟨c :: front, rfl, ?_⟩
        rw [byteSize, hfront]
        omega
    | case4 => cases h
  · rintro ⟨front, rfl, rfl⟩
    induction front with
    | nil => rw [List.nil_append, byteSize, afterBytes]
    | cons c front ih =>
        have hc := c.utf8Size_pos
        obtain ⟨n, hn⟩ : ∃ n, byteSize (c :: front) = n + 1 :=
          Nat.exists_eq_succ_of_ne_zero (by rw [byteSize]; omega)
        have hrest : n + 1 - c.utf8Size = byteSize front := by rw [← hn, byteSize]; omega
        rw [hn, List.cons_append, afterBytes, if_pos (by rw [← hn, byteSize]; omega), hrest, ih]

/-- A text is cut in one way at each size. -/
theorem eq_of_append_eq
    {front front' back' : List Char}
    (h : front ++ back = front' ++ back')
    (hsize : byteSize front = byteSize front') :
    front = front' ∧ back = back' := by
  have hcut := afterBytes_eq_some_iff.2 ⟨front, Eq.refl (front ++ back), rfl⟩
  have hcut' := afterBytes_eq_some_iff.2 ⟨front', h, hsize.symm⟩
  rw [hcut] at hcut'
  cases hcut'
  exact ⟨List.append_cancel_right h, rfl⟩

theorem bytesBetween?_eq_some_iff :
    bytesBetween? first last text = some part ↔
      ∃ front back, text = front ++ (part ++ back) ∧ byteSize front = first ∧
        byteSize (front ++ part) = last := by
  unfold bytesBetween?
  constructor
  · intro h
    split at h
    next hle =>
      obtain ⟨s, hs, h⟩ := Option.bind_eq_some_iff.1 h
      obtain ⟨back, hback, rfl⟩ := Option.map_eq_some_iff.1 h
      obtain ⟨front, rfl, hfront⟩ := afterBytes_eq_some_iff.1 hs
      obtain ⟨part, rfl, hpart⟩ := afterBytes_eq_some_iff.1 hback
      have htake : (part ++ back).take ((part ++ back).length - back.length) = part := by
        rw [List.length_append, Nat.add_sub_cancel, List.take_left]
      rw [htake]
      refine ⟨front, back, rfl, hfront, ?_⟩
      rw [byteSize_append]
      omega
    next => cases h
  · rintro ⟨front, back, rfl, rfl, rfl⟩
    have hs := afterBytes_eq_some_iff.2 ⟨front, Eq.refl (front ++ (part ++ back)), rfl⟩
    have hback := afterBytes_eq_some_iff.2 ⟨part, Eq.refl (part ++ back), rfl⟩
    rw [byteSize_append, if_pos (Nat.le_add_right _ _), hs, Option.bind_some,
      Nat.add_sub_cancel_left, hback, Option.map_some, List.length_append, Nat.add_sub_cancel,
      List.take_left]

end Cuts

/-- The number that the digits of an escape stand for: a hexadecimal numeral, with or without a
plus sign in front. -/
def codeNumber? (digits : List Char) : Option Nat :=
  let unsigned := if digits.head? = some '+' then digits.tail else digits
  if unsigned = [] then none else hexNumber? unsigned

theorem codeNumber?_eq_some_iff
    {digits : List Char} {n : Nat} :
    codeNumber? digits = some n ↔ HexNumeral digits n := by
  rw [codeNumber?, Option.ite_none_left_eq_some]
  by_cases hplus : digits.head? = some '+'
  · obtain ⟨r, rfl⟩ := List.head?_eq_some_iff.1 hplus
    rw [if_pos hplus, List.tail_cons]
    constructor
    · rintro ⟨hne, h⟩
      exact HexNumeral.signed hne h
    · intro h
      cases h with
      | unsigned _ h =>
          rw [hexNumber?_plus] at h
          cases h
      | signed hne h => exact ⟨hne, h⟩
  · rw [if_neg hplus]
    constructor
    · rintro ⟨hne, h⟩
      exact HexNumeral.unsigned hne h
    · intro h
      cases h with
      | unsigned hne h => exact ⟨hne, h⟩
      | signed _ _ => exact absurd rfl hplus

namespace Cursor

/-- What a run leaves in its record. -/
inductive Event where
  /-- The cursor is set to a place. -/
  | moved (place : Nat)
  /-- A round of a loop has taken the cursor from a place to another, and the loop goes on. -/
  | turned (before after : Nat)
  /-- A value is asked for at a place, within the value that began at `around`. -/
  | called (around : Option Nat) (start : Nat)
deriving DecidableEq

/-- Why a run ends early: the text is no literal, or it was cut where it cannot be. -/
inductive Halt where
  | fault (error : Error)
  | badCut
deriving DecidableEq

/-- A part of a run under a limit, which adds to a record that shows the latest event first. -/
abbrev Run (α : Type) := ReaderT Nat (ExceptT Halt (StateT (List Event) Option)) α

/-- How a run under a limit ends that begins with a record, and the record after it. -/
def outcome {α : Type} (run : Run α) (limit : Nat) (record : List Event) :
    Option (Except Halt α × List Event) :=
  (run.run limit).run.run record

/-- A run that is over its limit has no result. -/
def overLimit {α : Type} : Run α :=
  liftM (none : Option α)

/-- The cursor is where it was set last, and in front of the text until then. -/
def cursorOf : List Event → Nat
  | [] => 0
  | .moved place :: _ => place
  | .turned _ _ :: record => cursorOf record
  | .called _ _ :: record => cursorOf record

def place : Run Nat := do
  return cursorOf (← get)

def note (event : Event) : Run Unit :=
  modify (event :: ·)

def moveTo (place : Nat) : Run Unit :=
  note (.moved place)

/-- Notes that a round of a loop that began at `before` is over. -/
def turned (before : Nat) : Run Unit := do
  note (.turned before (← place))

def fail {α : Type} (cause : Cause) : Run α := do
  throw (.fault ⟨cause, ← place⟩)

/-- What was cut out of the text. -/
def cut {α : Type} (part : Option α) : Run α :=
  match part with
  | some a => return a
  | none => throw .badCut

def peek (text : List Char) : Run (Option Char) := do
  return (← cut (afterBytes (← place) text)).head?

/-- The next character, with the cursor set behind it. -/
def bump (text : List Char) : Run (Option Char) := do
  match ← peek text with
  | none => return none
  | some c =>
      moveTo ((← place) + c.utf8Size)
      return some c

def expect (text : List Char) (wanted : Char) : Run Unit := do
  match ← bump text with
  | none => fail (.expected wanted none)
  | some c => if c = wanted then return () else fail (.expected wanted (some c))

/-- Goes past the characters that pass a test, one in each round. -/
def skipRounds (text : List Char) (p : Char → Bool) : Nat → Run Unit
  | 0 => overLimit
  | rounds + 1 => do
      let before ← place
      if (← peek text).any p then
        let _ ← bump text
        turned before
        skipRounds text p rounds

def skipWhile (text : List Char) (p : Char → Bool) : Run Unit := do
  skipRounds text p (← read)

/-- The characters at the cursor that pass a test. -/
def takeWhile (text : List Char) (p : Char → Bool) : Run (List Char) := do
  let start ← place
  skipWhile text p
  cut (bytesBetween? start (← place) text)

/-- An identifier.  If there is none, the cursor goes back to where it was. -/
def identifier (text : List Char) : Run (List Char) := do
  let start ← place
  let name ← takeWhile text inIdentifier
  if isIdentifier name then return name
  else
    moveTo start
    fail .objectKey

def keyword (text : List Char) : Run Json := do
  let start ← place
  let word ← identifier text
  match wordValue? word with
  | some v => return v
  | none =>
      moveTo start
      fail (.unquoted word)

def number (text : List Char) : Run Json := do
  let start ← place
  let numeral := withoutPlus (← takeWhile text inNumeral)
  match numberOf? numeral with
  | some n => return .number n
  | none => throw (.fault ⟨.badNumber numeral, start⟩)

/-- The character whose number stands in the next four bytes. -/
def codePoint (text : List Char) : Run Char := do
  let start ← place
  match bytesBetween? start (start + 4) text with
  | none => fail .truncatedUnicode
  | some digits =>
      match codeNumber? digits with
      | none => fail .badUnicode
      | some n =>
          moveTo (start + 4)
          match charOf? n with
          | none => fail .badCodePoint
          | some c => return c

/-- The character that is written behind a backslash. -/
def escape (text : List Char) : Run Char := do
  match ← bump text with
  | none => fail .unterminatedEscape
  | some c => if c = 'u' then codePoint text else return unescape c

/-- A character of a string that is not its closing quote.  Its writing begins with `c`, and the
cursor stands behind that. -/
def character (text : List Char) (c : Char) : Run Char :=
  if c = '\\' then escape text else return c

/-- The characters of a string up to its closing quote, behind those that were read, one in each
round. -/
def characters (text : List Char) (quote : Char) : Nat → List Char → Run (List Char)
  | 0, _ => overLimit
  | rounds + 1, earlier => do
      let before ← place
      match ← bump text with
      | none => fail .unterminatedString
      | some c =>
          if c = quote then return earlier
          else
            let d ← character text c
            turned before
            characters text quote rounds (earlier ++ [d])

def string (text : List Char) (quote : Char) : Run String := do
  expect text quote
  return String.ofList (← characters text quote (← read) [])

def key (text : List Char) : Run String := do
  match ← peek text with
  | none => fail .unterminatedObject
  | some c =>
      if c = '"' ∨ c = '\'' then string text c
      else return String.ofList (← identifier text)

/-- The key of an entry, with the colon behind it. -/
def label (text : List Char) : Run String := do
  let k ← key text
  skipWhile text Text.isBlank
  expect text ':'
  return k

/-- Whether a comma comes next, and not what closes the list. -/
def comma (text : List Char) (closing : Char) (cause : Cause) : Run Bool := do
  skipWhile text Text.isBlank
  match ← bump text with
  | none => fail cause
  | some c =>
      if c = ',' then return true
      else if c = closing then return false
      else fail cause

mutual

/-- A value, within the value that began at `around`.  As many calls may stand within this one as
`depth` says. -/
def value (text : List Char) : Nat → Option Nat → Run Json
  | 0, _ => overLimit
  | depth + 1, around => do
      let start ← place
      note (.called around start)
      skipWhile text Text.isBlank
      match ← peek text with
      | none => fail .unexpectedEnd
      | some c =>
          if c = '\x7b' then
            expect text '\x7b'
            return .object (← members text depth start [])
          else if c = '[' then
            expect text '['
            return .array (← items text depth start [])
          else if c = '"' ∨ c = '\'' then return .string (← string text c)
          else if startsNumeral c then number text
          else if isLetter c then keyword text
          else fail (.unexpected c)

/-- The entries of the object that began at `start`, inserted after those that were read. -/
def members (text : List Char) : Nat → Nat → Object → Run Object
  | 0, _, _ => overLimit
  | depth + 1, start, earlier => do
      let before ← place
      skipWhile text Text.isBlank
      if (← peek text) = some '\x7d' then
        let _ ← bump text
        return earlier
      else
        let k ← label text
        let v ← value text depth (some start)
        if ← comma text '\x7d' .objectSeparator then
          turned before
          members text depth start (earlier.insert k v)
        else return earlier.insert k v

/-- The items of the list that began at `start`, behind those that were read. -/
def items (text : List Char) : Nat → Nat → List Json → Run (List Json)
  | 0, _, _ => overLimit
  | depth + 1, start, earlier => do
      let before ← place
      skipWhile text Text.isBlank
      if (← peek text) = some ']' then
        let _ ← bump text
        return earlier
      else
        let v ← value text depth (some start)
        if ← comma text ']' .arraySeparator then
          turned before
          items text depth start (earlier ++ [v])
        else return earlier ++ [v]

end

/-- The value of the whole text. -/
def parse (text : List Char) : Run Json := do
  let v ← value text (← read) none
  skipWhile text Text.isBlank
  if (← place) < byteSize text then fail .trailing
  else return v

end Cursor
end Literal
end Warrant
