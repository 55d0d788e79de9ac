import Warrant.Literal.Parser
import Warrant.Proofs.Json.Sameness

/-!
# Readings of object literals

The readers of literals carry along that the rest of a text is shorter.  Here they are stated
without that: first as equations for what they return, then as a relation between a text, the
value read from its front and the rest.

**Results.**
* `plain_value`, `plain_members`, `plain_items`: one step of each reader.
* `reads_iff`: the readings of a text are what the reader returns.
* `parseChars_eq_ok_iff`: a complete text is a reading with blanks behind it.
* `keysDistinct_of_parseChars`: no object of a literal holds a key twice.
-/

namespace Warrant
namespace Literal

open Text (Shorter)

/-- What was read and the rest of the text. -/
def plain {α : Type} {s : List Char} (read : Except Failure (α × Shorter s)) :
    Except Failure (α × List Char) :=
  read.map fun p => (p.1, p.2.1)

/-- The value of a bare word. -/
def wordValue? (word : List Char) : Option Json :=
  if word = ['t', 'r', 'u', 'e'] then some (.bool true)
  else if word = ['f', 'a', 'l', 's', 'e'] then some (.bool false)
  else if word = ['n', 'u', 'l', 'l'] then some .null
  else none

section Equations

variable {α : Type}

theorem plain_eq_ok_iff
    {s : List Char}
    {read : Except Failure (α × Shorter s)}
    {a : α} {rest : List Char} :
    plain read = .ok (a, rest) ↔ ∃ h, read = .ok (a, ⟨rest, h⟩) := by
  cases read with
  | error e => simp [plain, Except.map]
  | ok p =>
      obtain ⟨b, r, hr⟩ := p
      constructor
      · intro h
        simp only [plain, Except.map, Except.ok.injEq, Prod.mk.injEq] at h
        obtain ⟨rfl, rfl⟩ := h
        exact ⟨hr, rfl⟩
      · rintro ⟨h, heq⟩
        cases heq
        rfl

theorem plain_eq_error_iff
    {s : List Char}
    {read : Except Failure (α × Shorter s)}
    {e : Failure} :
    plain read = .error e ↔ read = .error e := by
  cases read <;> simp [plain, Except.map]

@[simp] theorem plain_error
    (s : List Char)
    (e : Failure) :
    plain (.error e : Except Failure (α × Shorter s)) = .error e := rfl

@[simp] theorem plain_ok
    {s : List Char}
    (a : α)
    (rest : Shorter s) :
    plain (.ok (a, rest)) = .ok (a, rest.1) := rfl

theorem plain_stringBody
    (quote : Char)
    (s : List Char) :
    plain (stringBody quote s) =
      (characters quote s).map fun p => (String.ofList p.1, p.2) := by
  unfold stringBody
  split
  next e h => simp only [h]; rfl
  next cs rest h => simp only [h]; rfl

theorem plain_number
    (c : Char)
    (r : List Char) :
    plain (number c r) =
      match numberOf? (withoutPlus (c :: r.takeWhile inNumeral)) with
      | some n => .ok (.number n, r.dropWhile inNumeral)
      | none => .error ⟨.badNumber (withoutPlus (c :: r.takeWhile inNumeral)), c :: r⟩ := by
  unfold number
  dsimp only
  cases numberOf? (withoutPlus (c :: r.takeWhile inNumeral)) <;> rfl

theorem plain_keyword
    (c : Char)
    (r : List Char) :
    plain (keyword c r) =
      match wordValue? (c :: r.takeWhile inIdentifier) with
      | some v => .ok (v, r.dropWhile inIdentifier)
      | none => .error ⟨.unquoted (c :: r.takeWhile inIdentifier), c :: r⟩ := by
  unfold keyword wordValue?
  dsimp only
  split
  · rfl
  · split
    · rfl
    · split <;> rfl

theorem plain_key
    (c : Char)
    (r : List Char) :
    plain (key c r) =
      if c = '"' ∨ c = '\'' then plain (stringBody c r)
      else if startsIdentifier c then
        .ok (String.ofList (c :: r.takeWhile inIdentifier), r.dropWhile inIdentifier)
      else .error ⟨.objectKey, c :: r⟩ := by
  unfold key
  split
  · cases stringBody c r <;> rfl
  · split <;> rfl

theorem plain_value
    (s : List Char) :
    plain (value s) =
      match skipBlanks s with
      | [] => .error ⟨.unexpectedEnd, []⟩
      | c :: r =>
          if c = '{' then (plain (members r [])).map fun p => (.object p.1, p.2)
          else if c = '[' then (plain (items r)).map fun p => (.array p.1, p.2)
          else if c = '"' ∨ c = '\'' then
            (plain (stringBody c r)).map fun p => (.string p.1, p.2)
          else if startsNumeral c then plain (number c r)
          else if isLetter c then plain (keyword c r)
          else .error ⟨.unexpected c, c :: r⟩ := by
  rw [value]
  split
  next h => simp only [h]; rfl
  next c r h =>
    simp only [h]
    split
    · cases members r [] <;> rfl
    · split
      · cases items r <;> rfl
      · split
        · cases stringBody c r <;> rfl
        · split
          · cases number c r <;> rfl
          · split
            · cases keyword c r <;> rfl
            · rfl

theorem plain_members
    (s : List Char)
    (before : Object) :
    plain (members s before) =
      match skipBlanks s with
      | [] => .error ⟨.unterminatedObject, []⟩
      | c :: r =>
          if c = '}' then .ok (before, r)
          else
            match plain (key c r) with
            | .error e => .error e
            | .ok (k, r1) =>
                match skipBlanks r1 with
                | [] => .error ⟨.expected ':' none, []⟩
                | c2 :: r2 =>
                    if c2 = ':' then
                      match plain (value r2) with
                      | .error e => .error e
                      | .ok (v, r3) =>
                          match skipBlanks r3 with
                          | [] => .error ⟨.objectSeparator, []⟩
                          | c4 :: r4 =>
                              if c4 = ',' then plain (members r4 (before.insert k v))
                              else if c4 = '}' then .ok (before.insert k v, r4)
                              else .error ⟨.objectSeparator, r4⟩
                    else .error ⟨.expected ':' (some c2), r2⟩ := by
  rw [members]
  split
  next h => simp only [h]; rfl
  next c r h =>
    simp only [h]
    split
    · rfl
    · cases hk : key c r with
      | error e => rfl
      | ok p =>
          obtain ⟨k, r1, h1⟩ := p
          simp only [plain_ok]
          split
          next h2 => simp only [h2, plain_error]
          next c2 r2 h2 =>
            simp only [h2]
            split
            · cases hv : value r2 with
              | error e => rfl
              | ok q =>
                  obtain ⟨v, r3, h3⟩ := q
                  simp only [plain_ok]
                  split
                  next h4 => simp only [h4, plain_error]
                  next c4 r4 h4 =>
                    simp only [h4]
                    split
                    · cases members r4 (before.insert k v) <;> rfl
                    · split <;> rfl
            · rfl

theorem plain_items_of_bracket
    {s r : List Char}
    (h : skipBlanks s = ']' :: r) :
    plain (items s) = .ok ([], r) := by
  rw [items]
  split
  next r' h' =>
    rw [h'] at h
    cases h
    rfl
  next hne => exact absurd h (hne r)

theorem plain_items
    {s : List Char}
    (h : ∀ r, skipBlanks s ≠ ']' :: r) :
    plain (items s) =
      match plain (value s) with
      | .error e => .error e
      | .ok (v, r1) =>
          match skipBlanks r1 with
          | [] => .error ⟨.arraySeparator, []⟩
          | c2 :: r2 =>
              if c2 = ',' then
                (plain (items r2)).map fun p : List Json × List Char => (v :: p.1, p.2)
              else if c2 = ']' then .ok ([v], r2)
              else .error ⟨.arraySeparator, r2⟩ := by
  rw [items]
  split
  next r h' => exact absurd h' (h r)
  · cases hv : value s with
    | error e => rfl
    | ok p =>
        obtain ⟨v, r1, h1⟩ := p
        simp only [plain_ok]
        split
        next h2 => simp only [h2, plain_error]
        next c2 r2 h2 =>
          simp only [h2]
          split
          · cases items r2 <;> rfl
          · split <;> rfl

end Equations

/-! The readings of a text. -/

/-- A key is read from the front of a text. -/
inductive ReadsKey : List Char → String → List Char → Prop
  | quoted {quote : Char} {r cs rest : List Char} :
      quote = '"' ∨ quote = '\'' →
      characters quote r = .ok (cs, rest) →
      ReadsKey (quote :: r) (String.ofList cs) rest
  | bare {c : Char} {r : List Char} :
      startsIdentifier c = true →
      ReadsKey (c :: r) (String.ofList (c :: r.takeWhile inIdentifier)) (r.dropWhile inIdentifier)

mutual

/-- A value is read from the front of a text. -/
inductive Reads : List Char → Json → List Char → Prop
  | object {s r rest : List Char} {o : Object} :
      skipBlanks s = '{' :: r →
      ReadsMembers r [] o rest →
      Reads s (.object o) rest
  | array {s r rest : List Char} {vs : List Json} :
      skipBlanks s = '[' :: r →
      ReadsItems r vs rest →
      Reads s (.array vs) rest
  | string {s r cs rest : List Char} {quote : Char} :
      skipBlanks s = quote :: r →
      quote = '"' ∨ quote = '\'' →
      characters quote r = .ok (cs, rest) →
      Reads s (.string (String.ofList cs)) rest
  | number {s r : List Char} {c : Char} {n : Number} :
      skipBlanks s = c :: r →
      startsNumeral c = true →
      numberOf? (withoutPlus (c :: r.takeWhile inNumeral)) = some n →
      Reads s (.number n) (r.dropWhile inNumeral)
  | word {s r : List Char} {c : Char} {v : Json} :
      skipBlanks s = c :: r →
      isLetter c = true →
      wordValue? (c :: r.takeWhile inIdentifier) = some v →
      Reads s v (r.dropWhile inIdentifier)

/-- The entries of an object up to its brace are read after those read before. -/
inductive ReadsMembers : List Char → Object → Object → List Char → Prop
  | done {s rest : List Char} {before : Object} :
      skipBlanks s = '}' :: rest →
      ReadsMembers s before before rest
  | last {s r r1 r2 r3 rest : List Char} {before : Object} {c : Char} {k : String} {v : Json} :
      skipBlanks s = c :: r →
      c ≠ '}' →
      ReadsKey (c :: r) k r1 →
      skipBlanks r1 = ':' :: r2 →
      Reads r2 v r3 →
      skipBlanks r3 = '}' :: rest →
      ReadsMembers s before (before.insert k v) rest
  | more {s r r1 r2 r3 r4 rest : List Char} {before o : Object} {c : Char} {k : String}
      {v : Json} :
      skipBlanks s = c :: r →
      c ≠ '}' →
      ReadsKey (c :: r) k r1 →
      skipBlanks r1 = ':' :: r2 →
      Reads r2 v r3 →
      skipBlanks r3 = ',' :: r4 →
      ReadsMembers r4 (before.insert k v) o rest →
      ReadsMembers s before o rest

/-- The items of a list up to its bracket are read. -/
inductive ReadsItems : List Char → List Json → List Char → Prop
  | done {s rest : List Char} :
      skipBlanks s = ']' :: rest →
      ReadsItems s [] rest
  | last {s r1 rest : List Char} {v : Json} :
      (∀ r, skipBlanks s ≠ ']' :: r) →
      Reads s v r1 →
      skipBlanks r1 = ']' :: rest →
      ReadsItems s [v] rest
  | more {s r1 r2 rest : List Char} {v : Json} {vs : List Json} :
      (∀ r, skipBlanks s ≠ ']' :: r) →
      Reads s v r1 →
      skipBlanks r1 = ',' :: r2 →
      ReadsItems r2 vs rest →
      ReadsItems s (v :: vs) rest

end

theorem readsKey_iff
    {c : Char} {r rest : List Char}
    {k : String} :
    ReadsKey (c :: r) k rest ↔ plain (key c r) = .ok (k, rest) := by
  rw [plain_key, plain_stringBody]
  constructor
  · intro h
    cases h with
    | quoted hq h =>
        rw [if_pos hq, h]
        rfl
    | bare hc =>
        have hq : ¬(c = '"' ∨ c = '\'') := by
          rintro (rfl | rfl) <;> simp [startsIdentifier, isLetter] at hc
        rw [if_neg hq, if_pos hc]
  · intro h
    by_cases hq : c = '"' ∨ c = '\''
    · rw [if_pos hq] at h
      cases hcs : characters c r with
      | error e => rw [hcs] at h; cases h
      | ok p =>
          rw [hcs] at h
          cases h
          exact ReadsKey.quoted hq hcs
    · rw [if_neg hq] at h
      by_cases hc : startsIdentifier c = true
      · rw [if_pos hc] at h
        cases h
        exact ReadsKey.bare hc
      · rw [if_neg hc] at h
        cases h

/-! Every reading is what the reader returns. -/

theorem plain_value_of_numeral
    {s r : List Char} {c : Char}
    (hs : skipBlanks s = c :: r)
    (hc : startsNumeral c = true) :
    plain (value s) = plain (number c r) := by
  have hbrace : c ≠ '{' := by
    rintro rfl
    simp [startsNumeral, Decimal.isDigit] at hc
  have hbracket : c ≠ '[' := by
    rintro rfl
    simp [startsNumeral, Decimal.isDigit] at hc
  have hquote : ¬(c = '"' ∨ c = '\'') := by
    rintro (rfl | rfl) <;> simp [startsNumeral, Decimal.isDigit] at hc
  rw [plain_value, hs]
  simp [hbrace, hbracket, hquote, hc]

theorem not_startsNumeral_of_isLetter
    {c : Char} (hc : isLetter c = true) :
    startsNumeral c = false := by
  cases h : startsNumeral c with
  | false => rfl
  | true =>
      simp only [startsNumeral, Decimal.isDigit, isLetter, Bool.or_eq_true, Bool.and_eq_true,
        decide_eq_true_eq, beq_iff_eq, Char.le_def, UInt32.le_iff_toNat_le] at h hc
      rcases h with ((h | rfl) | rfl) | rfl
      · have h9 : '9'.val.toNat < 'A'.val.toNat := by decide
        have ha : 'A'.val.toNat < 'a'.val.toNat := by decide
        omega
      · simp at hc
      · simp at hc
      · simp at hc

theorem plain_value_of_letter
    {s r : List Char} {c : Char}
    (hs : skipBlanks s = c :: r)
    (hc : isLetter c = true) :
    plain (value s) = plain (keyword c r) := by
  have hbrace : c ≠ '{' := by
    rintro rfl
    simp [isLetter] at hc
  have hbracket : c ≠ '[' := by
    rintro rfl
    simp [isLetter] at hc
  have hquote : ¬(c = '"' ∨ c = '\'') := by
    rintro (rfl | rfl) <;> simp [isLetter] at hc
  rw [plain_value, hs]
  simp [hbrace, hbracket, hquote, hc, not_startsNumeral_of_isLetter hc]

mutual

theorem plain_value_of_reads :
    ∀ {s rest : List Char} {v : Json}, Reads s v rest → plain (value s) = .ok (v, rest)
  | _, _, _, .object hs h => by
      rw [plain_value, hs]
      simp [plain_members_of_reads h, Except.map]
  | _, _, _, .array hs h => by
      rw [plain_value, hs]
      simp [plain_items_of_reads h, Except.map]
  | _, _, _, .string hs hq h => by
      rw [plain_value, hs]
      rcases hq with rfl | rfl <;> simp [plain_stringBody, h, Except.map]
  | _, _, _, .number hs hc h => by
      rw [plain_value_of_numeral hs hc, plain_number, h]
  | _, _, _, .word hs hc h => by
      rw [plain_value_of_letter hs hc, plain_keyword, h]

theorem plain_members_of_reads :
    ∀ {s rest : List Char} {before o : Object},
      ReadsMembers s before o rest → plain (members s before) = .ok (o, rest)
  | _, _, _, _, .done hs => by
      rw [plain_members, hs]
      simp
  | _, _, _, _, .last hs hc hk h2 hv h4 => by
      rw [plain_members, hs]
      simp [hc, readsKey_iff.1 hk, h2, plain_value_of_reads hv, h4]
  | _, _, _, _, .more hs hc hk h2 hv h4 h => by
      rw [plain_members, hs]
      simp [hc, readsKey_iff.1 hk, h2, plain_value_of_reads hv, h4, plain_members_of_reads h]

theorem plain_items_of_reads :
    ∀ {s rest : List Char} {vs : List Json},
      ReadsItems s vs rest → plain (items s) = .ok (vs, rest)
  | _, _, _, .done hs => plain_items_of_bracket hs
  | _, _, _, .last hs hv h2 => by
      rw [plain_items hs]
      simp [plain_value_of_reads hv, h2]
  | _, _, _, .more hs hv h2 h => by
      rw [plain_items hs]
      simp [plain_value_of_reads hv, h2, plain_items_of_reads h, Except.map]

end

/-! What the reader returns is a reading. -/

theorem length_lt_of_plain
    {α : Type} {s rest : List Char} {a : α}
    {read : Except Failure (α × Shorter s)}
    (h : plain read = .ok (a, rest)) :
    rest.length < s.length := by
  obtain ⟨hlt, -⟩ := plain_eq_ok_iff.1 h
  exact hlt

mutual

theorem reads_of_plain_value
    {s rest : List Char} {v : Json}
    (h : plain (value s) = .ok (v, rest)) :
    Reads s v rest := by
  rw [plain_value] at h
  cases hs : skipBlanks s with
  | nil => rw [hs] at h; cases h
  | cons c r =>
      have hlt := length_lt_of_skipBlanks hs
      rw [hs] at h
      dsimp only at h
      split at h
      next hc =>
        obtain ⟨⟨o, rest'⟩, hm, heq⟩ := exists_of_map_eq_ok h
        cases heq
        subst hc
        exact Reads.object hs (readsMembers_of_plain_members hm)
      next =>
        split at h
        next hc =>
          obtain ⟨⟨vs, rest'⟩, hm, heq⟩ := exists_of_map_eq_ok h
          cases heq
          subst hc
          exact Reads.array hs (readsItems_of_plain_items hm)
        next =>
          split at h
          next hq =>
            obtain ⟨⟨t, rest'⟩, hm, heq⟩ := exists_of_map_eq_ok h
            cases heq
            rw [plain_stringBody] at hm
            obtain ⟨⟨cs, rest''⟩, hcs, heq⟩ := exists_of_map_eq_ok hm
            cases heq
            exact Reads.string hs hq hcs
          next =>
            split at h
            next hc =>
              rw [plain_number] at h
              split at h
              next n hn =>
                cases h
                exact Reads.number hs hc hn
              next => cases h
            next =>
              split at h
              next hc =>
                rw [plain_keyword] at h
                split at h
                next w hw =>
                  cases h
                  exact Reads.word hs hc hw
                next => cases h
              next => cases h
termination_by (s.length, 0)

theorem readsMembers_of_plain_members
    {s rest : List Char} {before o : Object}
    (h : plain (members s before) = .ok (o, rest)) :
    ReadsMembers s before o rest := by
  rw [plain_members] at h
  cases hs : skipBlanks s with
  | nil => rw [hs] at h; cases h
  | cons c r =>
      have hlt := length_lt_of_skipBlanks hs
      rw [hs] at h
      dsimp only at h
      split at h
      next hc =>
        cases h
        subst hc
        exact ReadsMembers.done hs
      next hc =>
        cases hk : plain (key c r) with
        | error e => rw [hk] at h; cases h
        | ok p =>
            obtain ⟨k, r1⟩ := p
            have hlt1 : r1.length ≤ r.length := Nat.le_of_lt_succ (length_lt_of_plain hk)
            rw [hk] at h
            dsimp only at h
            cases h2 : skipBlanks r1 with
            | nil => rw [h2] at h; cases h
            | cons c2 r2 =>
                have hlt2 := length_lt_of_skipBlanks h2
                rw [h2] at h
                dsimp only at h
                split at h
                next hcolon =>
                  subst hcolon
                  cases hv : plain (value r2) with
                  | error e => rw [hv] at h; cases h
                  | ok q =>
                      obtain ⟨v, r3⟩ := q
                      have hlt3 := length_lt_of_plain hv
                      have hread := reads_of_plain_value hv
                      rw [hv] at h
                      dsimp only at h
                      cases h4 : skipBlanks r3 with
                      | nil => rw [h4] at h; cases h
                      | cons c4 r4 =>
                          have hlt4 := length_lt_of_skipBlanks h4
                          rw [h4] at h
                          dsimp only at h
                          split at h
                          next hcomma =>
                            subst hcomma
                            exact ReadsMembers.more hs hc (readsKey_iff.2 hk) h2 hread h4
                              (readsMembers_of_plain_members h)
                          next =>
                            split at h
                            next hbrace =>
                              cases h
                              subst hbrace
                              exact ReadsMembers.last hs hc (readsKey_iff.2 hk) h2 hread h4
                            next => cases h
                next => cases h
termination_by (s.length, 1)

theorem readsItems_of_plain_items
    {s rest : List Char} {vs : List Json}
    (h : plain (items s) = .ok (vs, rest)) :
    ReadsItems s vs rest := by
  by_cases hs : ∃ r, skipBlanks s = ']' :: r
  · obtain ⟨r, hs⟩ := hs
    rw [plain_items_of_bracket hs] at h
    cases h
    exact ReadsItems.done hs
  · have hne : ∀ r, skipBlanks s ≠ ']' :: r := fun r hr => hs ⟨r, hr⟩
    rw [plain_items hne] at h
    cases hv : plain (value s) with
    | error e => rw [hv] at h; cases h
    | ok p =>
        obtain ⟨v, r1⟩ := p
        have hlt1 := length_lt_of_plain hv
        have hread := reads_of_plain_value hv
        rw [hv] at h
        dsimp only at h
        cases h2 : skipBlanks r1 with
        | nil => rw [h2] at h; cases h
        | cons c2 r2 =>
            have hlt2 := length_lt_of_skipBlanks h2
            rw [h2] at h
            dsimp only at h
            split at h
            next hcomma =>
              subst hcomma
              obtain ⟨⟨vs', rest'⟩, hm, heq⟩ := exists_of_map_eq_ok h
              cases heq
              exact ReadsItems.more hne hread h2 (readsItems_of_plain_items hm)
            next =>
              split at h
              next hbracket =>
                cases h
                subst hbracket
                exact ReadsItems.last hne hread h2
              next => cases h
termination_by (s.length, 1)

end

/-- The readings of a text are what the reader returns. -/
theorem reads_iff
    {s rest : List Char} {v : Json} :
    Reads s v rest ↔ plain (value s) = .ok (v, rest) :=
  ⟨plain_value_of_reads, reads_of_plain_value⟩

/-- A complete text is a reading with nothing but blanks behind it. -/
theorem parseChars_eq_ok_iff
    {s : List Char} {v : Json} :
    parseChars s = .ok v ↔ ∃ rest, Reads s v rest ∧ skipBlanks rest = [] := by
  unfold parseChars
  constructor
  · intro h
    cases hv : value s with
    | error f => rw [hv] at h; cases h
    | ok p =>
        obtain ⟨w, rest⟩ := p
        rw [hv] at h
        dsimp only at h
        cases hr : skipBlanks rest.1 with
        | cons c r => rw [hr] at h; cases h
        | nil =>
            rw [hr] at h
            cases h
            refine ⟨rest.1, reads_iff.2 ?_, hr⟩
            rw [hv, plain_ok]
  · rintro ⟨rest, hread, hr⟩
    obtain ⟨hlt, hv⟩ := plain_eq_ok_iff.1 (reads_iff.1 hread)
    rw [hv]
    simp only [hr]

/-! What is read holds no key twice. -/

mutual

theorem Reads.keysDistinct :
    ∀ {s rest : List Char} {v : Json}, Reads s v rest → v.KeysDistinct
  | _, _, _, .object _ h =>
      h.keysDistinct (Json.keysDistinct_object_iff.2 ⟨List.nodup_nil, by simp⟩)
  | _, _, _, .array _ h => Json.keysDistinct_array_iff.2 h.keysDistinct
  | _, _, _, .string _ _ _ => trivial
  | _, _, _, .number _ _ _ => trivial
  | _, _, v, .word _ _ h => by
      unfold wordValue? at h
      split at h
      · cases h
        trivial
      · split at h
        · cases h
          trivial
        · split at h
          · cases h
            trivial
          · cases h

theorem ReadsMembers.keysDistinct :
    ∀ {s rest : List Char} {before o : Object}, ReadsMembers s before o rest →
      (Json.object before).KeysDistinct → (Json.object o).KeysDistinct
  | _, _, _, _, .done _, hb => hb
  | _, _, _, _, .last _ _ _ _ hv _, hb => Json.keysDistinct_insert hb hv.keysDistinct _
  | _, _, _, _, .more _ _ _ _ hv _ h, hb =>
      h.keysDistinct (Json.keysDistinct_insert hb hv.keysDistinct _)

theorem ReadsItems.keysDistinct :
    ∀ {s rest : List Char} {vs : List Json}, ReadsItems s vs rest → ∀ v ∈ vs, v.KeysDistinct
  | _, _, _, .done _ => by simp
  | _, _, _, .last _ hv _ => by simpa using hv.keysDistinct
  | _, _, _, .more _ hv _ h => List.forall_mem_cons.2 ⟨hv.keysDistinct, h.keysDistinct⟩

end

/-- A literal denotes a value in which no object has a key twice. -/
theorem keysDistinct_of_parseChars
    {s : List Char} {v : Json}
    (h : parseChars s = .ok v) :
    v.KeysDistinct := by
  obtain ⟨rest, hread, -⟩ := parseChars_eq_ok_iff.1 h
  exact hread.keysDistinct

end Literal
end Warrant
