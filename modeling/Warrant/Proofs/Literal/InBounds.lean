import Warrant.Proofs.Literal.CursorSteps
import Warrant.Proofs.Literal.Grammar

/-!
# Reading within the bounds of the text

The reader with a cursor performs what the reader of what is left of the text says, function by
function.  For that, the latter is put in the shape of the former first: what reads a key, a comma
or a single character of a string is given a name, with what it leaves behind.  The loop over a
string goes by induction on the rounds that are left under the limit, and values, entries and items
by a mutual induction on the depth that is left.

**Results.**
* `performs_identifier`, `performs_keyword`, `performs_number`: tokens, with the cursor set back
  where they are none.
* `performs_codePoint`: the four bytes of an escape are cut out only where they are characters.
* `performs_characters`, `performs_value`: the loop over a string, and values within each other.
* `parse_inBounds`: on every text the reader with a cursor comes to the end that the text has, and
  all that it records is sound.
-/

namespace Warrant
namespace Literal
namespace Cursor

section Tokens

variable {limit : Nat} {text s : List Char} {c : Char} {r : List Char}

theorem takeWhile_inIdentifier
    (hc : startsIdentifier c = true)
    (r : List Char) :
    (c :: r).takeWhile inIdentifier = c :: r.takeWhile inIdentifier ∧
      (c :: r).dropWhile inIdentifier = r.dropWhile inIdentifier := by
  have hin : inIdentifier c = true := by rw [inIdentifier, hc, Bool.true_or]
  exact ⟨List.takeWhile_cons_of_pos hin, List.dropWhile_cons_of_pos hin⟩

theorem performs_identifier
    (hc : startsIdentifier c = true)
    (r : List Char) :
    Performs limit text (identifier text) (c :: r)
      (.ok (c :: r.takeWhile inIdentifier, r.dropWhile inIdentifier)) := by
  have hname : isIdentifier (c :: r.takeWhile inIdentifier) = true := by
    rw [isIdentifier, hc, Bool.true_and, List.all_eq_true]
    exact fun d hd => List.mem_takeWhile_imp hd
  obtain ⟨htake, hdrop⟩ := takeWhile_inIdentifier hc r
  refine (performs_place _).bind ((performs_takeWhile inIdentifier (c :: r)).bind ?_)
  rw [htake, hdrop, if_pos hname]
  exact performs_pure _ _

/-- Digits in front do not make an identifier: the cursor goes back. -/
theorem performs_identifier_none
    (hc : startsIdentifier c = false)
    (r : List Char) :
    Performs limit text (identifier text) (c :: r) (.error ⟨.objectKey, c :: r⟩) := by
  intro hlimit hs
  have hname : ¬isIdentifier ((c :: r).takeWhile inIdentifier) = true := by
    rw [List.takeWhile_cons]
    split
    · rw [isIdentifier, hc, Bool.false_and]
      exact Bool.false_ne_true
    · exact Bool.false_ne_true
  refine ((performs_place _).bind ((performs_takeWhile inIdentifier (c :: r)).bind ?_)) hlimit hs
  rw [if_neg hname]
  exact (performs_moveTo hs _).bind (performs_fail .objectKey (c :: r))

theorem performs_keyword
    (hc : isLetter c = true)
    (r : List Char) :
    Performs limit text (keyword text) (c :: r) (plain (Literal.keyword c r)) := by
  intro hlimit hs
  have hstart : startsIdentifier c = true := by
    rw [startsIdentifier, hc, Bool.true_or, Bool.true_or]
  refine ((performs_place _).bind ((performs_identifier hstart r).bind ?_)) hlimit hs
  rw [plain_keyword]
  cases wordValue? (c :: r.takeWhile inIdentifier) with
  | some v => exact performs_pure v _
  | none => exact (performs_moveTo hs _).bind (performs_fail _ (c :: r))

theorem performs_number
    (hc : startsNumeral c = true)
    (r : List Char) :
    Performs limit text (number text) (c :: r) (plain (Literal.number c r)) := by
  intro hlimit hs
  have hin : inNumeral c = true := by rw [inNumeral, hc, Bool.true_or, Bool.true_or]
  refine ((performs_place _).bind ((performs_takeWhile inNumeral (c :: r)).bind ?_)) hlimit hs
  rw [plain_number, List.takeWhile_cons_of_pos hin, List.dropWhile_cons_of_pos hin]
  dsimp only
  cases numberOf? (withoutPlus (c :: r.takeWhile inNumeral)) with
  | some n => exact performs_pure (Json.number n) _
  | none =>
      -- the fault lies where the numeral began, though the cursor stands behind it
      exact performs_throw (f := ⟨_, c :: r⟩) hs _

end Tokens

/-! Strings. -/

/-- The character whose number stands at the front of a text, and the text behind the number. -/
def readCodePoint (s : List Char) : Except Failure (Char × List Char) :=
  match s with
  | a :: b :: c :: d :: r =>
      match escapeNumber? a b c d with
      | none => .error ⟨escapeFault s, s⟩
      | some n =>
          match charOf? n with
          | none => .error ⟨.badCodePoint, r⟩
          | some e => .ok (e, r)
  | _ => .error ⟨escapeFault s, s⟩

/-- The character that is written behind a backslash, and the text behind that. -/
def readEscape : List Char → Except Failure (Char × List Char)
  | [] => .error ⟨.unterminatedEscape, []⟩
  | c :: r => if c = 'u' then readCodePoint r else .ok (unescape c, r)

section Strings

variable {limit : Nat} {text s r rest : List Char} {quote c d : Char}

theorem readCodePoint_of_numeral
    {numeral : List Char} {n : Nat}
    (hsize : byteSize numeral = 4)
    (hnumeral : HexNumeral numeral n)
    (back : List Char) :
    readCodePoint (numeral ++ back) =
      match charOf? n with
      | none => .error ⟨.badCodePoint, back⟩
      | some e => .ok (e, back) := by
  obtain ⟨a, b, c, d, rfl, hnumber⟩ := hexNumeral_iff.1 ⟨hsize, hnumeral⟩
  simp only [readCodePoint, List.cons_append, List.nil_append, hnumber]

theorem readCodePoint_of_no_numeral
    (h : ∀ numeral back n, s = numeral ++ back → byteSize numeral = 4 → ¬HexNumeral numeral n) :
    readCodePoint s = .error ⟨escapeFault s, s⟩ := by
  unfold readCodePoint
  split
  next a b c d r =>
    cases hnumber : escapeNumber? a b c d with
    | none => rfl
    | some n =>
        obtain ⟨hsize, hnumeral⟩ := hexNumeral_iff.2 ⟨a, b, c, d, rfl, hnumber⟩
        exact absurd hnumeral (h _ r n rfl hsize)
  next => rfl

theorem performs_codePoint (s : List Char) :
    Performs limit text (codePoint text) s (readCodePoint s) := by
  intro hlimit hs
  refine ((performs_place s).bind ?_) hlimit hs
  cases hcut : bytesBetween? (placeOf text s) (placeOf text s + 4) text with
  | none =>
      have hshort : ∀ front back, s = front ++ back → byteSize front ≠ 4 := by
        intro front back hfront hsize
        rw [(bytesBetween?_placeOf_iff hs).2 ⟨back, hfront, hsize⟩] at hcut
        cases hcut
      have hafter : afterBytes 4 s = none := by
        rw [Option.eq_none_iff_forall_ne_some]
        intro back hback
        obtain ⟨front, hfront, hsize⟩ := afterBytes_eq_some_iff.1 hback
        exact hshort front back hfront hsize
      rw [readCodePoint_of_no_numeral fun _ _ _ hs hsize => absurd hsize (hshort _ _ hs),
        escapeFault, hafter]
      exact performs_fail _ _
  | some digits =>
      obtain ⟨back, rfl, hsize⟩ := (bytesBetween?_placeOf_iff hs).1 hcut
      have hafter := afterBytes_eq_some_iff.2 ⟨digits, Eq.refl (digits ++ back), hsize⟩
      dsimp only
      cases hcode : codeNumber? digits with
      | none =>
          have hnone : ∀ numeral rest n, digits ++ back = numeral ++ rest →
              byteSize numeral = 4 → ¬HexNumeral numeral n := by
            intro numeral rest n heq hnumeral h
            obtain ⟨rfl, rfl⟩ := eq_of_append_eq heq (hsize.trans hnumeral.symm)
            rw [codeNumber?_eq_some_iff.2 h] at hcode
            cases hcode
          rw [readCodePoint_of_no_numeral hnone, escapeFault, hafter]
          exact performs_fail _ _
      | some n =>
          have hplace : placeOf text (digits ++ back) + 4 = placeOf text back := by
            rw [placeOf_append_of_suffix digits hs, hsize]
          have hback := (List.suffix_append digits back).trans hs
          rw [readCodePoint_of_numeral hsize (codeNumber?_eq_some_iff.1 hcode), hplace]
          refine (performs_moveTo hback _).bind ?_
          cases charOf? n with
          | none => exact performs_fail _ _
          | some c => exact performs_pure c back

theorem performs_escape (s : List Char) : Performs limit text (escape text) s (readEscape s) := by
  cases s with
  | nil => exact performs_bump_nil.bind (performs_fail _ _)
  | cons c r =>
      refine (performs_bump_cons c r).bind ?_
      rw [readEscape]
      dsimp only
      split
      · exact performs_codePoint r
      · exact performs_pure _ r

theorem characters_backslash
    (quote : Char)
    (s : List Char) :
    Literal.characters quote ('\\' :: s) =
      (readEscape s).bind fun p => consRead p.1 (Literal.characters quote p.2) := by
  cases s with
  | nil =>
      rw [Literal.characters]
      rfl
  | cons c r =>
      by_cases hu : c = 'u'
      · subst hu
        rw [readEscape, if_pos rfl]
        unfold readCodePoint
        split
        next a1 a2 a3 a4 r =>
          rw [Literal.characters]
          cases escapeNumber? a1 a2 a3 a4 with
          | none => rfl
          | some n =>
              dsimp only
              cases charOf? n <;> rfl
        next hshort =>
          rw [Literal.characters, if_pos rfl]
          · rfl
          · exact fun a1 a2 a3 a4 r _ h => hshort a1 a2 a3 a4 r h
      · rw [characters_of_escape hu, readEscape, if_neg hu]
        rfl

theorem suffix_of_readCodePoint
    (h : readCodePoint s = .ok (c, rest)) :
    rest <:+ s := by
  unfold readCodePoint at h
  split at h
  next a1 a2 a3 a4 r =>
    cases hnumber : escapeNumber? a1 a2 a3 a4 with
    | none => rw [hnumber] at h; cases h
    | some n =>
        rw [hnumber] at h
        dsimp only at h
        cases hchar : charOf? n with
        | none => rw [hchar] at h; cases h
        | some e =>
            rw [hchar] at h
            cases h
            exact List.suffix_append [a1, a2, a3, a4] rest
  next => cases h

theorem suffix_of_readEscape
    (h : readEscape s = .ok (c, rest)) :
    rest <:+ s := by
  cases s with
  | nil => cases h
  | cons d r =>
      rw [readEscape] at h
      split at h
      next => exact (suffix_of_readCodePoint h).trans (List.suffix_cons d r)
      next =>
        cases h
        exact List.suffix_cons d _

/-- A character of a string that is not its closing quote, and the text behind that. -/
def readCharacter (c : Char) (r : List Char) : Except Failure (Char × List Char) :=
  if c = '\\' then readEscape r else .ok (c, r)

theorem performs_character
    (c : Char)
    (r : List Char) :
    Performs limit text (character text c) r (readCharacter c r) := by
  unfold character readCharacter
  split
  · exact performs_escape r
  · exact performs_pure c r

theorem characters_cons
    (hquote : c ≠ quote)
    (r : List Char) :
    Literal.characters quote (c :: r) =
      (readCharacter c r).bind fun p => consRead p.1 (Literal.characters quote p.2) := by
  unfold readCharacter
  split
  next hslash =>
    subst hslash
    exact characters_backslash quote r
  next hslash => exact characters_of_plain hquote hslash r

theorem suffix_of_readCharacter
    (h : readCharacter c r = .ok (d, rest)) :
    rest <:+ r := by
  unfold readCharacter at h
  split at h
  · exact suffix_of_readEscape h
  · cases h
    exact List.suffix_rfl

theorem map_append_nil
    {α : Type}
    (read : Except Failure (List α × List Char)) :
    (read.map fun p => ([] ++ p.1, p.2)) = read := by
  cases read <;> rfl

theorem map_consRead
    (read : Except Failure (List Char × List Char))
    (before : List Char) :
    ((consRead c read).map fun p => (before ++ p.1, p.2)) =
      read.map fun p => (before ++ [c] ++ p.1, p.2) := by
  cases read with
  | error f => rfl
  | ok p => simp only [consRead, Except.map, List.append_assoc, List.cons_append, List.nil_append]

theorem performs_characters
    (hquote : quote ≠ '\\')
    (rounds : Nat)
    (s before : List Char)
    (hrounds : s.length < rounds) :
    Performs limit text (characters text quote rounds before) s
      ((Literal.characters quote s).map fun p => (before ++ p.1, p.2)) := by
  induction rounds generalizing s before with
  | zero => cases hrounds
  | succ rounds ih =>
      intro hlimit hs
      rw [characters]
      cases s with
      | nil =>
          refine ((performs_place []).bind (performs_bump_nil.bind ?_)) hlimit hs
          rw [Literal.characters]
          exact performs_fail _ _
      | cons c r =>
          refine ((performs_place _).bind ((performs_bump_cons c r).bind ?_)) hlimit hs
          dsimp only
          by_cases hc : c = quote
          · subst hc
            rw [if_pos rfl, characters_of_quote hquote]
            simp only [Except.map, List.append_nil]
            exact performs_pure before r
          · rw [if_neg hc, characters_cons hc]
            have hcharacter : Performs limit text (character text c) r (readCharacter c r) :=
              performs_character c r
            cases hread : readCharacter c r with
            | error f =>
                rw [hread] at hcharacter
                exact hcharacter.bind_error
            | ok p =>
                obtain ⟨d, rest⟩ := p
                rw [hread] at hcharacter
                have hrest := suffix_of_readCharacter hread
                have hlt : rest.length < (c :: r).length := Nat.lt_succ_of_le hrest.length_le
                have hturned : Performs limit text (turned (placeOf text (c :: r))) rest _ :=
                  performs_turned hs (hrest.trans (List.suffix_cons c r)) hlt
                have hagain := ih rest (before ++ [d]) (by omega)
                rw [← map_consRead] at hagain
                exact hcharacter.bind (hturned.bind hagain)

theorem performs_string
    (hquote : quote ≠ '\\')
    (r : List Char) :
    Performs limit text (string text quote) (quote :: r) (plain (stringBody quote r)) := by
  intro hlimit hs
  have hrounds := length_lt_limit hlimit ((List.suffix_cons quote r).trans hs)
  have hchars : Performs limit text (characters text quote limit []) r _ :=
    performs_characters hquote limit r [] hrounds
  rw [map_append_nil] at hchars
  rw [plain_stringBody]
  refine ((performs_expect_self quote r).bind ((performs_limit r).bind ?_)) hlimit hs
  exact hchars.map String.ofList

end Strings

/-! Values. -/

/-- The key of an entry. -/
def readKey : List Char → Except Failure (String × List Char)
  | [] => .error ⟨.unterminatedObject, []⟩
  | c :: r => plain (Literal.key c r)

/-- The key of an entry, with the colon behind it. -/
def readLabel (s : List Char) : Except Failure (String × List Char) :=
  (readKey s).bind fun p =>
    (readExpected ':' (skipBlanks p.2)).map fun q => (p.1, q.2)

/-- Whether a comma comes next, and not what closes the list. -/
def readComma (closing : Char) (cause : Cause) (s : List Char) :
    Except Failure (Bool × List Char) :=
  match skipBlanks s with
  | [] => .error ⟨cause, []⟩
  | c :: r =>
      if c = ',' then .ok (true, r)
      else if c = closing then .ok (false, r)
      else .error ⟨cause, r⟩

/-- A value in a list, and what else there is: `next` reads on behind a comma, and `last` is the
whole where the list is closed. -/
def readElement {β : Type} (closing : Char) (cause : Cause) (last : Json → β)
    (next : Json → List Char → Except Failure (β × List Char)) (s : List Char) :
    Except Failure (β × List Char) :=
  (plain (Literal.value s)).bind fun p =>
    (readComma closing cause p.2).bind fun more =>
      if more.1 then next p.1 more.2 else .ok (last p.1, more.2)

section Values

variable {limit : Nat} {text s r : List Char}

theorem plain_value_skipBlanks (s : List Char) :
    plain (Literal.value (skipBlanks s)) = plain (Literal.value s) := by
  have hskip : skipBlanks (skipBlanks s) = skipBlanks s :=
    Text.dropWhile_of_stops (Text.stops_dropWhile Text.isBlank s)
  rw [plain_value, plain_value s, hskip]

theorem readElement_eq
    {β : Type}
    (closing : Char) (cause : Cause)
    (last : Json → β)
    (next : Json → List Char → Except Failure (β × List Char))
    (s : List Char) :
    readElement closing cause last next s =
      match plain (Literal.value s) with
      | .error f => .error f
      | .ok (v, r) =>
          match skipBlanks r with
          | [] => .error ⟨cause, []⟩
          | c :: rest =>
              if c = ',' then next v rest
              else if c = closing then .ok (last v, rest)
              else .error ⟨cause, rest⟩ := by
  unfold readElement
  cases plain (Literal.value s) with
  | error f => rfl
  | ok p =>
      dsimp only [Except.bind, readComma]
      cases skipBlanks p.2 with
      | nil => rfl
      | cons c rest =>
          dsimp only
          by_cases hcomma : c = ','
          · rw [if_pos hcomma, if_pos hcomma]
            rfl
          · rw [if_neg hcomma, if_neg hcomma]
            by_cases hclosing : c = closing
            · rw [if_pos hclosing, if_pos hclosing]
              rfl
            · rw [if_neg hclosing, if_neg hclosing]

theorem readElement_skipBlanks
    {β : Type}
    (closing : Char) (cause : Cause)
    (last : Json → β)
    (next : Json → List Char → Except Failure (β × List Char))
    (s : List Char) :
    readElement closing cause last next (skipBlanks s) =
      readElement closing cause last next s := by
  rw [readElement, plain_value_skipBlanks, readElement]

theorem plain_members_of_brace
    (hskip : skipBlanks s = '\x7d' :: r)
    (before : Object) :
    plain (Literal.members s before) = .ok (before, r) := by
  rw [plain_members, hskip]
  rfl

theorem plain_members_of_entry
    (hskip : (skipBlanks s).head? ≠ some '\x7d')
    (before : Object) :
    plain (Literal.members s before) =
      (readLabel (skipBlanks s)).bind fun p =>
        readElement '\x7d' .objectSeparator (before.insert p.1)
          (fun v rest => plain (Literal.members rest (before.insert p.1 v))) p.2 := by
  rw [plain_members]
  cases hs : skipBlanks s with
  | nil => rfl
  | cons c r =>
      have hbrace : c ≠ '\x7d' := by
        rintro rfl
        rw [hs] at hskip
        exact hskip rfl
      dsimp only
      rw [if_neg hbrace, readLabel, readKey]
      cases plain (Literal.key c r) with
      | error f => rfl
      | ok p =>
          dsimp only [Except.bind]
          cases skipBlanks p.2 with
          | nil => rfl
          | cons c r =>
              dsimp only [readExpected]
              by_cases hcolon : c = ':'
              · rw [if_pos hcolon, if_pos hcolon]
                exact (readElement_eq _ _ _ _ r).symm
              · rw [if_neg hcolon, if_neg hcolon]
                rfl

/-- The items behind those that were read before. -/
theorem map_plain_items_of_item
    (hskip : (skipBlanks s).head? ≠ some ']')
    (before : List Json) :
    ((plain (Literal.items s)).map fun p => (before ++ p.1, p.2)) =
      readElement ']' .arraySeparator (fun v => before ++ [v])
        (fun v rest => (plain (Literal.items rest)).map fun p => (before ++ [v] ++ p.1, p.2))
        s := by
  have hbracket : ∀ r, skipBlanks s ≠ ']' :: r := by
    intro r hr
    rw [hr] at hskip
    exact hskip rfl
  rw [plain_items hbracket, readElement_eq]
  cases plain (Literal.value s) with
  | error f => rfl
  | ok p =>
      dsimp only
      cases skipBlanks p.2 with
      | nil => rfl
      | cons c r =>
          dsimp only
          split
          · cases plain (Literal.items r) with
            | error f => rfl
            | ok q => simp only [Except.map, List.append_assoc, List.singleton_append]
          · split <;> rfl

/-! What is left behind each of them. -/

variable {rest : List Char}

theorem skipBlanks_suffix (s : List Char) : skipBlanks s <:+ s :=
  List.dropWhile_suffix Text.isBlank

theorem suffix_of_readLabel
    {k : String}
    (h : readLabel s = .ok (k, rest)) :
    rest <:+ s := by
  obtain ⟨⟨k', r⟩, hkey, hlabel⟩ := exists_of_bind_eq_ok h
  obtain ⟨⟨u, rest'⟩, hcolon, heq⟩ := exists_of_map_eq_ok hlabel
  cases heq
  cases s with
  | nil => cases hkey
  | cons c s =>
      obtain ⟨t, hs, -⟩ := exists_of_readsKey (readsKey_iff.2 hkey)
      rw [hs]
      exact ((suffix_of_readExpected hcolon).trans (skipBlanks_suffix r)).trans
        (List.suffix_append t r)

theorem suffix_of_plain_value
    {v : Json}
    (h : plain (Literal.value s) = .ok (v, rest)) :
    rest <:+ s := by
  obtain ⟨front, t, -, -, rfl⟩ := (reads_iff.2 h).beginsWith
  exact List.suffix_append (front ++ t) rest

theorem suffix_of_readComma
    {closing : Char} {cause : Cause} {more : Bool}
    (h : readComma closing cause s = .ok (more, rest)) :
    ∃ c, c :: rest <:+ s := by
  unfold readComma at h
  have hskip := skipBlanks_suffix s
  cases hs : skipBlanks s with
  | nil => rw [hs] at h; cases h
  | cons c r =>
      rw [hs] at h hskip
      dsimp only at h
      split at h
      · cases h
        exact ⟨c, hskip⟩
      · split at h
        · cases h
          exact ⟨c, hskip⟩
        · cases h

theorem performs_key (s : List Char) : Performs limit text (key text) s (readKey s) := by
  refine (performs_peek s).bind ?_
  cases s with
  | nil => exact performs_fail _ []
  | cons c r =>
      rw [readKey, plain_key]
      dsimp only [List.head?_cons]
      by_cases hquote : c = '"' ∨ c = '\''
      · rw [if_pos hquote, if_pos hquote]
        exact performs_string (by rcases hquote with rfl | rfl <;> decide) r
      · rw [if_neg hquote, if_neg hquote]
        cases hc : startsIdentifier c with
        | true => exact (performs_identifier hc r).map String.ofList
        | false => exact (performs_identifier_none hc r).map String.ofList

theorem performs_label (s : List Char) : Performs limit text (label text) s (readLabel s) := by
  refine (performs_key s).andThen fun k r _ => ?_
  exact (performs_skipBlanks r).bind ((performs_expect ':' _).map fun _ => k)

theorem performs_comma
    (closing : Char)
    (cause : Cause)
    (s : List Char) :
    Performs limit text (comma text closing cause) s (readComma closing cause s) := by
  refine (performs_skipBlanks s).bind ?_
  unfold readComma
  cases skipBlanks s with
  | nil => exact performs_bump_nil.bind (performs_fail cause [])
  | cons c r =>
      refine (performs_bump_cons c r).bind ?_
      dsimp only
      split
      · exact performs_pure true r
      · split
        · exact performs_pure false r
        · exact performs_fail cause r

/-- A value in a list is asked for behind the place where the list began, and the round of the
loop that reads it uses up what stands in front of the next one. -/
theorem performs_element
    {β : Type}
    {r : List Char} {depth start : Nat} {closing : Char} {cause : Cause}
    {last : Json → β} {run : Json → Run β}
    {next : Json → List Char → Except Failure (β × List Char)}
    (hs : s <:+ text)
    (hr : r <:+ s)
    (hvalue : Performs limit text (value text depth (some start)) r (plain (Literal.value r)))
    (hnext : ∀ v rest, rest <:+ s → rest.length < s.length →
      Performs limit text (run v) rest (next v rest)) :
    Performs limit text
      (do
        let v ← value text depth (some start)
        if ← comma text closing cause then
          turned (placeOf text s)
          run v
        else return last v)
      r (readElement closing cause last next r) := by
  refine hvalue.andThen fun v r2 hread => ?_
  refine (performs_comma _ _ r2).andThen fun more r3 hcomma => ?_
  obtain ⟨c, hc⟩ := suffix_of_readComma hcomma
  have hcons := (hc.trans (suffix_of_plain_value hread)).trans hr
  have hrest := (List.suffix_cons c r3).trans hcons
  have hlt : r3.length < s.length := hcons.length_le
  cases more with
  | true => exact (performs_turned hs hrest hlt).bind (hnext v r3 hrest hlt)
  | false => exact performs_pure (last v) r3

mutual

/-- The reader with a cursor reads values as the reader of what is left does.  Each call of it
begins behind the place where the value around it began.  An item takes two calls, one for the
round of its list and one of its own, which is why two are left for each character. -/
theorem performs_value
    {s : List Char} {depth : Nat} {around : Option Nat}
    (hdepth : 2 * s.length < depth)
    (hs : s <:+ text)
    (haround : ∀ outer ∈ around, outer < placeOf text s) :
    Performs limit text (value text depth around) s (plain (Literal.value s)) := by
  obtain ⟨depth, rfl⟩ := Nat.exists_eq_succ_of_ne_zero (Nat.ne_zero_of_lt hdepth)
  rw [value, plain_value]
  refine (performs_place s).bind ((performs_called hs haround).bind ?_)
  refine (performs_skipBlanks s).bind ((performs_peek _).bind ?_)
  cases hskip : skipBlanks s with
  | nil => exact performs_fail _ []
  | cons c r =>
      have hlt := length_lt_of_skipBlanks hskip
      have hcons := skipBlanks_suffix s
      rw [hskip] at hcons
      have hr := (List.suffix_cons c r).trans hcons
      have hdepth' : 2 * r.length + 1 < depth := by omega
      have hstart := placeOf_lt hs hr hlt
      dsimp only [List.head?_cons]
      by_cases hbrace : c = '\x7b'
      · subst hbrace
        have hmembers := performs_members hdepth' (hr.trans hs) hstart []
        exact (performs_expect_self _ r).bind (hmembers.map Json.object)
      rw [if_neg hbrace, if_neg hbrace]
      by_cases hbracket : c = '['
      · subst hbracket
        have hitems := performs_items hdepth' (hr.trans hs) hstart []
        rw [map_append_nil] at hitems
        exact (performs_expect_self _ r).bind (hitems.map Json.array)
      rw [if_neg hbracket, if_neg hbracket]
      by_cases hquote : c = '"' ∨ c = '\''
      · rw [if_pos hquote, if_pos hquote]
        have hne : c ≠ '\\' := by rcases hquote with rfl | rfl <;> decide
        exact (performs_string hne r).map Json.string
      rw [if_neg hquote, if_neg hquote]
      by_cases hnumeral : startsNumeral c = true
      · rw [if_pos hnumeral, if_pos hnumeral]
        exact performs_number hnumeral r
      rw [if_neg hnumeral, if_neg hnumeral]
      by_cases hletter : isLetter c = true
      · rw [if_pos hletter, if_pos hletter]
        exact performs_keyword hletter r
      rw [if_neg hletter, if_neg hletter]
      exact performs_fail _ (c :: r)
termination_by depth

theorem performs_members
    {s : List Char} {depth start : Nat}
    (hdepth : 2 * s.length + 1 < depth)
    (hs : s <:+ text)
    (hstart : start < placeOf text s)
    (before : Object) :
    Performs limit text (members text depth start before) s (plain (Literal.members s before)) := by
  obtain ⟨depth, rfl⟩ := Nat.exists_eq_succ_of_ne_zero (Nat.ne_zero_of_lt hdepth)
  rw [members]
  refine (performs_place s).bind ((performs_skipBlanks s).bind ((performs_peek _).bind ?_))
  by_cases hclose : (skipBlanks s).head? = some '\x7d'
  · obtain ⟨r, hskip⟩ := List.head?_eq_some_iff.1 hclose
    rw [if_pos hclose, plain_members_of_brace hskip, hskip]
    exact (performs_bump_cons _ r).bind (performs_pure before r)
  · rw [if_neg hclose, plain_members_of_entry hclose]
    refine (performs_label _).andThen fun k r hlabel => ?_
    have hr := (suffix_of_readLabel hlabel).trans (skipBlanks_suffix s)
    have haround : ∀ outer ∈ some start, outer < placeOf text r := by
      rintro _ ⟨⟩
      exact lt_placeOf_of_suffix hs hstart hr
    have hle := hr.length_le
    refine performs_element hs hr (performs_value (by omega) (hr.trans hs) haround) ?_
    intro v rest hrest hlt
    have hlater := lt_placeOf_of_suffix hs hstart hrest
    exact performs_members (by omega) (hrest.trans hs) hlater (before.insert k v)
termination_by depth

theorem performs_items
    {s : List Char} {depth start : Nat}
    (hdepth : 2 * s.length + 1 < depth)
    (hs : s <:+ text)
    (hstart : start < placeOf text s)
    (before : List Json) :
    Performs limit text (items text depth start before) s
      ((plain (Literal.items s)).map fun p => (before ++ p.1, p.2)) := by
  obtain ⟨depth, rfl⟩ := Nat.exists_eq_succ_of_ne_zero (Nat.ne_zero_of_lt hdepth)
  rw [items]
  refine (performs_place s).bind ((performs_skipBlanks s).bind ((performs_peek _).bind ?_))
  by_cases hclose : (skipBlanks s).head? = some ']'
  · obtain ⟨r, hskip⟩ := List.head?_eq_some_iff.1 hclose
    rw [if_pos hclose, plain_items_of_bracket hskip, hskip]
    simp only [Except.map, List.append_nil]
    exact (performs_bump_cons _ r).bind (performs_pure before r)
  · rw [if_neg hclose, map_plain_items_of_item hclose, ← readElement_skipBlanks]
    have hr := skipBlanks_suffix s
    have haround : ∀ outer ∈ some start, outer < placeOf text (skipBlanks s) := by
      rintro _ ⟨⟩
      exact lt_placeOf_of_suffix hs hstart hr
    have hle := hr.length_le
    refine performs_element hs hr (performs_value (by omega) (hr.trans hs) haround) ?_
    intro v rest hrest hlt
    have hlater := lt_placeOf_of_suffix hs hstart hrest
    exact performs_items (by omega) (hrest.trans hs) hlater (before ++ [v])
termination_by depth

end

/-- A value with nothing but blanks behind it. -/
def readWhole (text : List Char) : Except Failure (Json × List Char) :=
  (plain (Literal.value text)).bind fun p =>
    match skipBlanks p.2 with
    | [] => .ok (p.1, [])
    | c :: r => .error ⟨.trailing, c :: r⟩

theorem parseChars_eq (text : List Char) :
    parseChars text = ((readWhole text).map Prod.fst).mapError (Failure.locate text) := by
  unfold parseChars readWhole
  cases Literal.value text with
  | error f => rfl
  | ok p =>
      obtain ⟨v, rest⟩ := p
      simp only [plain_ok, Except.bind]
      cases skipBlanks rest.1 <;> rfl

theorem performs_parse (text : List Char) :
    Performs limit text (parse text) text (readWhole text) := by
  intro hlimit hs
  have hnone : ∀ outer ∈ none, outer < placeOf text text := nofun
  have hvalue : Performs limit text (value text limit none) text (plain (Literal.value text)) :=
    performs_value hlimit hs hnone
  refine ((performs_limit text).bind (hvalue.andThen fun v rest hread => ?_)) hlimit hs
  have hskip := (skipBlanks_suffix rest).trans (suffix_of_plain_value hread)
  refine (performs_skipBlanks rest).bind ((performs_place _).bind ?_)
  dsimp only
  cases hs : skipBlanks rest with
  | nil =>
      rw [placeOf_nil, if_neg (Nat.lt_irrefl _)]
      exact performs_pure v []
  | cons c r =>
      rw [hs] at hskip
      have hlt := placeOf_lt hskip List.nil_suffix (Nat.succ_pos r.length)
      rw [placeOf_nil] at hlt
      rw [if_pos hlt]
      exact performs_fail _ (c :: r)

/-- **A reader with a cursor comes to an end on every text, with the value or the error that the
text has.**  A limit that grows with the length of the text is large enough, and what goes beyond
it changes nothing.  The reader never cuts the text outside its ends or within a character.  The
cursor is set only to sizes in bytes of beginnings of the text.  A round of a loop that goes on to
another one uses up a character at least, and each value is asked for behind the place where the
value around it began.  The offset of an error is the size in bytes of a beginning of the text,
too. -/
theorem parse_inBounds
    (text : String)
    (spare : Nat) :
    ∃ record,
      outcome (parse text.toList) (2 * text.length + 1 + spare) [] =
        some ((Literal.parse text).mapError .fault, record) ∧
      (∀ event ∈ record, event.Sound text.toList) ∧
      (∀ place, .moved place ∈ record → place ≤ text.utf8ByteSize) ∧
      ∀ error, Literal.parse text = .error error → Boundary text.toList error.offset := by
  have hlimit : 2 * text.toList.length < 2 * text.length + 1 + spare := by
    rw [String.length_toList]
    omega
  obtain ⟨hstop, hrun⟩ := performs_parse text.toList hlimit (List.suffix_refl _)
  obtain ⟨events, hevents, hout, -⟩ := hrun [] (placeOf_self _).symm
  rw [List.append_nil] at hout
  refine ⟨events, ?_, hevents, ?_, ?_⟩
  · rw [hout, Literal.parse, parseChars_eq]
    cases readWhole text.toList <;> rfl
  · intro place hmoved
    have hle := (hevents _ hmoved : Boundary text.toList place).le_byteSize
    rwa [byteSize_eq_utf8ByteSize, String.ofList_toList] at hle
  · intro error herror
    rw [Literal.parse, parseChars_eq] at herror
    cases hread : readWhole text.toList with
    | error f =>
        rw [hread] at herror hstop
        cases herror
        exact boundary_placeOf hstop
    | ok p => rw [hread] at herror; cases herror

example : outcome (parse "'é'".toList) 7 [] = some (.ok (.string "é"),
    [.moved 4, .turned 1 3, .moved 3, .moved 1, .called none 0]) := by
  cbv

end Values

end Cursor
end Literal
end Warrant
