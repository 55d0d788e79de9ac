import Warrant.Proofs.Json.StringText
import Warrant.Proofs.Literal.Reading
import Warrant.Proofs.Number.Layout

/-!
# Written literals read back

The written form of a value is read as that value, whatever follows it, so long as what follows
does not go on with a character that could belong to a numeral or a word.  An object is read by
inserting its entries one after the other, and so must not hold a key twice.

Literals and strict data texts are written alike but for the keys, which stand bare in the one
form and between quotes in the other.  Either form of a key is read up to the colon behind it, and
nothing more needs to be known of it.

**Results.**
* `characters_escaped`: the characters between quotes are read back.
* `keysReadBack_keyText`, `keysReadBack_stringText`: so are keys, whether bare or quoted.
* `reads_spell`: a written value is read from the front of a text.
* `parseChars_write`: the written form of a value denotes it.
* `parse_format_and_print`: so does its strict text.
-/

namespace Warrant

namespace Literal

open Text (Stops)

/-! Characters that begin a value or a key are not blank. -/

theorem isBlank_of_isDigit
    {c : Char} (hc : Decimal.isDigit c = true) :
    Text.isBlank c = false := by
  simp only [Decimal.isDigit, Bool.and_eq_true, decide_eq_true_eq] at hc
  have hlow : '0'.toNat ≤ c.toNat := hc.1
  have hhigh : c.toNat ≤ '9'.toNat := hc.2
  exact Text.isBlank_eq_false (Nat.le_trans (by decide) hlow) (Nat.le_trans hhigh (by decide))

theorem isBlank_of_startsIdentifier
    {c : Char} (hc : startsIdentifier c = true) :
    Text.isBlank c = false := by
  simp only [startsIdentifier, isLetter, Bool.or_eq_true, Bool.and_eq_true, decide_eq_true_eq,
    beq_iff_eq] at hc
  rcases hc with ((⟨hlow, hhigh⟩ | ⟨hlow, hhigh⟩) | rfl) | rfl
  · have hlow' : 'a'.toNat ≤ c.toNat := hlow
    have hhigh' : c.toNat ≤ 'z'.toNat := hhigh
    exact Text.isBlank_eq_false (Nat.le_trans (by decide) hlow') (Nat.le_trans hhigh' (by decide))
  · have hlow' : 'A'.toNat ≤ c.toNat := hlow
    have hhigh' : c.toNat ≤ 'Z'.toNat := hhigh
    exact Text.isBlank_eq_false (Nat.le_trans (by decide) hlow') (Nat.le_trans hhigh' (by decide))
  · rfl
  · rfl

theorem isBlank_of_inNumeral
    {c : Char} (hc : inNumeral c = true) :
    Text.isBlank c = false := by
  simp only [inNumeral, startsNumeral, Bool.or_eq_true, beq_iff_eq] at hc
  rcases hc with ((((hdigit | rfl) | rfl) | rfl) | rfl) | rfl
  · exact isBlank_of_isDigit hdigit
  all_goals rfl

theorem skipBlanks_cons
    {c : Char} (hc : Text.isBlank c = false)
    (s : List Char) :
    skipBlanks (c :: s) = c :: s :=
  Text.dropWhile_of_stops (Text.stops_cons hc s)

/-! Strings between quotes. -/

section Characters

variable {quote c : Char}

theorem characters_of_quote
    (hquote : quote ≠ '\\')
    (s : List Char) :
    characters quote (quote :: s) = .ok ([], s) := by
  rw [characters]
  · rw [if_pos rfl]
  · exact fun h _ => hquote h
  · exact fun _ _ _ _ _ h _ => hquote h
  · exact fun _ _ h _ => hquote h

theorem characters_of_plain
    (hquote : c ≠ quote)
    (hslash : c ≠ '\\')
    (s : List Char) :
    characters quote (c :: s) = consRead c (characters quote s) := by
  rw [characters]
  · rw [if_neg hquote]
  · exact fun h _ => hslash h
  · exact fun _ _ _ _ _ h _ => hslash h
  · exact fun _ _ h _ => hslash h

theorem characters_of_escape
    (hu : c ≠ 'u')
    (s : List Char) :
    characters quote ('\\' :: c :: s) = consRead (unescape c) (characters quote s) := by
  rw [characters]
  · rw [if_neg hu]
  · rintro _ _ _ _ _ rfl
    exact absurd rfl hu

theorem characters_of_codePoint
    {a1 a2 a3 a4 : Char} {n : Nat}
    (hnumber : escapeNumber? a1 a2 a3 a4 = some n)
    (hchar : charOf? n = some c)
    (s : List Char) :
    characters quote ('\\' :: 'u' :: a1 :: a2 :: a3 :: a4 :: s) =
      consRead c (characters quote s) := by
  rw [characters]
  simp only [hnumber, hchar]

theorem characters_of_control
    (hc : c.toNat < 32)
    (s : List Char) :
    characters quote (['\\', 'u', '0', '0'] ++ Json.hexPair c.toNat ++ s) =
      consRead c (characters quote s) := by
  have hvalid : c.toNat.isValidChar := c.valid
  have hchar : charOf? c.toNat = some c := by
    rw [charOf?, if_pos hvalid, Char.ofNat_toNat]
  have hnumber : escapeNumber? '0' '0' (Nat.digitChar (c.toNat / 16))
      (Nat.digitChar (c.toNat % 16)) = some c.toNat := by
    rw [escapeNumber?, if_neg (by decide)]
    exact Json.hexNumber?_hexPair c.toNat hc
  exact characters_of_codePoint hnumber hchar s

end Characters

/-- What strict data texts escape with a letter, literals do too. -/
theorem unescape_of_simpleEscape?
    {c d : Char}
    (h : Json.Reader.simpleEscape? d = some c) :
    unescape d = c := by
  unfold Json.Reader.simpleEscape? at h
  split at h
  all_goals cases h
  all_goals rfl

/-- An escaped character is read as that character. -/
theorem characters_escapeChar
    (c : Char)
    (s : List Char) :
    characters '"' (Json.escapeChar c ++ s) = consRead c (characters '"' s) := by
  rcases Json.escapeChar_cases c with ⟨d, hu, hd, heq⟩ | ⟨hlow, heq⟩ | ⟨hquote, hslash, -, heq⟩
  · rw [heq, ← unescape_of_simpleEscape? hd]
    exact characters_of_escape hu s
  · rw [heq]
    exact characters_of_control hlow s
  · rw [heq]
    exact characters_of_plain hquote hslash s

theorem characters_escaped
    (cs rest : List Char) :
    characters '"' (cs.flatMap Json.escapeChar ++ '"' :: rest) = .ok (cs, rest) := by
  induction cs with
  | nil =>
      rw [List.flatMap_nil, List.nil_append]
      exact characters_of_quote (by decide) rest
  | cons c cs ih =>
      rw [List.flatMap_cons, List.append_assoc, characters_escapeChar, ih]
      rfl

/-! Keys. -/

/-- A key is read from its form up to the colon behind it, and is mistaken for nothing else. -/
def KeysReadBack (spellKey : String → List Char) : Prop :=
  ∀ k s, ∃ c r, spellKey k ++ ':' :: s = c :: r ∧ Text.isBlank c = false ∧ c ≠ '}' ∧
    ReadsKey (c :: r) k (':' :: s)

theorem keysReadBack_stringText : KeysReadBack Json.stringText := by
  intro k s
  have hchars := characters_escaped k.toList (':' :: s)
  have hread := ReadsKey.quoted (Or.inl rfl) hchars
  rw [String.ofList_toList] at hread
  refine ⟨'"', _, ?_, rfl, by decide, hread⟩
  rw [Json.stringText, List.cons_append, List.cons_append, List.append_assoc]
  rfl

/-- An identifier is read as a key up to what ends it, and is mistaken for nothing else. -/
theorem readsKey_of_isIdentifier
    {word rest : List Char}
    (hword : isIdentifier word = true)
    (hrest : Stops inIdentifier rest) :
    ∃ c r, word ++ rest = c :: r ∧ Text.isBlank c = false ∧ c ≠ '}' ∧
      ReadsKey (c :: r) (String.ofList word) rest := by
  cases word with
  | nil => cases hword
  | cons c r =>
      rw [isIdentifier, Bool.and_eq_true, List.all_eq_true] at hword
      have hread := ReadsKey.bare (c := c) (r := r ++ rest) hword.1
      rw [Text.takeWhile_run hword.2 hrest, Text.dropWhile_run hword.2 hrest] at hread
      refine ⟨c, r ++ rest, rfl, isBlank_of_startsIdentifier hword.1, ?_, hread⟩
      rintro rfl
      cases hword.1

theorem keysReadBack_keyText : KeysReadBack keyText := by
  intro k s
  unfold keyText
  split
  next hk =>
    have hcolon : Stops inIdentifier (':' :: s) := Text.stops_cons rfl s
    have hread := readsKey_of_isIdentifier hk hcolon
    rwa [String.ofList_toList] at hread
  next => exact keysReadBack_stringText k s

/-! Values. -/

/-- The text does not go on with a character of a numeral or a word. -/
structure Ends (s : List Char) : Prop where
  numeral : Stops inNumeral s
  word : Stops inIdentifier s

theorem ends_nil : Ends [] :=
  ⟨Text.stops_nil, Text.stops_nil⟩

theorem ends_cons
    {c : Char}
    (hnumeral : inNumeral c = false)
    (hword : inIdentifier c = false)
    (s : List Char) :
    Ends (c :: s) :=
  ⟨Text.stops_cons hnumeral s, Text.stops_cons hword s⟩

section Spelling

variable (spellKey : String → List Char)

mutual

/-- The written form of a value whose keys stand in a given form. -/
def spell : Json → List Char
  | .null => ['n', 'u', 'l', 'l']
  | .bool true => ['t', 'r', 'u', 'e']
  | .bool false => ['f', 'a', 'l', 's', 'e']
  | .number n => n.text
  | .string s => Json.stringText s
  | .array [] => ['[', ']']
  | .array (v :: rest) => '[' :: spell v ++ spellItems rest ++ [']']
  | .object [] => ['{', '}']
  | .object ((k, v) :: rest) =>
      '{' :: spellKey k ++ ':' :: spell v ++ spellEntries rest ++ ['}']

/-- The items after the first, each behind a comma. -/
def spellItems : List Json → List Char
  | [] => []
  | v :: rest => ',' :: spell v ++ spellItems rest

/-- The entries after the first, each behind a comma. -/
def spellEntries : List (String × Json) → List Char
  | [] => []
  | (k, v) :: rest => ',' :: spellKey k ++ ':' :: spell v ++ spellEntries rest

end

theorem exists_spell_eq_cons (v : Json) :
    ∃ c r, spell spellKey v = c :: r ∧ Text.isBlank c = false ∧ c ≠ ']' := by
  match v with
  | .null => exact ⟨'n', _, by rw [spell], rfl, by decide⟩
  | .bool true => exact ⟨'t', _, by rw [spell], rfl, by decide⟩
  | .bool false => exact ⟨'f', _, by rw [spell], rfl, by decide⟩
  | .number n =>
      obtain ⟨c, r, htext, hc⟩ := n.exists_text_eq_cons
      refine ⟨c, r, by rw [spell, htext], ?_, ?_⟩
      · rcases hc with rfl | hc
        · rfl
        · exact isBlank_of_isDigit hc
      · rintro rfl
        rcases hc with hc | hc
        · cases hc
        · cases hc
  | .string s => exact ⟨'"', _, by rw [spell]; rfl, rfl, by decide⟩
  | .array [] => exact ⟨'[', _, by rw [spell], rfl, by decide⟩
  | .array (v :: rest) => exact ⟨'[', _, by rw [spell]; rfl, rfl, by decide⟩
  | .object [] => exact ⟨'\x7b', _, by rw [spell], rfl, by decide⟩
  | .object ((k, v) :: rest) => exact ⟨'\x7b', _, by rw [spell]; rfl, rfl, by decide⟩

theorem skipBlanks_spell
    (v : Json)
    (s : List Char) :
    skipBlanks (spell spellKey v ++ s) = spell spellKey v ++ s := by
  obtain ⟨c, r, hcons, hc, -⟩ := exists_spell_eq_cons spellKey v
  rw [hcons]
  exact skipBlanks_cons hc (r ++ s)

theorem skipBlanks_spell_ne_bracket
    (v : Json)
    (s r : List Char) :
    skipBlanks (spell spellKey v ++ s) ≠ ']' :: r := by
  intro hs
  obtain ⟨c, t, hcons, -, hc⟩ := exists_spell_eq_cons spellKey v
  rw [skipBlanks_spell, hcons] at hs
  cases hs
  exact hc rfl

end Spelling

mutual

theorem write_eq_spell : ∀ v, write v = spell keyText v
  | .null => by rw [write, spell]
  | .bool true => by rw [write, spell]
  | .bool false => by rw [write, spell]
  | .number n => by rw [write, spell]
  | .string s => by rw [write, spell]
  | .array [] => by rw [write, spell]
  | .array (v :: rest) => by rw [write, spell, write_eq_spell v, writeItems_eq_spell rest]
  | .object [] => by rw [write, spell]
  | .object ((k, v) :: rest) => by rw [write, spell, write_eq_spell v, writeEntries_eq_spell rest]

theorem writeItems_eq_spell : ∀ vs, writeItems vs = spellItems keyText vs
  | [] => rfl
  | v :: rest => by rw [writeItems, spellItems, write_eq_spell v, writeItems_eq_spell rest]

theorem writeEntries_eq_spell : ∀ entries, writeEntries entries = spellEntries keyText entries
  | [] => rfl
  | (k, v) :: rest => by
      rw [writeEntries, spellEntries, write_eq_spell v, writeEntries_eq_spell rest]

end

mutual

theorem text_eq_spell : ∀ v : Json, v.text = spell Json.stringText v
  | .null => by rw [Json.text, spell]
  | .bool true => by rw [Json.text, spell]
  | .bool false => by rw [Json.text, spell]
  | .number n => by rw [Json.text, spell]
  | .string s => by rw [Json.text, spell]
  | .array [] => by rw [Json.text, spell]
  | .array (v :: rest) => by rw [Json.text, spell, text_eq_spell v, itemsText_eq_spell rest]
  | .object [] => by rw [Json.text, spell]
  | .object ((k, v) :: rest) => by
      rw [Json.text, spell, text_eq_spell v, entriesText_eq_spell rest]

theorem itemsText_eq_spell : ∀ vs, Json.itemsText vs = spellItems Json.stringText vs
  | [] => rfl
  | v :: rest => by rw [Json.itemsText, spellItems, text_eq_spell v, itemsText_eq_spell rest]

theorem entriesText_eq_spell :
    ∀ entries, Json.entriesText entries = spellEntries Json.stringText entries
  | [] => rfl
  | (k, v) :: rest => by
      rw [Json.entriesText, spellEntries, text_eq_spell v, entriesText_eq_spell rest]

end

theorem reads_word
    {c : Char} {word rest : List Char} {v : Json}
    (hc : isLetter c = true)
    (hword : word.all inIdentifier = true)
    (hv : wordValue? (c :: word) = some v)
    (hrest : Ends rest) :
    Reads (c :: word ++ rest) v rest := by
  have hstart : startsIdentifier c = true := by simp [startsIdentifier, hc]
  have hskip := skipBlanks_cons (isBlank_of_startsIdentifier hstart) (word ++ rest)
  have htake := Text.takeWhile_run (List.all_eq_true.1 hword) hrest.word
  have hdrop := Text.dropWhile_run (List.all_eq_true.1 hword) hrest.word
  have hread := Reads.word hskip hc (by rw [htake]; exact hv)
  rwa [hdrop] at hread

theorem reads_numeral
    {c : Char} {r rest : List Char} {n : Number}
    (hc : startsNumeral c = true)
    (hr : ∀ d ∈ r, inNumeral d = true)
    (hn : numberOf? (withoutPlus (c :: r)) = some n)
    (hrest : Ends rest) :
    Reads (c :: r ++ rest) (.number n) rest := by
  have hblank : Text.isBlank c = false := isBlank_of_inNumeral (by rw [inNumeral, hc]; rfl)
  have htake := Text.takeWhile_run hr hrest.numeral
  have hdrop := Text.dropWhile_run hr hrest.numeral
  have hread := Reads.number (skipBlanks_cons hblank (r ++ rest)) hc (by rw [htake]; exact hn)
  rwa [hdrop] at hread

theorem reads_number
    {rest : List Char}
    (n : Number)
    (hrest : Ends rest) :
    Reads (n.text ++ rest) (.number n) rest := by
  obtain ⟨c, r, htext, hc⟩ := n.exists_text_eq_cons
  have hchars : ∀ d ∈ r, inNumeral d = true := by
    intro d hd
    apply n.inNumeral_of_mem_text
    rw [htext]
    exact List.mem_cons_of_mem c hd
  have hstart : startsNumeral c = true := by
    rcases hc with rfl | hc
    · rfl
    · simp [startsNumeral, hc]
  have hplus : (c == '+') = false := by
    rw [beq_eq_false_iff_ne]
    rintro rfl
    rcases hc with hc | hc
    · cases hc
    · cases hc
  have hnumber : numberOf? (withoutPlus (c :: r)) = some n := by
    rw [withoutPlus, List.dropWhile_cons, hplus]
    rw [← n.numberOf?_text, htext]
    rfl
  rw [htext]
  exact reads_numeral hstart hchars hnumber hrest

theorem reads_string
    (s : String)
    (rest : List Char) :
    Reads (Json.stringText s ++ rest) (.string s) rest := by
  have hchars := characters_escaped s.toList rest
  have hread := Reads.string (skipBlanks_cons rfl _) (Or.inl rfl) hchars
  rw [String.ofList_toList] at hread
  rw [Json.stringText, List.cons_append, List.cons_append, List.append_assoc]
  exact hread

section ReadingBack

variable {spellKey : String → List Char}

/-- The value is read back from its written form, whatever ends it. -/
def ReadsBack (spellKey : String → List Char) (v : Json) : Prop :=
  ∀ rest, Ends rest → Reads (spell spellKey v ++ rest) v rest

/-- Written items are read up to the bracket behind them. -/
theorem readsItems_spell
    {v : Json} {vs : List Json}
    (h : ∀ w ∈ v :: vs, ReadsBack spellKey w)
    (rest : List Char) :
    ReadsItems (spell spellKey v ++ (spellItems spellKey vs ++ ']' :: rest)) (v :: vs) rest := by
  have hv := h v List.mem_cons_self
  have hbracket := skipBlanks_spell_ne_bracket spellKey v
  induction vs generalizing v with
  | nil =>
      rw [spellItems, List.nil_append]
      have hread := hv (']' :: rest) (ends_cons rfl rfl rest)
      exact ReadsItems.last (hbracket _) hread (skipBlanks_cons rfl rest)
  | cons w ws ih =>
      have htail : ∀ u ∈ w :: ws, ReadsBack spellKey u :=
        fun u hu => h u (List.mem_cons_of_mem v hu)
      have hread := hv (',' :: (spell spellKey w ++ (spellItems spellKey ws ++ ']' :: rest)))
        (ends_cons rfl rfl _)
      have hmore := ih htail (htail w List.mem_cons_self) (skipBlanks_spell_ne_bracket spellKey w)
      rw [spellItems, List.cons_append, List.cons_append, List.append_assoc]
      exact ReadsItems.more (hbracket _) hread (skipBlanks_cons rfl _) hmore

variable (hspell : KeysReadBack spellKey)
include hspell

/-- Written entries are read up to the brace behind them, after entries with other keys. -/
theorem readsMembers_spell
    {k : String} {v : Json} {entries before : Object}
    (h : ∀ e ∈ (k, v) :: entries, ReadsBack spellKey e.2)
    (hkeys : (Object.keys (before ++ (k, v) :: entries)).Nodup)
    (rest : List Char) :
    ReadsMembers
      (spellKey k ++ ':' :: (spell spellKey v ++ (spellEntries spellKey entries ++ '}' :: rest)))
      before (before ++ (k, v) :: entries) rest := by
  induction entries generalizing k v before with
  | nil =>
      have hnew := Object.not_mem_keys_of_nodup hkeys
      have hread := h (k, v) List.mem_cons_self ('}' :: rest) (ends_cons rfl rfl rest)
      obtain ⟨c, r, hcons, hblank, hbrace, hkey⟩ := hspell k (spell spellKey v ++ '}' :: rest)
      rw [spellEntries, List.nil_append, hcons, ← Object.insert_of_not_mem hnew v]
      exact ReadsMembers.last (skipBlanks_cons hblank r) hbrace hkey (skipBlanks_cons rfl _) hread
        (skipBlanks_cons rfl rest)
  | cons e entries ih =>
      obtain ⟨k', v'⟩ := e
      have hnew := Object.not_mem_keys_of_nodup hkeys
      -- the other entries are read after an object that ends with this one
      have hsplit : before ++ (k, v) :: (k', v') :: entries =
          before.insert k v ++ (k', v') :: entries := by
        rw [Object.insert_of_not_mem hnew v, List.append_assoc]
        rfl
      rw [hsplit] at hkeys ⊢
      have hmore := ih (fun e he => h e (List.mem_cons_of_mem _ he)) hkeys
      have hread := h (k, v) List.mem_cons_self _ (ends_cons (c := ',') rfl rfl
        (spellKey k' ++ ':' ::
          (spell spellKey v' ++ (spellEntries spellKey entries ++ '}' :: rest))))
      obtain ⟨c, r, hcons, hblank, hbrace, hkey⟩ := hspell k (spell spellKey v ++ ',' ::
        (spellKey k' ++ ':' ::
          (spell spellKey v' ++ (spellEntries spellKey entries ++ '}' :: rest))))
      have htext : spellEntries spellKey ((k', v') :: entries) ++ '}' :: rest =
          ',' :: (spellKey k' ++ ':' ::
            (spell spellKey v' ++ (spellEntries spellKey entries ++ '}' :: rest))) := by
        rw [spellEntries]
        simp only [List.cons_append, List.append_assoc]
      rw [htext, hcons]
      exact ReadsMembers.more (skipBlanks_cons hblank r) hbrace hkey (skipBlanks_cons rfl _) hread
        (skipBlanks_cons rfl _) hmore

/-- A value whose objects hold no key twice is read back from its written form. -/
theorem reads_spell (v : Json) (hv : v.KeysDistinct) : ReadsBack spellKey v := by
  induction v using Json.induction with
  | null =>
      intro rest hrest
      rw [spell]
      exact reads_word rfl rfl rfl hrest
  | bool b =>
      intro rest hrest
      cases b with
      | true =>
          rw [spell]
          exact reads_word rfl rfl rfl hrest
      | false =>
          rw [spell]
          exact reads_word rfl rfl rfl hrest
  | number n =>
      intro rest hrest
      rw [spell]
      exact reads_number n hrest
  | string s =>
      intro rest _
      rw [spell]
      exact reads_string s rest
  | array items ih =>
      intro rest _
      have hitems : ∀ w ∈ items, ReadsBack spellKey w :=
        fun w hw => ih w hw (Json.keysDistinct_array_iff.1 hv w hw)
      cases items with
      | nil =>
          rw [spell]
          exact Reads.array (skipBlanks_cons rfl _) (ReadsItems.done (skipBlanks_cons rfl rest))
      | cons w ws =>
          have hread := readsItems_spell hitems rest
          rw [spell]
          simp only [List.cons_append, List.append_assoc, List.nil_append]
          exact Reads.array (skipBlanks_cons rfl _) hread
  | object entries ih =>
      intro rest _
      obtain ⟨hkeys, hvalues⟩ := Json.keysDistinct_object_iff.1 hv
      have hentries : ∀ e ∈ entries, ReadsBack spellKey e.2 :=
        fun e he => ih e he (hvalues e he)
      cases entries with
      | nil =>
          rw [spell]
          exact Reads.object (skipBlanks_cons rfl _) (ReadsMembers.done (skipBlanks_cons rfl rest))
      | cons e entries =>
          obtain ⟨k, w⟩ := e
          have hread : ReadsMembers _ [] _ rest := readsMembers_spell hspell hentries hkeys rest
          rw [spell]
          simp only [List.cons_append, List.append_assoc, List.nil_append]
          exact Reads.object (skipBlanks_cons rfl _) hread

theorem parseChars_spell
    {v : Json}
    (hv : v.KeysDistinct) :
    parseChars (spell spellKey v) = .ok v := by
  have hread := reads_spell hspell v hv [] ends_nil
  rw [List.append_nil] at hread
  exact parseChars_eq_ok_iff.2 ⟨[], hread, rfl⟩

end ReadingBack

/-- The written form of a value denotes it. -/
theorem parseChars_write
    {v : Json}
    (hv : v.KeysDistinct) :
    parseChars (write v) = .ok v := by
  rw [write_eq_spell]
  exact parseChars_spell keysReadBack_keyText hv

/-- **A value whose objects hold no key twice is read back from its literal as well as from its
strict text**, with its keys in order, its integers exact and its floats as floats. -/
theorem parse_format_and_print
    {v : Json}
    (hv : v.KeysDistinct) :
    parse (format v) = .ok v ∧ parse v.print = .ok v := by
  constructor
  · rw [parse, format, String.toList_ofList]
    exact parseChars_write hv
  · rw [parse, Json.print, String.toList_ofList, text_eq_spell]
    exact parseChars_spell keysReadBack_stringText hv

/-- A value with keys of both forms, escapes of every sort, and numbers at the borders between
their sorts. -/
def borderValue : Json :=
  .object [
    ("$in", .array [
      .number (.integer ⟨18446744073709551615, by decide, by decide⟩),
      .number (.integer ⟨-9223372036854775808, by decide, by decide⟩),
      .number (.float (Binary64.zero true))]),
    ("größe cm", .object [("", .string "\t\"\\ é \x01 𝄞"), ("true", .null)])]

theorem parse_format_borderValue :
    borderValue.KeysDistinct ∧ parse (format borderValue) = .ok borderValue ∧
      parse borderValue.print = .ok borderValue := by
  have hkeys : borderValue.KeysDistinct := by
    simp [borderValue, Json.KeysDistinct, Json.ItemsDistinct, Json.EntriesDistinct, Object.keys]
  exact ⟨hkeys, parse_format_and_print hkeys⟩

end Literal
end Warrant
