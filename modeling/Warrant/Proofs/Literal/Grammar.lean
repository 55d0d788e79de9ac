import Warrant.Proofs.Literal.Tokens

/-!
# The grammar of object literals

Which texts are literals, and what they denote.  The grammar says how a text is put together from
the texts of its parts; it knows of no order of reading and of no rest.  Blanks may stand between
any two tokens.  A comma may follow the last item or entry, but none stands alone.  The entries of
an object are inserted one after the other, so that of two with the same key the later value
stands in the place of the earlier one.

The grammar need not say how far a token goes on.  Behind a value stand blanks, a comma, a closing
bracket or brace, or nothing, and none of these can belong to a numeral or a word: whatever is put
together by the grammar is taken apart at the same places by the reader.

**Results.**
* `Reads.beginsWith`: what is read from the front of a text is a literal there.
* `Denotes.reads`: a literal is read from the front of a text, up to what ends it.
* `parse_eq_ok_iff_denotes`: the texts that read are the literals with blanks around them.
-/

namespace Warrant
namespace Literal

open Text (Stops isAllBlank)

/-- A text with blanks around it. -/
inductive Padded (s : List Char) : List Char → Prop
  | intro {front back : List Char} :
      isAllBlank front = true →
      isAllBlank back = true →
      Padded s (front ++ s ++ back)

/-- What may stand behind the last item or entry: nothing, or a comma with blanks behind it. -/
inductive Trailing : List Char → Prop
  | nothing : Trailing []
  | comma {blanks : List Char} :
      isAllBlank blanks = true →
      Trailing (',' :: blanks)

/-- What may stand between two brackets: blanks only, or a list with what may stand behind it. -/
inductive Inside {α : Type} (IsList : List Char → List α → Prop) : List Char → List α → Prop
  | empty {blanks : List Char} :
      isAllBlank blanks = true →
      Inside IsList blanks []
  | full {t trailing : List Char} {xs : List α} :
      IsList t xs →
      Trailing trailing →
      Inside IsList (t ++ trailing) xs

mutual

/-- A text is a literal that denotes a value. -/
inductive Denotes : List Char → Json → Prop
  | null : Denotes ['n', 'u', 'l', 'l'] .null
  | true : Denotes ['t', 'r', 'u', 'e'] (.bool true)
  | false : Denotes ['f', 'a', 'l', 's', 'e'] (.bool false)
  | number {t : List Char} {n : Number} :
      Numeral t n →
      Denotes t (.number n)
  | string {t : List Char} {s : String} :
      Quoted t s →
      Denotes t (.string s)
  | array {t : List Char} {vs : List Json} :
      Inside DenotesItems t vs →
      Denotes ('[' :: t ++ [']']) (.array vs)
  | object {t : List Char} {entries : List (String × Json)} :
      Inside DenotesEntries t entries →
      Denotes ('\x7b' :: t ++ ['\x7d']) (.object (Object.ofEntries entries))

/-- A text is a list of literals between commas. -/
inductive DenotesItems : List Char → List Json → Prop
  | one {s t : List Char} {v : Json} :
      Denotes s v →
      Padded s t →
      DenotesItems t [v]
  | more {s t u : List Char} {v : Json} {vs : List Json} :
      Denotes s v →
      Padded s t →
      DenotesItems u vs →
      DenotesItems (t ++ ',' :: u) (v :: vs)

/-- A text is a list of keys with literals behind colons, between commas. -/
inductive DenotesEntries : List Char → List (String × Json) → Prop
  | one {key s t u : List Char} {k : String} {v : Json} :
      Key key k →
      Padded key t →
      Denotes s v →
      Padded s u →
      DenotesEntries (t ++ ':' :: u) [(k, v)]
  | more {key s t u w : List Char} {k : String} {v : Json} {entries : List (String × Json)} :
      Key key k →
      Padded key t →
      Denotes s v →
      Padded s u →
      DenotesEntries w entries →
      DenotesEntries (t ++ ':' :: u ++ ',' :: w) ((k, v) :: entries)

end

/-! Blanks. -/

section Blanks

variable {s r blanks : List Char}

theorem skipBlanks_append
    (h : isAllBlank blanks = true)
    (s : List Char) :
    skipBlanks (blanks ++ s) = skipBlanks s :=
  List.dropWhile_append_of_pos (List.all_eq_true.1 h)

theorem skipBlanks_append_cons
    {c : Char}
    (h : isAllBlank blanks = true)
    (hc : Text.isBlank c = false)
    (r : List Char) :
    skipBlanks (blanks ++ c :: r) = c :: r := by
  rw [skipBlanks_append h, skipBlanks_cons hc]

/-- The blanks that are skipped in front of a text. -/
theorem exists_of_skipBlanks
    (h : skipBlanks s = r) :
    ∃ blanks, isAllBlank blanks = true ∧ s = blanks ++ r := by
  refine ⟨s.takeWhile Text.isBlank, ?_, ?_⟩
  · rw [isAllBlank, List.all_eq_true]
    exact fun d hd => List.mem_takeWhile_imp hd
  · rw [← h]
    exact List.takeWhile_append_dropWhile.symm

end Blanks

/-! What is read is a literal. -/

theorem denotes_of_wordValue?
    {word : List Char} {v : Json}
    (h : wordValue? word = some v) :
    Denotes word v := by
  unfold wordValue? at h
  split_ifs at h with htrue hfalse hnull
  · cases h
    rw [htrue]
    exact Denotes.true
  · cases h
    rw [hfalse]
    exact Denotes.false
  · cases h
    rw [hnull]
    exact Denotes.null

theorem Inside.cons_item
    {s t u : List Char} {v : Json} {vs : List Json}
    (hv : Denotes s v)
    (ht : Padded s t)
    (h : Inside DenotesItems u vs) :
    Inside DenotesItems (t ++ ',' :: u) (v :: vs) := by
  cases h with
  | empty hblanks => exact Inside.full (DenotesItems.one hv ht) (Trailing.comma hblanks)
  | full hitems htrailing =>
      have hfull := Inside.full (DenotesItems.more hv ht hitems) htrailing
      rwa [List.append_assoc, List.cons_append] at hfull

theorem Inside.cons_entry
    {key s t u w : List Char} {k : String} {v : Json} {entries : List (String × Json)}
    (hk : Key key k)
    (ht : Padded key t)
    (hv : Denotes s v)
    (hu : Padded s u)
    (h : Inside DenotesEntries w entries) :
    Inside DenotesEntries (t ++ ':' :: u ++ ',' :: w) ((k, v) :: entries) := by
  cases h with
  | empty hblanks => exact Inside.full (DenotesEntries.one hk ht hv hu) (Trailing.comma hblanks)
  | full hentries htrailing =>
      have hfull := Inside.full (DenotesEntries.more hk ht hv hu hentries) htrailing
      rwa [List.append_assoc _ (',' :: _), List.cons_append] at hfull

/-- The text is a literal with blanks in front of it, and the rest. -/
def BeginsWith (s : List Char) (v : Json) (rest : List Char) : Prop :=
  ∃ front t, isAllBlank front = true ∧ Denotes t v ∧ s = front ++ t ++ rest

section Parts

variable {s r r1 r2 : List Char} {v : Json}

theorem BeginsWith.exists_padded
    (h : BeginsWith s v r1)
    (hr : skipBlanks r1 = r2) :
    ∃ t u, Denotes t v ∧ Padded t u ∧ s = u ++ r2 := by
  obtain ⟨front, t, hfront, ht, rfl⟩ := h
  obtain ⟨back, hback, rfl⟩ := exists_of_skipBlanks hr
  exact ⟨t, _, ht, Padded.intro hfront hback, by simp only [List.append_assoc]⟩

theorem exists_padded_key
    {k : String}
    (hs : skipBlanks s = r)
    (hk : ReadsKey r k r1)
    (hr : skipBlanks r1 = r2) :
    ∃ key t, Key key k ∧ Padded key t ∧ s = t ++ r2 := by
  obtain ⟨front, hfront, rfl⟩ := exists_of_skipBlanks hs
  obtain ⟨key, rfl, hkey⟩ := exists_of_readsKey hk
  obtain ⟨back, hback, rfl⟩ := exists_of_skipBlanks hr
  exact ⟨key, _, hkey, Padded.intro hfront hback, by simp only [List.append_assoc]⟩

end Parts

mutual

/-- What is read from the front of a text is a literal there. -/
theorem Reads.beginsWith :
    ∀ {s rest : List Char} {v : Json}, Reads s v rest → BeginsWith s v rest
  | _, _, _, .object hs h => by
      obtain ⟨front, hfront, rfl⟩ := exists_of_skipBlanks hs
      obtain ⟨t, entries, hinside, rfl, rfl⟩ := h.exists_inside
      exact ⟨front, _, hfront, Denotes.object hinside, by simp⟩
  | _, _, _, .array hs h => by
      obtain ⟨front, hfront, rfl⟩ := exists_of_skipBlanks hs
      obtain ⟨t, hinside, rfl⟩ := h.exists_inside
      exact ⟨front, _, hfront, Denotes.array hinside, by simp⟩
  | _, _, _, .string hs hquote h => by
      obtain ⟨front, hfront, rfl⟩ := exists_of_skipBlanks hs
      obtain ⟨t, rfl, hspelled⟩ := (characters_eq_ok_iff hquote).1 h
      exact ⟨front, _, hfront, Denotes.string (Quoted.intro hquote hspelled), by simp⟩
  | _, _, _, .number hs hc h => by
      obtain ⟨front, hfront, rfl⟩ := exists_of_skipBlanks hs
      have hnumeral := numeral_iff.2 ⟨hc, fun d hd => List.mem_takeWhile_imp hd, h⟩
      exact ⟨front, _, hfront, Denotes.number hnumeral, by simp⟩
  | _, _, _, .word hs _ h => by
      obtain ⟨front, hfront, rfl⟩ := exists_of_skipBlanks hs
      exact ⟨front, _, hfront, denotes_of_wordValue? h, by simp⟩

theorem ReadsItems.exists_inside :
    ∀ {s rest : List Char} {vs : List Json}, ReadsItems s vs rest →
      ∃ t, Inside DenotesItems t vs ∧ s = t ++ ']' :: rest
  | _, _, _, .done hs => by
      obtain ⟨blanks, hblanks, rfl⟩ := exists_of_skipBlanks hs
      exact ⟨blanks, Inside.empty hblanks, rfl⟩
  | _, _, _, .last _ hv h2 => by
      obtain ⟨t, u, ht, hu, rfl⟩ := hv.beginsWith.exists_padded h2
      exact ⟨_, Inside.full (DenotesItems.one ht hu) Trailing.nothing, by simp⟩
  | _, _, _, .more _ hv h2 h => by
      obtain ⟨t, u, ht, hu, rfl⟩ := hv.beginsWith.exists_padded h2
      obtain ⟨w, hinside, rfl⟩ := h.exists_inside
      exact ⟨_, Inside.cons_item ht hu hinside, by simp⟩

theorem ReadsMembers.exists_inside :
    ∀ {s rest : List Char} {before o : Object}, ReadsMembers s before o rest →
      ∃ t entries, Inside DenotesEntries t entries ∧ s = t ++ '\x7d' :: rest ∧
        o = entries.foldl (fun o e => o.insert e.1 e.2) before
  | _, _, _, _, .done hs => by
      obtain ⟨blanks, hblanks, rfl⟩ := exists_of_skipBlanks hs
      exact ⟨blanks, [], Inside.empty hblanks, rfl, rfl⟩
  | _, _, _, _, .last hs _ hk h2 hv h4 => by
      obtain ⟨key, t, hkey, ht, rfl⟩ := exists_padded_key hs hk h2
      obtain ⟨u, w, hu, hw, rfl⟩ := hv.beginsWith.exists_padded h4
      have hone := DenotesEntries.one hkey ht hu hw
      exact ⟨_, _, Inside.full hone Trailing.nothing, by simp, rfl⟩
  | _, _, _, _, .more hs _ hk h2 hv h4 h => by
      obtain ⟨key, t, hkey, ht, rfl⟩ := exists_padded_key hs hk h2
      obtain ⟨u, w, hu, hw, rfl⟩ := hv.beginsWith.exists_padded h4
      obtain ⟨x, entries, hinside, rfl, rfl⟩ := h.exists_inside
      exact ⟨_, _, Inside.cons_entry hkey ht hu hw hinside, by simp, rfl⟩

end

/-! A literal is read. -/

theorem isBlank_of_inIdentifier
    {c : Char} (hc : inIdentifier c = true) :
    Text.isBlank c = false := by
  rw [inIdentifier, Bool.or_eq_true] at hc
  rcases hc with hstart | hdigit
  · exact isBlank_of_startsIdentifier hstart
  · exact isBlank_of_isDigit hdigit

section Ending

variable {blanks trailing rest : List Char}

theorem Ends.append_blanks
    (hblanks : isAllBlank blanks = true)
    (hrest : Ends rest) :
    Ends (blanks ++ rest) := by
  cases blanks with
  | nil => exact hrest
  | cons c blanks =>
      have hc : Text.isBlank c = true := List.all_eq_true.1 hblanks c List.mem_cons_self
      have hnumeral : inNumeral c ≠ true := by
        intro h
        rw [isBlank_of_inNumeral h] at hc
        cases hc
      have hword : inIdentifier c ≠ true := by
        intro h
        rw [isBlank_of_inIdentifier h] at hc
        cases hc
      exact ends_cons (Bool.eq_false_iff.2 hnumeral) (Bool.eq_false_iff.2 hword) _

theorem Trailing.ends
    (h : Trailing trailing)
    (hrest : Ends rest) :
    Ends (trailing ++ rest) := by
  cases h with
  | nothing => exact hrest
  | comma _ => exact ends_cons rfl rfl _

end Ending

section Beginning

variable {blanks rest s t : List Char} {v : Json} {k : String}

theorem Reads.append_blanks
    (hblanks : isAllBlank blanks = true)
    (h : Reads s v rest) :
    Reads (blanks ++ s) v rest := by
  have hskip := skipBlanks_append hblanks s
  cases h with
  | object hs h => exact Reads.object (hskip.trans hs) h
  | array hs h => exact Reads.array (hskip.trans hs) h
  | string hs hquote h => exact Reads.string (hskip.trans hs) hquote h
  | number hs hc h => exact Reads.number (hskip.trans hs) hc h
  | word hs hc h => exact Reads.word (hskip.trans hs) hc h

/-- A value never begins with the bracket that closes a list. -/
theorem Reads.skipBlanks_ne_bracket
    (h : Reads s v rest)
    (r : List Char) :
    skipBlanks s ≠ ']' :: r := by
  intro hbracket
  cases h with
  | object hs _ => rw [hs] at hbracket; cases hbracket
  | array hs _ => rw [hs] at hbracket; cases hbracket
  | string hs hquote _ =>
      rw [hs] at hbracket
      cases hbracket
      rcases hquote with hquote | hquote <;> cases hquote
  | number hs hc _ =>
      rw [hs] at hbracket
      cases hbracket
      cases hc
  | word hs hc _ =>
      rw [hs] at hbracket
      cases hbracket
      cases hc

/-- A value is read with the blanks around it, whatever may follow. -/
theorem Padded.exists_reads
    (ht : Padded s t)
    (h : ∀ rest, Ends rest → Reads (s ++ rest) v rest)
    (hrest : Ends rest) :
    ∃ r, Reads (t ++ rest) v r ∧ skipBlanks r = skipBlanks rest := by
  cases ht with
  | @intro front back hfront hback =>
      have hread := (h (back ++ rest) (hrest.append_blanks hback)).append_blanks hfront
      refine ⟨back ++ rest, ?_, skipBlanks_append hback rest⟩
      simpa only [List.append_assoc] using hread

/-- A key is read with the blanks around it, up to the colon. -/
theorem Padded.exists_readsKey
    (ht : Padded s t)
    (hk : Key s k)
    (rest : List Char) :
    ∃ c r r1, skipBlanks (t ++ ':' :: rest) = c :: r ∧ c ≠ '\x7d' ∧ ReadsKey (c :: r) k r1 ∧
      skipBlanks r1 = ':' :: rest := by
  cases ht with
  | @intro front back hfront hback =>
      have hcolon : Ends (':' :: rest) := ends_cons rfl rfl rest
      obtain ⟨c, r, hcons, hc, hbrace, hkey⟩ := hk.readsKey (hcolon.append_blanks hback).word
      refine ⟨c, r, back ++ ':' :: rest, ?_, hbrace, hkey, skipBlanks_append_cons hback rfl rest⟩
      rw [List.append_assoc, List.append_assoc, hcons, skipBlanks_append_cons hfront hc]

theorem Quoted.reads
    {s : String}
    (h : Quoted t s)
    (rest : List Char) :
    Reads (t ++ rest) (.string s) rest := by
  cases h with
  | @intro quote s cs hquote hs =>
      have hchars := (characters_eq_ok_iff hquote).2 ⟨s, Eq.refl (s ++ quote :: rest), hs⟩
      have hblank : Text.isBlank quote = false := by rcases hquote with rfl | rfl <;> rfl
      have hread := Reads.string (skipBlanks_cons hblank _) hquote hchars
      simpa only [List.cons_append, List.append_assoc, List.nil_append] using hread

theorem Numeral.reads
    {n : Number}
    (h : Numeral t n)
    (hrest : Ends rest) :
    Reads (t ++ rest) (.number n) rest := by
  cases t with
  | nil => cases h
  | cons c r =>
      obtain ⟨hc, hr, hn⟩ := numeral_iff.1 h
      exact reads_numeral hc hr hn hrest

end Beginning

mutual

/-- A literal is read from the front of a text, up to what ends it. -/
theorem Denotes.reads :
    ∀ {t : List Char} {v : Json}, Denotes t v → ∀ rest, Ends rest → Reads (t ++ rest) v rest
  | _, _, .null, _, hrest => reads_word rfl rfl rfl hrest
  | _, _, .true, _, hrest => reads_word rfl rfl rfl hrest
  | _, _, .false, _, hrest => reads_word rfl rfl rfl hrest
  | _, _, .number h, _, hrest => h.reads hrest
  | _, _, .string h, rest, _ => h.reads rest
  | _, _, .array (.empty hblanks), rest, _ => by
      have hdone := ReadsItems.done (skipBlanks_append_cons hblanks rfl rest)
      simpa using Reads.array (skipBlanks_cons rfl _) hdone
  | _, _, .array (.full h htrailing), rest, _ => by
      have hitems := h.readsItems htrailing rest
      simpa using Reads.array (skipBlanks_cons rfl _) hitems
  | _, _, .object (.empty hblanks), rest, _ => by
      have hread := Reads.object (skipBlanks_cons rfl _)
        (ReadsMembers.done (skipBlanks_append_cons hblanks rfl rest))
      simpa [Object.ofEntries] using hread
  | _, _, .object (.full h htrailing), rest, _ => by
      have hentries := h.readsMembers htrailing [] rest
      simpa [Object.ofEntries] using Reads.object (skipBlanks_cons rfl _) hentries

theorem DenotesItems.readsItems :
    ∀ {t trailing : List Char} {vs : List Json}, DenotesItems t vs → Trailing trailing →
      ∀ rest, ReadsItems (t ++ (trailing ++ ']' :: rest)) vs rest
  | _, _, _, .one hv ht, htrailing, rest => by
      have hends := htrailing.ends (ends_cons (c := ']') rfl rfl rest)
      obtain ⟨r, hread, hr⟩ := ht.exists_reads hv.reads hends
      cases htrailing with
      | nothing =>
          exact ReadsItems.last hread.skipBlanks_ne_bracket hread (hr.trans (skipBlanks_cons rfl _))
      | comma hblanks =>
          exact ReadsItems.more hread.skipBlanks_ne_bracket hread (hr.trans (skipBlanks_cons rfl _))
            (ReadsItems.done (skipBlanks_append_cons hblanks rfl rest))
  | _, _, _, .more hv ht h, htrailing, rest => by
      have hitems := h.readsItems htrailing rest
      obtain ⟨r, hread, hr⟩ := ht.exists_reads hv.reads (ends_cons (c := ',') rfl rfl _)
      rw [List.append_assoc, List.cons_append]
      exact ReadsItems.more hread.skipBlanks_ne_bracket hread (hr.trans (skipBlanks_cons rfl _))
        hitems

theorem DenotesEntries.readsMembers :
    ∀ {t trailing : List Char} {entries : List (String × Json)}, DenotesEntries t entries →
      Trailing trailing → ∀ before rest,
        ReadsMembers (t ++ (trailing ++ '\x7d' :: rest)) before
          (entries.foldl (fun o e => o.insert e.1 e.2) before) rest
  | _, trailing, _, @DenotesEntries.one _ _ _ u _ _ hk ht hv hu, htrailing, before, rest => by
      have hends := htrailing.ends (ends_cons (c := '\x7d') rfl rfl rest)
      obtain ⟨r, hread, hr⟩ := hu.exists_reads hv.reads hends
      obtain ⟨c, s, r1, hs, hbrace, hkey, hcolon⟩ :=
        ht.exists_readsKey hk (u ++ (trailing ++ '\x7d' :: rest))
      rw [List.append_assoc, List.cons_append]
      cases htrailing with
      | nothing =>
          exact ReadsMembers.last hs hbrace hkey hcolon hread (hr.trans (skipBlanks_cons rfl _))
      | comma hblanks =>
          exact ReadsMembers.more hs hbrace hkey hcolon hread (hr.trans (skipBlanks_cons rfl _))
            (ReadsMembers.done (skipBlanks_append_cons hblanks rfl rest))
  | _, trailing, _, @DenotesEntries.more _ _ _ u w k v _ hk ht hv hu h, htrailing, before,
      rest => by
      have hentries := h.readsMembers htrailing (before.insert k v) rest
      obtain ⟨r, hread, hr⟩ := hu.exists_reads hv.reads (ends_cons (c := ',') rfl rfl _)
      obtain ⟨c, s, r1, hs, hbrace, hkey, hcolon⟩ :=
        ht.exists_readsKey hk (u ++ ',' :: (w ++ (trailing ++ '\x7d' :: rest)))
      rw [List.append_assoc, List.append_assoc, List.cons_append, List.cons_append]
      exact ReadsMembers.more hs hbrace hkey hcolon hread (hr.trans (skipBlanks_cons rfl _))
        hentries

end

/-- **A text reads as a value if and only if it is a literal that denotes the value, with blanks
around it.** -/
theorem parse_eq_ok_iff_denotes
    {text : String} {v : Json} :
    parse text = .ok v ↔ ∃ t, Denotes t v ∧ Padded t text.toList := by
  rw [parse, parseChars_eq_ok_iff]
  constructor
  · rintro ⟨rest, hread, hrest⟩
    obtain ⟨t, u, ht, hu, htext⟩ := hread.beginsWith.exists_padded hrest
    rw [List.append_nil] at htext
    rw [htext]
    exact ⟨t, ht, hu⟩
  · rintro ⟨t, ht, hpadded⟩
    obtain ⟨r, hread, hr⟩ := hpadded.exists_reads ht.reads ends_nil
    rw [List.append_nil] at hread
    exact ⟨r, hread, hr⟩

end Literal
end Warrant
