-- SUMMARY: Displayed one behind the other, tokens are scanned back exactly when their literals hold readable characters.
import CSubset.Proofs.Text.PlainAscii
import CSubset.Proofs.Token.Spelling
import Mathlib.Algebra.Group.Int.Defs

/-!
# Scanning displayed tokens

The display of a token is its lexeme, but for floats, and a space behind a lexeme ends it. So tokens
that are displayed with single spaces between them are scanned back, one behind the other. The one
limit is set by text literals: the display writes most characters in a way of the source language
(`escapeChar_spelling`), but those beyond printable ASCII by an escape sequence that the scanner
does not know, which is an error (`escapeChar_of_not_readable`).
-/

namespace CSubset

open Segment

/-! ## Readable characters -/

namespace Text

/-- A character whose spelling in a display is one of the source language. -/
def Readable (c : Char) : Prop :=
  0x20 ≤ c.toNat ∧ c.toNat ≤ 0x7e ∨ c = '\t' ∨ c = '\n' ∨ c = '\r'

instance (c : Char) : Decidable (Readable c) := inferInstanceAs (Decidable (_ ∨ _))

theorem escapeChar_spelling {c : Char} (h : Readable c) (next : Option Char) :
    CharSpelling '"' next c (escapeChar c) ∧ CharSpelling '\'' next c (escapeChar c) := by
  have named (letter : Char) (hletter : (letter, c) ∈ namedEscapes) :
      CharSpelling '"' next c ['\\', letter] ∧ CharSpelling '\'' next c ['\\', letter] :=
    ⟨.named hletter, .named hletter⟩
  unfold escapeChar
  split
  · next hc => exact named 't' (hc ▸ by decide)
  split
  · next hc => exact named 'r' (hc ▸ by decide)
  next htab hreturn =>
  split
  · next hc => exact named 'n' (hc ▸ by decide)
  next hline =>
  split
  · next hc => exact named c (by rcases hc with rfl | rfl | rfl <;> decide)
  next hquotes =>
  simp only [not_or] at hquotes
  obtain ⟨hchar, hstring, hbackslash⟩ := hquotes
  have hplain : isPlainAscii c = true := by
    refine isPlainAscii_iff.mpr (h.resolve_right ?_)
    simp [htab, hreturn, hline]
  rw [if_pos hplain]
  exact ⟨.raw hstring hbackslash hline, .raw hchar hbackslash hline⟩

theorem escapeChar_of_not_readable {c : Char} (h : ¬ Readable c) :
    ∃ w, escapeChar c = '\\' :: 'u' :: w := by
  simp only [Readable, not_or] at h
  obtain ⟨hplain, htab, hline, hreturn⟩ := h
  have hquotes : ¬ (c = '\'' ∨ c = '"' ∨ c = '\\') := by
    rintro (rfl | rfl | rfl) <;> exact hplain (by decide)
  rw [escapeChar, if_neg htab, if_neg hreturn, if_neg hline, if_neg hquotes,
    if_neg (hplain ∘ isPlainAscii_iff.mp)]
  exact ⟨_, rfl⟩

/-- The display of a readable text is a spelling of it. -/
theorem escape_spelling (text : List Char) (h : ∀ c ∈ text, Readable c) (next : Option Char) :
    TextSpelling '"' next text (text.flatMap escapeChar) := by
  induction text with
  | nil => exact .nil
  | cons c text ih =>
    obtain ⟨hc, htext⟩ := List.forall_mem_cons.mp h
    exact .cons (escapeChar_spelling hc _).1 (ih htext)

end Text

open Text

/-! ## Text literals -/

/-- A character that is not readable is a fault of the literal, wherever it stands in it. -/
theorem StringBody.read_faults_ne_nil {text : List Char} (h : ¬ ∀ c ∈ text, Readable c)
    (offset : Nat) (rest : List Char) :
    (read offset (text.flatMap escapeChar ++ rest)).faults ≠ [] := by
  induction text generalizing offset with
  | nil => exact absurd (List.forall_mem_nil _) h
  | cons c text ih =>
    rw [List.flatMap_cons, List.append_assoc]
    by_cases hc : Readable c
    · have htext : ¬ ∀ c ∈ text, Readable c := fun htext =>
        h (List.forall_mem_cons.mpr ⟨hc, htext⟩)
      have hspelling := escape_spelling [c] (List.forall_mem_singleton.mpr hc)
        (text.flatMap escapeChar ++ rest).head?
      rw [List.flatMap_singleton] at hspelling
      rw [hspelling.read]
      exact ih htext _
    · obtain ⟨w, hw⟩ := escapeChar_of_not_readable hc
      rw [hw, List.cons_append, List.cons_append, read, if_neg (by decide), if_neg (by decide),
        if_pos rfl]
      exact List.cons_ne_nil _ _

theorem Segment.closeChar_faults_ne_nil (read : List Char) (value : Char) {faults : List Fault}
    (h : faults ≠ []) (rest : List Char) : (closeChar read value faults rest).faults ≠ [] := by
  unfold closeChar
  split
  · exact h
  · dsimp only
    split <;> exact List.append_ne_nil_of_left_ne_nil h _

theorem Segment.ofChar_faults_ne_nil {c : Char} (h : ¬ Readable c) (rest : List Char) :
    (ofChar (escapeChar c ++ rest)).faults ≠ [] := by
  obtain ⟨w, hw⟩ := escapeChar_of_not_readable h
  have hu : (EscapeSequence.read ('u' :: (w ++ rest))).value = some 'u' := rfl
  rw [hw, List.cons_append, List.cons_append, ofChar_escape_of_some hu]
  exact closeChar_faults_ne_nil _ _ (List.cons_ne_nil _ _) _

/-! ## Displays -/

namespace Token.Kind

/-- A kind of token that can be scanned and whose display is a lexeme: any but floats, with names
that are words and not reserved, and with numbers that are in range. -/
def Displays : Token.Kind → Prop
  | identifier name => IsWord name.toList ∧ ∀ k : Keyword, k.text ≠ name
  | intLiteral value => 0 ≤ value ∧ value ≤ 2 ^ 63 - 1
  | floatLiteral _ => False
  | _ => True

/-- The characters inside a text literal. -/
def contents : Token.Kind → List Char
  | charLiteral c => [c]
  | stringLiteral s => s.toList
  | _ => []

end Token.Kind

/-- The displays of tokens with single spaces between them. -/
def displayAll (kinds : List Token.Kind) : String := " ".intercalate (kinds.map Token.Kind.text)

/-- What stands behind a lexeme that a space sets apart: nothing or the space. -/
def Apart (behind : List Char) : Prop := behind = [] ∨ ∃ rest, behind = ' ' :: rest

variable {behind : List Char}

namespace Apart

theorem head?_ne (h : Apart behind) {c : Char} (hc : c ≠ ' ') : behind.head? ≠ some c := by
  rcases h with rfl | ⟨rest, rfl⟩
  · exact nofun
  · exact fun heq => hc (Option.some.inj heq).symm

theorem takeWhile (h : Apart behind) {p : Char → Bool} (hp : p ' ' = false) :
    behind.takeWhile p = [] := by
  rcases h with rfl | ⟨rest, rfl⟩
  · rfl
  · rw [List.takeWhile_cons_of_neg (by simp [hp])]

end Apart

/-! ## One token -/

theorem toList_text_char (c : Char) :
    (Token.Kind.charLiteral c).text.toList = '\'' :: (escapeChar c ++ ['\'']) := by
  simp [Token.Kind.text, Token.charText, escape]

theorem toList_text_string (s : String) :
    (Token.Kind.stringLiteral s).text.toList = '"' :: (s.toList.flatMap escapeChar ++ ['"']) := by
  simp [Token.Kind.text, Token.stringText, escape]

theorem IsWord.takeWhile {w : List Char} (h : IsWord w) (hbehind : Apart behind) :
    (w ++ behind).takeWhile isWordRest = w := by
  obtain ⟨c, r, rfl, hc, hr⟩ := h
  have hrest : ∀ x ∈ c :: r, isWordRest x = true :=
    List.forall_mem_cons.mpr ⟨isWordRest_of_isWordStart hc, hr⟩
  rw [List.takeWhile_append_of_pos hrest, hbehind.takeWhile rfl, List.append_nil]

theorem segments_word {w : List Char} (hw : IsWord w) (h : Apart behind) :
    segments (w ++ behind) = ofWord w :: segments behind := by
  have hword : ofWord (w ++ behind) = ofWord w := by
    have hself := hw.takeWhile (.inl rfl)
    rw [List.append_nil] at hself
    rw [ofWord, ofWord, hw.takeWhile h, hself]
  have htext : (ofWord (w ++ behind)).text = w := hw.takeWhile h
  obtain ⟨c, r, rfl, hc, -⟩ := hw
  rw [List.cons_append, ← first_of_isWordStart hc] at hword htext
  rw [List.cons_append, segments_of_first htext, hword]

theorem segments_keyword (k : Keyword) (h : Apart behind) :
    segments (k.text.toList ++ behind) =
      ofLexeme k.text.toList (.keyword k) [] :: segments behind := by
  have hword : IsWord k.text.toList := by
    cases k <;> exact ⟨_, _, rfl, by decide, List.all_eq_true.mp rfl⟩
  have hkeyword : ofWord k.text.toList = ofLexeme k.text.toList (.keyword k) [] := by
    cases k <;> rfl
  rw [segments_word hword h, hkeyword]

theorem segments_identifier {name : String} (hword : IsWord name.toList)
    (hname : ∀ k : Keyword, k.text ≠ name) (h : Apart behind) :
    segments (name.toList ++ behind) =
      ofLexeme name.toList (.identifier name) [] :: segments behind := by
  have hnone : Keyword.ofText? name = none := by
    refine List.find?_eq_none.mpr fun k _ => ?_
    simpa using hname k
  have hself := hword.takeWhile (.inl rfl)
  rw [List.append_nil] at hself
  rw [segments_word hword h, ofWord, hself, String.ofList_toList, hnone]

theorem segments_punctuator (p : Punctuator) (h : Apart behind) :
    segments (p.text.toList ++ behind) =
      ofLexeme p.text.toList (.punctuator p) [] :: segments behind := by
  rcases h with rfl | ⟨rest, rfl⟩
  · cases p <;> exact segments_of_first rfl
  · cases p <;> exact segments_of_first rfl

theorem segments_number {n : Nat} (hn : n ≤ maxInt) (h : Apart behind) :
    segments (Nat.toDigits 10 n ++ behind) =
      ofLexeme (Nat.toDigits 10 n) (.intLiteral n) [] :: segments behind := by
  have hdigits : ∀ c ∈ Nat.toDigits 10 n, c.isDigit = true := fun c =>
    Nat.isDigit_of_mem_toDigits (by decide) (by decide)
  have hvalue : Binary64.digitsValue (Nat.toDigits 10 n) = n :=
    Nat.ofDigitChars_toDigits (by decide) (by decide)
  have hnumber : ofNumber (Nat.toDigits 10 n ++ behind) =
      ofLexeme (Nat.toDigits 10 n) (.intLiteral n) [] := by
    rw [ofNumber_of_no_point hdigits (h.takeWhile rfl) (h.head?_ne (by decide))]
    simp only [ofDigits, hvalue, if_pos hn]
  have hne : Nat.toDigits 10 n ≠ [] := Nat.toDigits_ne_nil
  generalize Nat.toDigits 10 n = digits at *
  obtain ⟨c, r, rfl⟩ := List.exists_cons_of_ne_nil hne
  have hfirst : first c (r ++ behind) = ofLexeme (c :: r) (.intLiteral n) [] := by
    rw [first_of_isDigit (hdigits c List.mem_cons_self)]
    exact hnumber
  rw [List.cons_append, segments_of_first (by rw [hfirst]; rfl), hfirst]

/-- A token whose literal is readable is scanned back, if its display is set apart. -/
theorem segments_display {kind : Token.Kind} (hkind : kind.Displays)
    (hread : ∀ c ∈ kind.contents, Readable c) (h : Apart behind) :
    segments (kind.text.toList ++ behind) =
      ofLexeme kind.text.toList kind [] :: segments behind := by
  cases kind with
  | keyword k => exact segments_keyword k h
  | punctuator p => exact segments_punctuator p h
  | identifier name => exact segments_identifier hkind.1 hkind.2 h
  | floatLiteral value => exact hkind.elim
  | intLiteral value =>
    obtain ⟨n, rfl⟩ := Int.eq_ofNat_of_zero_le hkind.1
    have hn : n ≤ maxInt := Int.ofNat_le.mp hkind.2
    have htext : (Token.Kind.intLiteral n).text.toList = Nat.toDigits 10 n := by
      have hrepr : (Token.Kind.intLiteral n).text = n.repr := rfl
      rw [hrepr, Nat.repr_eq_ofList_toDigits, String.toList_ofList]
    rw [htext]
    exact segments_number hn h
  | charLiteral c =>
    have hspelling := (escapeChar_spelling (hread c List.mem_cons_self) (some '\'')).2
    have hfirst := first_char_of_spelling hspelling behind
    rw [toList_text_char, List.cons_append, segments_of_first (by rw [hfirst]; rfl), hfirst]
  | stringLiteral s =>
    have hspelling := escape_spelling s.toList hread (some '"')
    have hfirst := first_string_of_spelling hspelling behind
    rw [String.ofList_toList] at hfirst
    rw [toList_text_string, List.cons_append, segments_of_first (by rw [hfirst]; rfl), hfirst]

/-- A token whose literal is not readable is scanned with an error. -/
theorem segments_display_of_not_readable {kind : Token.Kind}
    (hread : ¬ ∀ c ∈ kind.contents, Readable c) (behind : List Char) :
    ∃ s ss, segments (kind.text.toList ++ behind) = s :: ss ∧ s.faults ≠ [] := by
  cases kind with
  | charLiteral c =>
    have hc : ¬ Readable c := fun hc => hread (List.forall_mem_singleton.mpr hc)
    rw [toList_text_char, List.cons_append, List.append_assoc]
    obtain ⟨_, -, hsegments⟩ := segments_cons '\'' (escapeChar c ++ (['\''] ++ behind))
    exact ⟨_, _, hsegments, ofChar_faults_ne_nil hc _⟩
  | stringLiteral s =>
    rw [toList_text_string, List.cons_append, List.append_assoc]
    obtain ⟨_, -, hsegments⟩ := segments_cons '"' (s.toList.flatMap escapeChar ++ (['"'] ++ behind))
    refine ⟨_, _, hsegments, ?_⟩
    exact List.append_ne_nil_of_left_ne_nil (StringBody.read_faults_ne_nil hread 1 _) _
  | _ => exact absurd (List.forall_mem_nil _) hread

/-! ## Several tokens -/

/-- Behind the display of a token, the others are scanned as if they stood alone. -/
theorem toList_displayAll_cons (kind : Token.Kind) (kinds : List Token.Kind) :
    ∃ behind, (displayAll (kind :: kinds)).toList = kind.text.toList ++ behind ∧ Apart behind ∧
      ∀ l, ∃ l', Scan.place l (segments behind) =
        Scan.place l' (segments (displayAll kinds).toList) := by
  cases kinds with
  | nil => exact ⟨[], by simp [displayAll], .inl rfl, fun l => ⟨l, rfl⟩⟩
  | cons next kinds =>
    refine ⟨' ' :: (displayAll (next :: kinds)).toList, ?_, .inr ⟨_, rfl⟩,
      fun l => ⟨l.next ' ', ?_⟩⟩
    · simp [displayAll, String.toList_intercalate]
    · have hblank (rest : List Char) :
          segments (' ' :: rest) = ⟨[' '], .blank, []⟩ :: segments rest :=
        segments_of_first (r := []) rfl
      rw [hblank]
      rfl

/-- Tokens with readable literals are scanned back without an error. -/
theorem place_displayAll {kinds : List Token.Kind} (h : ∀ k ∈ kinds, k.Displays)
    (hread : ∀ k ∈ kinds, ∀ c ∈ k.contents, Readable c) (l : Location) :
    (Scan.place l (segments (displayAll kinds).toList)).tokens.map Token.kind = kinds ∧
      (Scan.place l (segments (displayAll kinds).toList)).errors = [] := by
  induction kinds generalizing l with
  | nil => simp [displayAll, segments, Scan.place]
  | cons kind kinds ih =>
    obtain ⟨hkind, hkinds⟩ := List.forall_mem_cons.mp h
    obtain ⟨hhere, hbehind⟩ := List.forall_mem_cons.mp hread
    obtain ⟨behind, htext, hapart, hplace⟩ := toList_displayAll_cons kind kinds
    obtain ⟨l', hl'⟩ := hplace (l.after kind.text.toList)
    obtain ⟨htokens, herrors⟩ := ih hkinds hbehind l'
    rw [← hl'] at htokens herrors
    rw [htext, segments_display hkind hhere hapart]
    exact ⟨congrArg (kind :: ·) htokens, herrors⟩

/-- Where there is no error, all literals are readable. -/
theorem readable_of_place_displayAll {kinds : List Token.Kind} (h : ∀ k ∈ kinds, k.Displays)
    {l : Location} (herrors : (Scan.place l (segments (displayAll kinds).toList)).errors = []) :
    ∀ k ∈ kinds, ∀ c ∈ k.contents, Readable c := by
  induction kinds generalizing l with
  | nil => exact List.forall_mem_nil _
  | cons kind kinds ih =>
    obtain ⟨hkind, hkinds⟩ := List.forall_mem_cons.mp h
    obtain ⟨behind, htext, hapart, hplace⟩ := toList_displayAll_cons kind kinds
    obtain ⟨l', hl'⟩ := hplace (l.after kind.text.toList)
    rw [htext] at herrors
    by_cases hhere : ∀ c ∈ kind.contents, Readable c
    · rw [segments_display hkind hhere hapart] at herrors
      have hbehind : (Scan.place (l.after kind.text.toList) (segments behind)).errors = [] :=
        herrors
      rw [hl'] at hbehind
      exact List.forall_mem_cons.mpr ⟨hhere, ih hkinds hbehind⟩
    · obtain ⟨s, ss, hsegments, hfaults⟩ := segments_display_of_not_readable hhere behind
      rw [hsegments] at herrors
      exact absurd (List.map_eq_nil_iff.mp (List.append_eq_nil_iff.mp herrors).1) hfaults

/-- Displayed with single spaces between them, tokens are scanned back as the same kinds in the same
order and without an error exactly if their literals hold readable characters only. Whenever there
is no error, it is these tokens that are scanned. -/
theorem scan_displayAll {kinds : List Token.Kind} (h : ∀ k ∈ kinds, k.Displays) :
    ((scan (displayAll kinds)).tokens.map Token.kind = kinds ∧
        (scan (displayAll kinds)).errors = [] ↔
      ∀ k ∈ kinds, ∀ c ∈ k.contents, Readable c) ∧
      ((scan (displayAll kinds)).errors = [] →
        (scan (displayAll kinds)).tokens.map Token.kind = kinds) := by
  have hread : (scan (displayAll kinds)).errors = [] → ∀ k ∈ kinds, ∀ c ∈ k.contents, Readable c :=
    readable_of_place_displayAll h
  refine ⟨⟨fun hscan => hread hscan.2, fun hread => place_displayAll h hread .start⟩, ?_⟩
  exact fun herrors => (place_displayAll h (hread herrors) .start).1

/-- A quote, a newline and a backslash in literals are read back; a letter with an accent is not. -/
theorem scan_displayAll_literals :
    (∀ k ∈ [Token.Kind.keyword .returnKw, .intLiteral 70, .stringLiteral "\"\n", .charLiteral '\\'],
        k.Displays) ∧
      (scan "return 70 \"\\\"\\n\" '\\\\'").tokens.map Token.kind =
        [.keyword .returnKw, .intLiteral 70, .stringLiteral "\"\n", .charLiteral '\\'] ∧
      (scan "return 70 \"\\\"\\n\" '\\\\'").errors = [] ∧
      (∀ k ∈ [Token.Kind.identifier "e", .charLiteral 'é'], k.Displays) ∧
      (scan "e '\\u\x7be9\x7d'").errors ≠ [] := by
  have hkinds : ∀ k ∈ [Token.Kind.keyword .returnKw, .intLiteral 70, .stringLiteral "\"\n",
      .charLiteral '\\'], k.Displays := by
    simp [Token.Kind.Displays]
  have hread : ∀ k ∈ [Token.Kind.keyword .returnKw, .intLiteral 70, .stringLiteral "\"\n",
      .charLiteral '\\'], ∀ c ∈ k.contents, Readable c := by
    simp [Token.Kind.contents, Readable]
  have hdisplay : displayAll [.keyword .returnKw, .intLiteral 70, .stringLiteral "\"\n",
      .charLiteral '\\'] = "return 70 \"\\\"\\n\" '\\\\'" := by decide +kernel
  have hscan := (scan_displayAll hkinds).1.mpr hread
  have haccented : ∀ k ∈ [Token.Kind.identifier "e", .charLiteral 'é'], k.Displays := by
    have hname : ∀ k : Keyword, k.text ≠ "e" := fun k => by cases k <;> decide
    have hword : IsWord "e".toList := ⟨'e', [], rfl, by decide, List.forall_mem_nil _⟩
    exact List.forall_mem_cons.mpr ⟨⟨hword, hname⟩, List.forall_mem_singleton.mpr trivial⟩
  have hletter : displayAll [.identifier "e", .charLiteral 'é'] = "e '\\u\x7be9\x7d'" := by
    decide +kernel
  obtain ⟨hiff, hright⟩ := scan_displayAll haccented
  rw [hdisplay] at hscan
  rw [hletter] at hiff hright
  refine ⟨hkinds, hscan.1, hscan.2, haccented, fun herrors => ?_⟩
  have hunread := hiff.mp ⟨hright herrors, herrors⟩
  exact absurd (hunread (.charLiteral 'é') (by decide) 'é' List.mem_cons_self) (by decide)

end CSubset
