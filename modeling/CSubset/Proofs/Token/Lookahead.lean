-- SUMMARY: A lexeme does not tell the text behind it from that text with characters made blank.
import CSubset.Proofs.Token.Form
import Mathlib.Data.List.Forall2

/-!
# Lookahead

Where a lexeme ends depends on what stands behind it, but nearly always on one character only, and
on that only to tell whether the lexeme goes on. No lexeme goes on with a space, and so it stays the
same if characters behind it are made spaces. The one lookahead of two characters is that for two
points behind a number; a quote is looked for in the whole line, but spaces do not add one.
-/

namespace CSubset

/-! ## Fading -/

/-- Some characters of a text are made spaces, but no newline is. -/
def Fades (text faded : List Char) : Prop :=
  List.Forall₂ (fun c d => d = c ∨ d = ' ' ∧ c ≠ '\n') text faded

/-- Nothing follows in the line. -/
def LineEnds (text : List Char) : Prop := text = [] ∨ ∃ rest, text = '\n' :: rest

variable {behind faded r w : List Char} {p : Char → Bool}

namespace Fades

theorem lineEnds (h : Fades behind faded) (hb : LineEnds behind) : LineEnds faded := by
  rcases hb with rfl | ⟨rest, rfl⟩
  · cases h
    exact .inl rfl
  · cases h with
    | cons hc hrest =>
      obtain rfl | ⟨-, hn⟩ := hc
      · exact .inr ⟨_, rfl⟩
      · exact absurd rfl hn

/-- What the faded text begins with, and holds no space, the text began with. -/
theorem isPrefix (h : Fades behind faded) (hw : ' ' ∉ w) (r : List Char) (hpre : w <+: r ++ faded) :
    w <+: r ++ behind := by
  -- First along what stands in front of the fading, and then along the fading itself.
  induction r generalizing w with
  | nil =>
    induction h generalizing w with
    | nil => exact hpre
    | @cons c d _ _ hc _ ih =>
      rcases List.prefix_cons_iff.mp hpre with rfl | ⟨w, rfl, htail⟩
      · exact List.nil_prefix
      · obtain rfl | ⟨rfl, -⟩ := hc
        · exact (List.prefix_cons_inj _).mpr
            (ih (fun hmem => hw (List.mem_cons_of_mem _ hmem)) htail)
        · exact absurd List.mem_cons_self hw
  | cons c r ih =>
    rcases List.prefix_cons_iff.mp hpre with rfl | ⟨w, rfl, htail⟩
    · exact List.nil_prefix
    · exact (List.prefix_cons_inj _).mpr (ih (fun hmem => hw (List.mem_cons_of_mem _ hmem)) htail)

theorem head? (h : Fades behind faded) {c : Char} (hc : c ≠ ' ') (r : List Char)
    (hhead : (r ++ faded).head? = some c) : (r ++ behind).head? = some c := by
  have hpre : [c] <+: r ++ faded := by
    obtain ⟨rest, heq⟩ := List.head?_eq_some_iff.mp hhead
    rw [heq]
    exact List.prefix_append [c] rest
  obtain ⟨rest, heq⟩ := h.isPrefix (fun hmem => hc (List.mem_singleton.mp hmem).symm) r hpre
  rw [← heq]
  rfl

theorem head?_any (h : Fades behind faded) (hp : p ' ' = false) (r : List Char)
    (hany : (r ++ faded).head?.any p = true) : (r ++ behind).head?.any p = true := by
  obtain ⟨c, hhead, hc⟩ := (Option.any_eq_true _ _).mp hany
  have hspace : c ≠ ' ' := by
    rintro rfl
    cases hp.symm.trans hc
  exact (Option.any_eq_true _ _).mpr ⟨c, h.head? hspace r hhead, hc⟩

/-- Characters that are taken up to some point in front of the fading are taken as before. -/
theorem takeWhile_eq (h : Fades behind faded) (hp : p ' ' = false)
    (hr : (r ++ behind).takeWhile p <+: r) :
    (r ++ faded).takeWhile p = (r ++ behind).takeWhile p := by
  have hspace : ' ' ∉ (r ++ faded).takeWhile p := by
    intro hmem
    rw [mem_takeWhile hmem] at hp
    cases hp
  have hle : (r ++ faded).takeWhile p <+: (r ++ behind).takeWhile p :=
    prefix_takeWhile (h.isPrefix hspace r (List.takeWhile_prefix _)) fun _ => mem_takeWhile
  have hge : (r ++ behind).takeWhile p <+: (r ++ faded).takeWhile p :=
    prefix_takeWhile (hr.trans (List.prefix_append _ _)) fun _ => mem_takeWhile
  exact hle.eq_of_length (Nat.le_antisymm hle.length_le hge.length_le)

theorem takeWhile_eq_self (h : Fades behind faded) (hp : p ' ' = false)
    (hr : (r ++ behind).takeWhile p = r) : (r ++ faded).takeWhile p = r :=
  (h.takeWhile_eq hp (hr.symm ▸ List.prefix_rfl)).trans hr

/-- Fading adds nothing but spaces to the line. -/
theorem mem_takeWhile_line (h : Fades behind faded) {c : Char} (hc : c ≠ ' ')
    (hmem : c ∈ faded.takeWhile (· ≠ '\n')) : c ∈ behind.takeWhile (· ≠ '\n') := by
  induction h with
  | nil => exact hmem
  | @cons x y text faded hx _ ih =>
    by_cases hy : y = '\n'
    · subst hy
      cases hmem
    · have hxn : x ≠ '\n' := by
        rcases hx with rfl | ⟨-, hn⟩
        · exact hy
        · exact hn
      rw [List.takeWhile_cons_of_pos (by simpa using hy)] at hmem
      rw [List.takeWhile_cons_of_pos (by simpa using hxn)]
      rcases List.mem_cons.mp hmem with rfl | hmem
      · rcases hx with rfl | ⟨rfl, -⟩
        · exact List.mem_cons_self
        · exact absurd rfl hc
      · exact List.mem_cons_of_mem _ (ih hmem)

end Fades

/-! ## Literals of characters -/

namespace EscapeSequence

theorem read_lineEnds (h : LineEnds w) : read w = ⟨[], none, none⟩ := by
  rcases h with rfl | ⟨rest, rfl⟩ <;> rfl

/-- A backslash belongs to an escape sequence unless its line ends. -/
theorem lineEnds_of_text_eq_nil (h : (read w).text = []) : LineEnds w := by
  unfold read at h
  grind [LineEnds]

theorem text_of_value_eq_none (h : (read w).value = none) : (read w).text = [] := by
  unfold read at h ⊢
  grind

/-- An escape sequence in front of the fading stays. -/
theorem read_fades (h : Fades behind faded) (hr : (read (r ++ behind)).text <+: r) :
    read (r ++ faded) = read (r ++ behind) := by
  cases r with
  | nil =>
    have hends := lineEnds_of_text_eq_nil (List.prefix_nil.mp hr)
    rw [List.nil_append, List.nil_append, read_lineEnds (h.lineEnds hends)]
    exact (read_lineEnds hends).symm
  | cons c r =>
    have hdigits (hc : c = 'x') : ((r ++ faded).take 2).takeWhile isHexDigit =
        ((r ++ behind).take 2).takeWhile isHexDigit := by
      have hle : ((r ++ behind).take 2).takeWhile isHexDigit <+: r := by
        subst hc
        rw [List.cons_append, read, if_neg (by decide), if_pos rfl] at hr
        dsimp only at hr
        split at hr
        · next hnil =>
          rw [List.isEmpty_iff.mp hnil]
          exact List.nil_prefix
        · exact (List.prefix_cons_inj _).mp hr
      have hlength : (((r ++ behind).take 2).takeWhile isHexDigit).length ≤ 2 :=
        Nat.le_trans (List.takeWhile_prefix _).length_le (List.length_take_le 2 _)
      have htake := List.prefix_take_iff.mpr ⟨hle, hlength⟩
      rw [List.take_append] at htake ⊢
      rw [List.take_append]
      exact Fades.takeWhile_eq (List.forall₂_take _ h) rfl htake
    rw [List.cons_append, List.cons_append, read, read]
    split
    · rfl
    · split
      · next hc => rw [hdigits hc]
      · rfl

end EscapeSequence

theorem StringBody.read_lineEnds (offset : Nat) (h : LineEnds w) :
    read offset w = ⟨[], [], [], false⟩ := by
  rcases h with rfl | ⟨rest, rfl⟩
  · rw [read]
  · rw [read, if_pos rfl]

theorem StringBody.read_fades (h : Fades behind faded) (offset : Nat) (text : List Char) :
    ∀ r, text = r ++ behind → (read offset text).text = r →
      read offset (r ++ faded) = read offset text := by
  fun_induction read offset text with
  | case1 offset =>
    rintro r htext rfl
    exact read_lineEnds offset (h.lineEnds (.inl htext.symm))
  | case2 offset rest =>
    rintro r htext rfl
    exact read_lineEnds offset (h.lineEnds (.inr ⟨rest, htext.symm⟩))
  | case3 offset rest hn =>
    rintro r htext rfl
    rw [List.cons_append, read, if_neg hn, if_pos rfl]
  | case4 offset rest e body hn hq ih =>
    rintro r htext rfl
    have hrest : rest = e.text ++ (body.text ++ behind) := by simpa using htext
    have hescape : EscapeSequence.read (e.text ++ body.text ++ faded) = e := by
      have hle : (EscapeSequence.read (e.text ++ body.text ++ behind)).text <+:
          e.text ++ body.text := by
        rw [List.append_assoc, ← hrest]
        exact List.prefix_append _ _
      rw [EscapeSequence.read_fades h hle, List.append_assoc, ← hrest]
    have hbody := ih body.text (by rw [hrest, List.drop_left]) rfl
    rw [List.cons_append, List.cons_append, read, if_neg hn, if_neg hq, if_pos rfl]
    dsimp only
    rw [hescape, List.append_assoc, List.drop_left, hbody]
    rfl
  | case5 offset c rest hn hq hb body ih =>
    rintro r htext rfl
    have hbody := ih body.text (List.cons.inj htext).2 rfl
    rw [List.cons_append, read, if_neg hn, if_neg hq, if_neg hb, hbody]

namespace Segment

theorem ofString_fades (h : Fades behind faded) (hr : (ofString (r ++ behind)).text = '"' :: r) :
    ofString (r ++ faded) = ofString (r ++ behind) := by
  have hbody : (StringBody.read 1 (r ++ behind)).text = r := (List.cons.inj hr).2
  rw [ofString, ofString, StringBody.read_fades h 1 _ r rfl hbody]

theorem exists_quote {text : List Char} (h : '\'' ∈ text.takeWhile (· ≠ '\n')) :
    ∃ w rest, (∀ c ∈ w, c ≠ '\n' ∧ c ≠ '\'') ∧ text = w ++ '\'' :: rest := by
  induction text with
  | nil => cases h
  | cons c text ih =>
    by_cases hn : c = '\n'
    · subst hn
      cases h
    · by_cases hq : c = '\''
      · exact ⟨[], text, nofun, by rw [hq]; rfl⟩
      · rw [List.takeWhile_cons_of_pos (by simpa using hn)] at h
        obtain ⟨w, rest, hw, heq⟩ := ih ((List.mem_cons.mp h).resolve_left (Ne.symm hq))
        exact ⟨c :: w, rest, List.forall_mem_cons.mpr ⟨⟨hn, hq⟩, hw⟩, congrArg (c :: ·) heq⟩

/-- A quote in the line ends a character constant, whatever stands behind it. -/
theorem closeChar_quote (read : List Char) (value : Char) (faults : List Fault)
    (hw : ∀ c ∈ w, c ≠ '\n' ∧ c ≠ '\'') (rest : List Char) :
    closeChar read value faults (w ++ '\'' :: rest) =
      ofLexeme (read ++ w ++ ['\'']) (.charLiteral value)
        (if w = [] then faults else faults ++ [⟨0, .multiCharacterChar⟩]) := by
  have hline : (w ++ '\'' :: rest).takeWhile (· ≠ '\n') =
      w ++ '\'' :: rest.takeWhile (· ≠ '\n') := by
    rw [List.takeWhile_append_of_pos fun c hc => by simpa using (hw c hc).1]
    rfl
  have hquote : (w ++ '\'' :: rest.takeWhile (· ≠ '\n')).takeWhile (· ≠ '\'') = w := by
    rw [List.takeWhile_append_of_pos fun c hc => by simpa using (hw c hc).2]
    simp
  unfold closeChar
  dsimp only
  rw [hline, hquote]
  cases w with
  | nil => simp
  | cons c w =>
    have hc := (hw c List.mem_cons_self).2
    simp [hc]

theorem closeChar_open (read : List Char) (value : Char) (faults : List Fault) {rest : List Char}
    (h : '\'' ∉ rest.takeWhile (· ≠ '\n')) :
    closeChar read value faults rest =
      ofLexeme read (.charLiteral value) (faults ++ [⟨0, .unterminatedChar⟩]) := by
  have hhead : rest.head? ≠ some '\'' := by
    intro hhead
    obtain ⟨tail, rfl⟩ := List.head?_eq_some_iff.mp hhead
    exact h List.mem_cons_self
  rw [closeChar, if_neg hhead]
  exact if_neg h

theorem closeChar_fades (h : Fades behind faded) {read : List Char} {value : Char}
    {faults : List Fault} (hr : (closeChar read value faults (r ++ behind)).text = read ++ r) :
    closeChar read value faults (r ++ faded) = closeChar read value faults (r ++ behind) := by
  by_cases hquote : '\'' ∈ (r ++ behind).takeWhile (· ≠ '\n')
  · obtain ⟨w, rest, hw, heq⟩ := exists_quote hquote
    rw [heq, closeChar_quote _ _ _ hw, ofLexeme, List.append_assoc] at hr
    obtain rfl := List.append_cancel_left hr
    rw [List.append_assoc, List.append_assoc]
    exact (closeChar_quote _ _ _ hw _).trans (closeChar_quote _ _ _ hw _).symm
  · rw [closeChar_open _ _ _ hquote, ofLexeme] at hr
    obtain rfl : r = [] := List.append_right_eq_self.mp hr.symm
    rw [closeChar_open _ _ _ hquote]
    exact closeChar_open _ _ _ fun hmem => hquote (h.mem_takeWhile_line (by decide) hmem)

theorem ofChar_lineEnds (h : LineEnds w) :
    ofChar w = ofLexeme ['\''] (.charLiteral '\x00') [⟨0, .unterminatedChar⟩] := by
  rcases h with rfl | ⟨rest, rfl⟩ <;> rfl

/-- The character behind an opening quote belongs to the constant, unless it is a newline. -/
theorem ofChar_takes {c : Char} (hc : c ≠ '\n') (rest : List Char) :
    ['\'', c] <+: (ofChar (c :: rest)).text := by
  rw [ofChar, if_neg hc]
  split
  · next hq =>
    subst hq
    exact List.prefix_rfl
  · split
    · next hb =>
      subst hb
      dsimp only
      split
      · exact List.prefix_rfl
      · exact (List.prefix_append ['\'', '\\'] _).trans (closeChar_content ..).1
    · exact (closeChar_content ..).1

theorem ofChar_escape_of_none {rest : List Char} (h : (EscapeSequence.read rest).value = none) :
    ofChar ('\\' :: rest) =
      ofLexeme ['\'', '\\'] (.charLiteral '\x00') [⟨0, .unterminatedChar⟩] := by
  rw [ofChar, if_neg (by decide), if_neg (by decide), if_pos rfl]
  dsimp only
  rw [h]

theorem ofChar_escape_of_some {rest : List Char} {value : Char}
    (h : (EscapeSequence.read rest).value = some value) :
    ofChar ('\\' :: rest) =
      closeChar ('\'' :: '\\' :: (EscapeSequence.read rest).text) value
        ((EscapeSequence.read rest).faults 2)
        (rest.drop (EscapeSequence.read rest).text.length) := by
  rw [ofChar, if_neg (by decide), if_neg (by decide), if_pos rfl]
  dsimp only
  rw [h]

/-- The part of a character constant behind an opening quote and a backslash. -/
theorem ofChar_escape_fades (h : Fades behind faded)
    (hr : (ofChar ('\\' :: (r ++ behind))).text = '\'' :: '\\' :: r) :
    ofChar ('\\' :: (r ++ faded)) = ofChar ('\\' :: (r ++ behind)) := by
  cases hvalue : (EscapeSequence.read (r ++ behind)).value with
  | none =>
    rw [ofChar_escape_of_none hvalue] at hr ⊢
    obtain rfl : [] = r := (List.cons.inj (List.cons.inj hr).2).2
    have hnil := EscapeSequence.text_of_value_eq_none hvalue
    have hescape := EscapeSequence.read_fades (r := []) h (hnil.symm ▸ List.nil_prefix)
    exact ofChar_escape_of_none (hescape ▸ hvalue)
  | some value =>
    have hle : (EscapeSequence.read (r ++ behind)).text <+: r := by
      have hread := closeChar_content ('\'' :: '\\' :: (EscapeSequence.read (r ++ behind)).text)
        value ((EscapeSequence.read (r ++ behind)).faults 2)
        ((r ++ behind).drop (EscapeSequence.read (r ++ behind)).text.length)
      rw [← ofChar_escape_of_some hvalue, hr] at hread
      simpa using hread.1
    have hescape := EscapeSequence.read_fades h hle
    rw [ofChar_escape_of_some hvalue] at hr ⊢
    rw [ofChar_escape_of_some (hescape ▸ hvalue), hescape]
    generalize EscapeSequence.read (r ++ behind) = e at hle hr ⊢
    obtain ⟨u, rfl⟩ := hle
    rw [List.append_assoc, List.drop_left] at hr ⊢
    rw [List.append_assoc, List.drop_left]
    exact closeChar_fades h hr

theorem ofChar_fades (h : Fades behind faded) (hr : (ofChar (r ++ behind)).text = '\'' :: r) :
    ofChar (r ++ faded) = ofChar (r ++ behind) := by
  by_cases hends : LineEnds (r ++ behind)
  · rw [ofChar_lineEnds hends] at hr ⊢
    obtain rfl : [] = r := (List.cons.inj hr).2
    exact ofChar_lineEnds (h.lineEnds hends)
  cases r with
  | nil =>
    cases behind with
    | nil => exact absurd (.inl rfl) hends
    | cons c rest =>
      have hc : c ≠ '\n' := fun hc => hends (.inr ⟨rest, by rw [hc]; rfl⟩)
      have hlength := (ofChar_takes hc rest).length_le
      rw [show (ofChar (c :: rest)).text = ['\''] from hr] at hlength
      exact absurd hlength (Nat.not_succ_le_self 1)
  | cons c r =>
    have hn : c ≠ '\n' := fun hc => hends (.inr ⟨r ++ behind, by rw [hc]; rfl⟩)
    by_cases hb : c = '\\'
    · subst hb
      exact ofChar_escape_fades h hr
    · by_cases hq : c = '\''
      · subst hq
        rfl
      · have heq (rest : List Char) : ofChar (c :: rest) = closeChar ['\'', c] c [] rest := by
          rw [ofChar, if_neg hn, if_neg hq, if_neg hb]
        rw [List.cons_append, heq] at hr ⊢
        rw [List.cons_append, heq]
        exact closeChar_fades h hr

/-! ## Numbers, words and marks -/

theorem ofDigits_text (digits : List Char) : (ofDigits digits).text = digits := by
  unfold ofDigits
  dsimp only
  split <;> rfl

theorem ofNumber_of_point {digits : List Char} (hd : ∀ c ∈ digits, c.isDigit = true)
    (rest : List Char) :
    ofNumber (digits ++ '.' :: rest) =
      if rest.head? = some '.' then ofDigits digits
      else ofPointed digits (rest.takeWhile Char.isDigit) := by
  obtain ⟨htake, hdrop⟩ := takeWhile_digits rest hd
  simp only [ofNumber, htake, hdrop]

theorem ofNumber_of_no_point {digits rest : List Char} (hd : ∀ c ∈ digits, c.isDigit = true)
    (hrest : rest.takeWhile Char.isDigit = []) (hpoint : rest.head? ≠ some '.') :
    ofNumber (digits ++ rest) = ofDigits digits := by
  have hdrop : rest.dropWhile Char.isDigit = rest := by
    have hwhole := List.takeWhile_append_dropWhile (p := Char.isDigit) (l := rest)
    rwa [hrest] at hwhole
  unfold ofNumber
  rw [List.takeWhile_append_of_pos hd, List.dropWhile_append_of_pos hd, hrest, hdrop,
    List.append_nil]
  dsimp only
  split
  · exact absurd rfl hpoint
  · rfl

theorem takeWhile_isPrefix_ofNumber (text : List Char) :
    text.takeWhile Char.isDigit <+: (ofNumber text).text := by
  unfold ofNumber
  dsimp only
  split
  · split
    · exact (ofDigits_text _).symm ▸ List.prefix_rfl
    · exact List.prefix_append _ _
  · exact (ofDigits_text _).symm ▸ List.prefix_rfl

/-- A number that a point belongs to. -/
theorem ofNumber_point_fades (h : Fades behind faded) {digits : List Char}
    (hd : ∀ c ∈ digits, c.isDigit = true)
    (hr : (ofNumber (digits ++ '.' :: (r ++ behind))).text = digits ++ '.' :: r) :
    ofNumber (digits ++ '.' :: (r ++ faded)) = ofNumber (digits ++ '.' :: (r ++ behind)) := by
  rw [ofNumber_of_point hd] at hr ⊢
  rw [ofNumber_of_point hd]
  by_cases hnext : (r ++ behind).head? = some '.'
  · rw [if_pos hnext, ofDigits_text] at hr
    exact absurd (List.append_right_eq_self.mp hr.symm) (List.cons_ne_nil _ _)
  · rw [if_neg hnext] at hr
    have hfraction : (r ++ behind).takeWhile Char.isDigit = r :=
      (List.cons.inj (List.append_cancel_left hr)).2
    have hnext' : ¬ (r ++ faded).head? = some '.' := fun hhead =>
      hnext (h.head? (by decide) r hhead)
    rw [if_neg hnext, if_neg hnext', h.takeWhile_eq_self rfl hfraction, hfraction]

theorem ofNumber_fades (h : Fades behind faded)
    (hpoints : ['.', '.'] <+: behind → ['.', '.'] <+: faded)
    (hr : (ofNumber (r ++ behind)).text = r) : ofNumber (r ++ faded) = ofNumber (r ++ behind) := by
  have hle : (r ++ behind).takeWhile Char.isDigit <+: r := by
    have hle := takeWhile_isPrefix_ofNumber (r ++ behind)
    rwa [hr] at hle
  have hdigits := h.takeWhile_eq (p := Char.isDigit) rfl hle
  have hd : ∀ c ∈ (r ++ behind).takeWhile Char.isDigit, c.isDigit = true := fun _ => mem_takeWhile
  generalize hrun : (r ++ behind).takeWhile Char.isDigit = digits at hle hdigits hd
  obtain ⟨u, rfl⟩ := hle
  rw [List.append_assoc, List.takeWhile_append_of_pos hd, List.append_right_eq_self] at hrun hdigits
  rw [List.append_assoc] at hr ⊢
  rw [List.append_assoc]
  by_cases hpoint : (u ++ behind).head? = some '.'
  · cases u with
    | nil =>
      -- The number ends in front of a point, which is thus followed by another one.
      obtain ⟨rest, rfl⟩ := List.head?_eq_some_iff.mp hpoint
      rw [List.nil_append, List.append_nil, ofNumber_of_point hd] at hr
      by_cases hnext : rest.head? = some '.'
      · obtain ⟨rest, rfl⟩ := List.head?_eq_some_iff.mp hnext
        obtain ⟨faded, rfl⟩ := hpoints (List.prefix_append ['.', '.'] rest)
        exact (ofNumber_of_point hd ('.' :: faded)).trans (ofNumber_of_point hd ('.' :: rest)).symm
      · rw [if_neg hnext] at hr
        exact absurd (List.append_right_eq_self.mp hr) (List.cons_ne_nil _ _)
    | cons c u =>
      obtain rfl : c = '.' := Option.some.inj hpoint
      exact ofNumber_point_fades h hd hr
  · rw [ofNumber_of_no_point hd hrun hpoint, ofNumber_of_no_point hd hdigits]
    exact fun hpoint' => hpoint (h.head? (by decide) u hpoint')

theorem ofWord_fades (h : Fades behind faded) (hr : (ofWord (r ++ behind)).text = r) :
    ofWord (r ++ faded) = ofWord (r ++ behind) := by
  have hword : (r ++ behind).takeWhile isWordRest = r := hr
  rw [ofWord, ofWord, h.takeWhile_eq_self rfl hword, hword]

/-- Digits behind a point stay where they are. -/
theorem fraction_fades (h : Fades behind faded) (hany : (r ++ behind).head?.any Char.isDigit = true)
    (hr : (r ++ behind).takeWhile Char.isDigit = r) :
    (r ++ faded).head?.any Char.isDigit = true ∧
      (r ++ faded).takeWhile Char.isDigit = r := by
  refine ⟨?_, h.takeWhile_eq_self rfl hr⟩
  cases r with
  | nil =>
    cases behind with
    | nil => cases hany
    | cons d behind =>
      have hd : d.isDigit = true := hany
      rw [List.nil_append, List.takeWhile_cons_of_pos hd] at hr
      cases hr
  | cons d r => exact hany

theorem space_notMem_text (p : Punctuator) : ' ' ∉ p.text.toList := by
  cases p <;> decide

theorem punctuator?_fades (h : Fades behind faded) {p : Punctuator}
    (hp : punctuator? (p.text.toList ++ behind) = some p) :
    punctuator? (p.text.toList ++ faded) = some p := by
  obtain ⟨-, before, after, hall, hbefore⟩ := List.find?_eq_some_iff_append.mp hp
  refine List.find?_eq_some_iff_append.mpr ⟨?_, before, after, hall, fun q hq => ?_⟩
  · exact List.isPrefixOf_iff_prefix.mpr (List.prefix_append _ _)
  · -- A mark in front of `p` in the table would have fitted before.
    have hq := hbefore q hq
    rw [Bool.not_eq_true', Bool.eq_false_iff, ne_eq, List.isPrefixOf_iff_prefix] at hq ⊢
    exact fun hpre => hq (h.isPrefix (space_notMem_text q) _ hpre)

/-! ## Lexemes -/

/-- The first segment of a text that begins with neither a blank nor a comment. -/
theorem first_eq {c : Char} {rest : List Char} (hblank : ¬ isBlank c = true)
    (hline : ¬ (c = '/' ∧ rest.head? = some '/')) (hblock : ¬ (c = '/' ∧ rest.head? = some '*')) :
    first c rest =
      if c = '"' then ofString rest
      else if c = '\'' then ofChar rest
      else if c.isDigit then ofNumber (c :: rest)
      else if isWordStart c then ofWord (c :: rest)
      else if c = '.' ∧ rest.head?.any Char.isDigit then ofPointed [] (rest.takeWhile Char.isDigit)
      else match punctuator? (c :: rest) with
        | some p => ofLexeme p.text.toList (.punctuator p) []
        | none => ⟨[c], .illegal, [⟨0, .illegalCharacter c⟩]⟩ :=
  (if_neg hblank).trans ((if_neg hline).trans (if_neg hblock))

/-- The first segment of a text that begins with no blank, no slash and no quote. -/
theorem first_of_notMem {c : Char} (hc : c ∉ [' ', '\t', '\r', '\n', '/', '"', '\''])
    (rest : List Char) :
    first c rest =
      if c.isDigit then ofNumber (c :: rest)
      else if isWordStart c then ofWord (c :: rest)
      else if c = '.' ∧ rest.head?.any Char.isDigit then ofPointed [] (rest.takeWhile Char.isDigit)
      else match punctuator? (c :: rest) with
        | some p => ofLexeme p.text.toList (.punctuator p) []
        | none => ⟨[c], .illegal, [⟨0, .illegalCharacter c⟩]⟩ := by
  simp only [List.mem_cons, List.not_mem_nil, or_false, not_or] at hc
  obtain ⟨hspace, htab, hreturn, hline, hslash, hstring, hchar⟩ := hc
  have hblank : ¬ isBlank c = true := by simp [isBlank, hspace, htab, hreturn, hline]
  rw [first_eq hblank (fun h => hslash h.1) (fun h => hslash h.1), if_neg hstring, if_neg hchar]

theorem first_of_isDigit {c : Char} (hc : c.isDigit = true) (rest : List Char) :
    first c rest = ofNumber (c :: rest) := by
  have hnone : ∀ d ∈ [' ', '\t', '\r', '\n', '/', '"', '\''], ¬ d.isDigit = true := by simp
  rw [first_of_notMem (fun hmem => hnone c hmem hc), if_pos hc]

theorem first_of_isWordStart {c : Char} (hc : isWordStart c = true) (rest : List Char) :
    first c rest = ofWord (c :: rest) := by
  have hnone : ∀ d ∈ [' ', '\t', '\r', '\n', '/', '"', '\''], ¬ isWordStart d = true := by
    simp [isWordStart]
  have hdigit : ¬ c.isDigit = true := fun hd =>
    Bool.false_ne_true ((isWordStart_of_isDigit hd).symm.trans hc)
  rw [first_of_notMem (fun hmem => hnone c hmem hc), if_neg hdigit, if_pos hc]

/-- A lexeme stays the same if characters behind it are made spaces, as long as two points stay. -/
theorem first_fades (h : Fades behind faded)
    (hpoints : ['.', '.'] <+: behind → ['.', '.'] <+: faded) {c : Char} {kind : Token.Kind}
    (hcontent : (first c (r ++ behind)).content = .lexeme kind)
    (hr : (first c (r ++ behind)).text = c :: r) :
    first c (r ++ faded) = first c (r ++ behind) := by
  have hhead {d : Char} (hd : d ≠ ' ') (hne : ¬ (c = '/' ∧ (r ++ behind).head? = some d)) :
      ¬ (c = '/' ∧ (r ++ faded).head? = some d) := fun ⟨hc, hfaded⟩ =>
    hne ⟨hc, h.head? hd r hfaded⟩
  by_cases hblank : isBlank c = true
  · rw [first, if_pos hblank] at hcontent
    cases hcontent
  by_cases hline : c = '/' ∧ (r ++ behind).head? = some '/'
  · rw [first, if_neg hblank, if_pos hline] at hcontent
    cases hcontent
  by_cases hblock : c = '/' ∧ (r ++ behind).head? = some '*'
  · rw [first, if_neg hblank, if_neg hline, if_pos hblock] at hcontent
    cases hcontent
  -- No comment begins here with the fading either.
  rw [first_eq hblank hline hblock] at hcontent hr ⊢
  rw [first_eq hblank (hhead (by decide) hline) (hhead (by decide) hblock)]
  by_cases hs : c = '"'
  · subst hs
    exact ofString_fades h hr
  by_cases hq : c = '\''
  · subst hq
    exact ofChar_fades h hr
  rw [if_neg hs, if_neg hq] at hcontent hr ⊢
  rw [if_neg hs, if_neg hq]
  by_cases hd : c.isDigit = true
  · rw [if_pos hd] at hr ⊢
    rw [if_pos hd]
    exact ofNumber_fades (r := c :: r) h hpoints hr
  by_cases hw : isWordStart c = true
  · rw [if_neg hd, if_pos hw] at hr ⊢
    rw [if_neg hd, if_pos hw]
    exact ofWord_fades (r := c :: r) h hr
  rw [if_neg hd, if_neg hw] at hcontent hr ⊢
  rw [if_neg hd, if_neg hw]
  by_cases hpoint : c = '.' ∧ (r ++ behind).head?.any Char.isDigit = true
  · rw [if_pos hpoint] at hr ⊢
    have hfraction : (r ++ behind).takeWhile Char.isDigit = r := (List.cons.inj hr).2
    obtain ⟨hany, heq⟩ := fraction_fades h hpoint.2 hfraction
    rw [if_pos ⟨hpoint.1, hany⟩, heq, hfraction]
  · have hpoint' : ¬ (c = '.' ∧ (r ++ faded).head?.any Char.isDigit = true) := fun ⟨hc, hany⟩ =>
      hpoint ⟨hc, h.head?_any rfl r hany⟩
    rw [if_neg hpoint] at hcontent hr ⊢
    rw [if_neg hpoint']
    cases hp : punctuator? (c :: (r ++ behind)) with
    | none =>
      rw [hp] at hcontent
      cases hcontent
    | some p =>
      rw [hp] at hr
      have htext : p.text.toList = c :: r := hr
      have hp' := punctuator?_fades h (p := p) (by rw [htext]; exact hp)
      rw [htext] at hp'
      rw [← List.cons_append, hp']

end Segment

end CSubset
