-- SUMMARY: What the segments look like that a scan cuts off, whatever text follows.
import CSubset.Proofs.Token.Lexeme

/-!
# Forms of segments

`Segment.Fits` says what a segment looks like at the start of a text, by its content, and without
the functions that cut it off. The first segment of any text fits there (`Segment.first_fits`):
the lexeme of a mark, word or number is the longest, and no lexeme leaves its line.
-/

namespace CSubset

/-- The texts that can be the lexeme of a token. -/
def Token.Kind.Spells : Token.Kind → List Char → Prop
  | .keyword word, w => w = word.text.toList
  | .punctuator mark, w => w = mark.text.toList
  | .identifier name, w => w = name.toList ∧ IsWord w ∧ ∀ k : Keyword, k.text ≠ name
  | .intLiteral _, w => IsDigits w
  | .floatLiteral _, w => IsPointed w
  | .charLiteral _, w => w.head? = some '\''
  | .stringLiteral _, w => w.head? = some '"'

theorem Token.Kind.spells_ne_nil (kind : Token.Kind) {w : List Char} (h : kind.Spells w) :
    w ≠ [] := by
  cases kind with
  | keyword word =>
    rw [show w = word.text.toList from h]
    cases word <;> decide
  | punctuator mark => exact (show w = mark.text.toList from h) ▸ mark.text_ne_nil
  | identifier name => exact IsPlain.ne_nil (.inr (.inl h.2.1))
  | intLiteral value => exact h.1
  | floatLiteral value => exact IsPlain.ne_nil (.inr (.inr (.inr h)))
  | charLiteral value | stringLiteral value =>
    rintro rfl
    cases h

/-- Whether a token is a string or character literal. -/
def Token.Kind.isText : Token.Kind → Bool
  | .charLiteral _ => true
  | .stringLiteral _ => true
  | _ => false

namespace Segment

/-- What a segment looks like at the start of a text. A line comment goes on to the end of its
line; a block comment to the first closing mark, or to the end of the text if there is none; an
illegal character is one that nothing else begins with. -/
def HasForm (s : Segment) (text : List Char) : Prop :=
  match s.content with
  | .blank => ∃ c ∈ [' ', '\t', '\r', '\n'], s.text = [c]
  | .lineComment => ∃ line, s.text = '/' :: '/' :: line ∧ '\n' ∉ line ∧
      (text = s.text ∨ ∃ rest, text = s.text ++ '\n' :: rest)
  | .blockComment => ∃ body,
      s.text = '/' :: '*' :: (body ++ ['*', '/']) ∧ ¬ ['*', '/'] <:+: body ++ ['*'] ∨
        s.text = '/' :: '*' :: body ∧ ¬ ['*', '/'] <:+: body ∧ text = s.text
  | .illegal => ∃ c, s.text = [c] ∧ c ∉ [' ', '\t', '\r', '\n', '"', '\''] ∧
      ∀ v, v <+: text → ¬ IsPlain v
  | .lexeme kind => kind.Spells s.text ∧ '\n' ∉ s.text ∧
      (kind.isText = false → LongestLexeme text s.text)

/-- A segment consists of the first characters of a text and has a form that belongs there. -/
structure Fits (s : Segment) (text : List Char) : Prop where
  isPrefix : s.text <+: text
  form : s.HasForm text

/-! ## Comments -/

theorem prefix_of_closing {c : Char} {text : List Char} (h : ['*', '/'] <+: c :: text) :
    c = '*' ∧ text.head? = some '/' := by
  obtain ⟨tail, h⟩ := h
  cases h
  exact ⟨rfl, rfl⟩

theorem commentBody_fits (text : List Char) :
    (commentBody text).1 <+: text ∧
      if (commentBody text).2 then
        ∃ body, (commentBody text).1 = body ++ ['*', '/'] ∧ ¬ ['*', '/'] <:+: body ++ ['*']
      else (commentBody text).1 = text ∧ ¬ ['*', '/'] <:+: text := by
  induction text with
  | nil => simp [commentBody]
  | cons c rest ih =>
    obtain ⟨hpre, ih⟩ := ih
    unfold commentBody
    split
    · next h =>
      obtain ⟨rfl, hrest⟩ := h
      cases rest with
      | nil => cases hrest
      | cons d rest =>
        cases hrest
        refine ⟨List.prefix_append ['*', '/'] rest, [], rfl, fun h => ?_⟩
        exact absurd h.length_le (by decide)
    · next h =>
      refine ⟨(List.prefix_cons_inj _).mpr hpre, ?_⟩
      dsimp only
      split
      · next hclosed =>
        rw [if_pos hclosed] at ih
        obtain ⟨body, hbody, hno⟩ := ih
        refine ⟨c :: body, by rw [hbody, List.cons_append], fun hinfix => ?_⟩
        rcases List.infix_cons_iff.mp hinfix with hstart | hinfix
        · obtain ⟨hc, hslash⟩ := prefix_of_closing hstart
          refine h ⟨hc, ?_⟩
          obtain ⟨tail, rfl⟩ := hbody ▸ hpre
          cases body with
          | nil => cases hslash
          | cons d body => exact hslash
        · exact hno hinfix
      · next hclosed =>
        rw [if_neg hclosed] at ih
        obtain ⟨hall, hno⟩ := ih
        refine ⟨by rw [hall], fun hinfix => ?_⟩
        rcases List.infix_cons_iff.mp hinfix with hstart | hinfix
        · exact h (prefix_of_closing hstart)
        · exact hno hinfix

/-! ## Text literals -/

/-- A part of a text that stays in its line and consists of the text's next characters. -/
def Within (w text : List Char) : Prop := w <+: text ∧ '\n' ∉ w

theorem Within.nil (text : List Char) : Within [] text := ⟨List.nil_prefix, List.not_mem_nil⟩

theorem Within.cons {c : Char} {w text : List Char} (hc : c ≠ '\n') (h : Within w text) :
    Within (c :: w) (c :: text) := by
  refine ⟨(List.prefix_cons_inj _).mpr h.1, fun hmem => ?_⟩
  rcases List.mem_cons.mp hmem with rfl | hmem
  · exact hc rfl
  · exact h.2 hmem

theorem Within.append {v w text : List Char} (h : Within v text)
    (h' : Within w (text.drop v.length)) : Within (v ++ w) text := by
  obtain ⟨⟨rest, rfl⟩, hv⟩ := h
  rw [List.drop_left] at h'
  refine ⟨(List.prefix_append_right_inj _).mpr h'.1, fun hmem => ?_⟩
  rcases List.mem_append.mp hmem with hmem | hmem
  · exact hv hmem
  · exact h'.2 hmem

theorem Within.takeWhile {p : Char → Bool} (hp : p '\n' = false) (text : List Char) :
    Within (text.takeWhile p) text := by
  refine ⟨List.takeWhile_prefix _, fun hmem => ?_⟩
  rw [mem_takeWhile hmem] at hp
  cases hp

end Segment

open Segment

theorem EscapeSequence.read_within (text : List Char) : Within (read text).text text := by
  cases text with
  | nil => exact .nil _
  | cons c rest =>
    have hdigits : Within ((rest.take 2).takeWhile isHexDigit) rest :=
      ⟨(List.takeWhile_prefix _).trans (List.take_prefix _ _), (Within.takeWhile rfl _).2⟩
    rw [read]
    split
    · exact .nil _
    · next hc =>
      split
      · dsimp only
        split
        · exact (Within.nil _).cons hc
        · exact hdigits.cons hc
      · split <;> exact (Within.nil _).cons hc

theorem StringBody.read_within (offset : Nat) (text : List Char) :
    Within (read offset text).text text := by
  fun_induction read offset text with
  | case1 => exact .nil _
  | case2 => exact .nil _
  | case3 _ rest => exact (Within.nil rest).cons (by decide)
  | case4 _ rest _ _ e body ih =>
    exact Within.cons (by decide) ((EscapeSequence.read_within rest).append ih)
  | case5 _ c rest hc _ _ _ ih => exact ih.cons hc

namespace Segment

theorem closeChar_within {read : List Char} {text rest : List Char} (value : Char)
    (faults : List Fault) (hread : Within read text) (hrest : text.drop read.length = rest) :
    Within (closeChar read value faults rest).text text := by
  subst hrest
  unfold closeChar
  split
  · next hquote =>
    refine hread.append ?_
    cases h : text.drop read.length with
    | nil =>
      rw [h] at hquote
      cases hquote
    | cons c tail =>
      rw [h] at hquote
      cases hquote
      exact (Within.nil _).cons (by decide)
  · dsimp only
    split
    · next hmem =>
      rw [ofLexeme, List.append_assoc]
      refine hread.append ?_
      generalize text.drop read.length = rest at hmem
      induction rest with
      | nil => cases hmem
      | cons c tail ih =>
        by_cases hn : c = '\n'
        · subst hn
          cases hmem
        · rw [List.takeWhile_cons_of_pos (by simpa using hn)] at hmem ⊢
          by_cases hq : c = '\''
          · subst hq
            exact (Within.nil _).cons (by decide)
          · rw [List.takeWhile_cons_of_pos (by simpa using hq), List.cons_append]
            refine (ih ?_).cons hn
            rcases List.mem_cons.mp hmem with h | h
            · exact absurd h.symm hq
            · exact h
    · exact hread

theorem ofChar_within (rest : List Char) : Within (ofChar rest).text ('\'' :: rest) := by
  have hquote : Within ['\''] ('\'' :: rest) := (Within.nil _).cons (by decide)
  unfold ofChar
  split
  · exact hquote
  · next c rest =>
    split
    · exact hquote
    · next hn =>
      split
      · next hq =>
        subst hq
        exact ((Within.nil _).cons (by decide)).cons (by decide)
      · split
        · next hb =>
          subst hb
          dsimp only
          split
          · exact ((Within.nil _).cons (by decide)).cons (by decide)
          · refine closeChar_within _ _ ?_ rfl
            exact ((EscapeSequence.read_within rest).cons (by decide)).cons (by decide)
        · exact closeChar_within _ _ (((Within.nil _).cons hn).cons (by decide)) rfl

theorem closeChar_content (read : List Char) (value : Char) (faults : List Fault)
    (rest : List Char) : read <+: (closeChar read value faults rest).text ∧
      (closeChar read value faults rest).content = .lexeme (.charLiteral value) := by
  unfold closeChar
  split
  · exact ⟨List.prefix_append _ _, rfl⟩
  · dsimp only
    split
    · exact ⟨(List.prefix_append _ _).trans (List.prefix_append _ _), rfl⟩
    · exact ⟨List.prefix_rfl, rfl⟩

theorem ofChar_content (rest : List Char) : (ofChar rest).text.head? = some '\'' ∧
    ∃ value, (ofChar rest).content = .lexeme (.charLiteral value) := by
  have hclose (read : List Char) (value : Char) (faults : List Fault) (rest : List Char) :
      (closeChar ('\'' :: read) value faults rest).text.head? = some '\'' ∧
        ∃ v, (closeChar ('\'' :: read) value faults rest).content = .lexeme (.charLiteral v) := by
    obtain ⟨⟨tail, htext⟩, hcontent⟩ := closeChar_content ('\'' :: read) value faults rest
    exact ⟨by rw [← htext]; rfl, value, hcontent⟩
  unfold ofChar
  split
  · exact ⟨rfl, _, rfl⟩
  · split
    · exact ⟨rfl, _, rfl⟩
    · split
      · exact ⟨rfl, _, rfl⟩
      · split
        · dsimp only
          split
          · exact ⟨rfl, _, rfl⟩
          · exact hclose _ _ _ _
        · exact hclose _ _ _ _

/-! ## The first segment -/

/-- A lexeme in one line that spells its token fits where it is the longest. -/
theorem ofLexeme_fits {w text : List Char} {kind : Token.Kind} (faults : List Fault)
    (hspells : kind.Spells w) (hline : '\n' ∉ w) (hlongest : LongestLexeme text w) :
    (ofLexeme w kind faults).Fits text :=
  ⟨hlongest.isPrefix, hspells, hline, fun _ => hlongest⟩

theorem ofNumber_fits {c : Char} (rest : List Char) (hc : c.isDigit = true) :
    (ofNumber (c :: rest)).Fits (c :: rest) := by
  have hdigits := isDigits_takeWhile rest hc
  have hline := (Within.takeWhile (p := Char.isDigit) rfl (c :: rest)).2
  have hint (h : LongestLexeme (c :: rest) ((c :: rest).takeWhile Char.isDigit)) :
      (ofDigits ((c :: rest).takeWhile Char.isDigit)).Fits (c :: rest) := by
    unfold ofDigits
    dsimp only
    split
    · exact ofLexeme_fits _ hdigits hline h
    · exact ofLexeme_fits _ hdigits hline h
  unfold ofNumber
  dsimp only
  split
  · next behind hb =>
    have htext := List.takeWhile_append_dropWhile (p := Char.isDigit) (l := c :: rest)
    split
    · next hnext =>
      cases behind with
      | nil => cases hnext
      | cons d behind =>
        cases hnext
        rw [hb] at htext
        exact hint (.inl ⟨hdigits, behind, htext.symm⟩)
    · next hnext =>
      have hlongest := pointed_longest hc hb hnext
      refine ofLexeme_fits _ ?_ ?_ hlongest
      · refine ⟨_, _, rfl, List.append_ne_nil_of_left_ne_nil hdigits.1 _, fun x hx => ?_⟩
        rcases List.mem_append.mp hx with hx | hx
        · exact mem_takeWhile hx
        · exact mem_takeWhile hx
      · intro hmem
        rcases List.mem_append.mp hmem with hmem | hmem
        · exact hline hmem
        · rcases List.mem_cons.mp hmem with hmem | hmem
          · cases hmem
          · exact (Within.takeWhile (p := Char.isDigit) rfl behind).2 hmem
  · next hb =>
    refine hint (digits_longest hc fun hhead => ?_)
    cases h : (c :: rest).dropWhile Char.isDigit with
    | nil =>
      rw [h] at hhead
      cases hhead
    | cons d behind =>
      rw [h] at hhead
      cases hhead
      exact hb behind h

theorem ofWord_fits {c : Char} (rest : List Char) (hc : isWordStart c = true) :
    (ofWord (c :: rest)).Fits (c :: rest) := by
  have hlongest := word_longest rest hc
  have hline := (Within.takeWhile (p := isWordRest) rfl (c :: rest)).2
  have hword : IsWord ((c :: rest).takeWhile isWordRest) := by
    refine ⟨c, rest.takeWhile isWordRest, ?_, hc, fun x hx => mem_takeWhile hx⟩
    rw [List.takeWhile_cons_of_pos (isWordRest_of_isWordStart hc)]
  refine ofLexeme_fits _ ?_ hline (.inr ⟨?_, hlongest⟩)
  · cases hk : Keyword.ofText? (String.ofList ((c :: rest).takeWhile isWordRest)) with
    | some k =>
      have htext : k.text = String.ofList ((c :: rest).takeWhile isWordRest) := by
        simpa using List.find?_some hk
      show _ = k.text.toList
      rw [htext, String.toList_ofList]
    | none =>
      refine ⟨(String.toList_ofList ..).symm, hword, fun k hname => ?_⟩
      have := List.find?_eq_none.mp hk k k.mem_all
      simp [hname] at this
  · rintro ⟨digits, ⟨hne, hall⟩, behind, hb⟩
    cases digits with
    | nil => exact hne rfl
    | cons d digits =>
      obtain ⟨rfl, -⟩ := List.cons.inj hb
      rw [isWordStart_of_isDigit (hall _ (List.mem_cons_self ..))] at hc
      cases hc

theorem mem_blank_iff {c : Char} : c ∈ [' ', '\t', '\r', '\n'] ↔ isBlank c = true := by
  simp [isBlank, or_assoc]

theorem Fits.ne_nil {s : Segment} {text : List Char} (h : s.Fits text) : s.text ≠ [] := by
  obtain ⟨-, h⟩ := h
  unfold HasForm at h
  split at h
  · obtain ⟨c, -, h⟩ := h
    simp [h]
  · obtain ⟨line, h, -⟩ := h
    simp [h]
  · obtain ⟨body, ⟨h, -⟩ | ⟨h, -⟩⟩ := h <;> simp [h]
  · obtain ⟨c, h, -⟩ := h
    simp [h]
  · next kind _ => exact kind.spells_ne_nil h.1

/-- The first segment of a text fits there. -/
theorem first_fits (c : Char) (rest : List Char) : (first c rest).Fits (c :: rest) := by
  unfold first
  split
  · next hblank => exact ⟨List.prefix_append [c] rest, c, mem_blank_iff.mpr hblank, rfl⟩
  next hblank =>
  split
  · next hslash =>
    obtain ⟨rfl, hslash⟩ := hslash
    cases rest with
    | nil => cases hslash
    | cons d rest =>
      cases hslash
      refine ⟨?_, rest.takeWhile (· ≠ '\n'), rfl, fun hmem => ?_, ?_⟩
      · exact (List.prefix_append_right_inj ['/', '/']).mpr (List.takeWhile_prefix _)
      · simpa using mem_takeWhile hmem
      · have htext := List.takeWhile_append_dropWhile (p := (· ≠ '\n')) (l := rest)
        cases h : rest.dropWhile (· ≠ '\n') with
        | nil =>
          rw [h, List.append_nil] at htext
          exact .inl (congrArg (['/', '/'] ++ ·) htext.symm)
        | cons x tail =>
          obtain rfl : x = '\n' := by
            have hhead := List.head?_dropWhile_not (· ≠ '\n') rest
            rw [h] at hhead
            simpa using hhead
          rw [h] at htext
          exact .inr ⟨tail, congrArg (['/', '/'] ++ ·) htext.symm⟩
  next hline =>
  split
  · next hstar =>
    obtain ⟨rfl, hstar⟩ := hstar
    cases rest with
    | nil => cases hstar
    | cons d rest =>
      cases hstar
      obtain ⟨hpre, h⟩ := commentBody_fits rest
      refine ⟨(List.prefix_append_right_inj ['/', '*']).mpr hpre, ?_⟩
      show HasForm (ofComment rest) _
      unfold ofComment HasForm
      dsimp only
      split at h
      · obtain ⟨body, hbody, hno⟩ := h
        exact ⟨body, .inl ⟨by rw [hbody], hno⟩⟩
      · obtain ⟨hall, hno⟩ := h
        exact ⟨rest, .inr ⟨by rw [hall], hno, by rw [hall]⟩⟩
  next hblock =>
  split
  · next hquote =>
    subst hquote
    have h := (StringBody.read_within 1 rest).cons (c := '"') (by decide)
    exact ⟨h.1, rfl, h.2, nofun⟩
  next hquote =>
  split
  · next hquote' =>
    subst hquote'
    obtain ⟨hhead, value, hcontent⟩ := ofChar_content rest
    have h := ofChar_within rest
    refine ⟨h.1, ?_⟩
    rw [HasForm, hcontent]
    exact ⟨hhead, h.2, nofun⟩
  next hquote' =>
  split
  · next hdigit => exact ofNumber_fits rest hdigit
  next hdigit =>
  split
  · next hword => exact ofWord_fits rest hword
  next hword =>
  split
  · next hpoint =>
    obtain ⟨rfl, hpoint⟩ := hpoint
    have hd : (rest.takeWhile Char.isDigit) ≠ [] := by
      cases rest with
      | nil => cases hpoint
      | cons d rest => exact (isDigits_takeWhile rest hpoint).1
    refine ofLexeme_fits _ ⟨[], _, rfl, hd, fun x hx => mem_takeWhile hx⟩ ?_
      (fraction_longest hpoint)
    exact ((Within.takeWhile (p := Char.isDigit) rfl rest).cons (c := '.') (by decide)).2
  next hpoint =>
  split
  · next p hp =>
    have hlongest := punctuator?_longest hp
    refine ofLexeme_fits _ rfl (fun hmem => (p.text_chars _ hmem).2.2 rfl) (.inr ⟨?_, ?_⟩)
    · rintro ⟨digits, ⟨hne, hall⟩, behind, hb⟩
      cases digits with
      | nil => exact hne rfl
      | cons d digits =>
        obtain ⟨rfl, -⟩ := List.cons.inj hb
        exact hdigit (hall _ (List.mem_cons_self ..))
    · exact hlongest.plain (.inl hlongest.mem) fun v hv h =>
        mark_of_plain hdigit hword hpoint hv h
  · next hp =>
    refine ⟨List.prefix_append [c] rest, c, rfl, ?_, fun v hv h => ?_⟩
    · intro hmem
      rw [← mem_blank_iff] at hblank
      simp only [List.mem_cons, List.not_mem_nil, or_false] at hmem hblank
      grind
    · exact punctuator?_none hp hv (mark_of_plain hdigit hword hpoint hv h)

end Segment

end CSubset
