-- SUMMARY: Whatever is wrong in a line, the scan of the next line does not know of it.
import CSubset.Proofs.Token.Partition

/-!
# Line ends

Only a block comment reaches past the end of its line. Every other segment is the same before a
newline as before the end of the text, so a text and a newline are scanned as the text alone, and
what follows is scanned as if it stood by itself, some lines further down.
-/

namespace CSubset

/-! ## Reading up to a line end -/

section Characters

variable {p : Char → Bool} (behind : List Char)

theorem takeWhile_line (hp : p '\n' = false) (text : List Char) :
    (text ++ '\n' :: behind).takeWhile p = text.takeWhile p := by
  induction text with
  | nil => simp [hp]
  | cons c rest ih => simp [List.takeWhile_cons, ih]

theorem dropWhile_line (hp : p '\n' = false) (text : List Char) :
    (text ++ '\n' :: behind).dropWhile p = text.dropWhile p ++ '\n' :: behind := by
  induction text with
  | nil => simp [hp]
  | cons c rest ih =>
    simp only [List.cons_append, List.dropWhile_cons, ih]
    split <;> rfl

theorem take_takeWhile_line (hp : p '\n' = false) (n : Nat) (text : List Char) :
    ((text ++ '\n' :: behind).take n).takeWhile p = (text.take n).takeWhile p := by
  rw [List.take_append]
  cases n - text.length with
  | zero => rw [List.take_zero, List.append_nil]
  | succ k => rw [List.take_succ_cons, takeWhile_line _ hp]

theorem head?_line {c : Char} (hc : c ≠ '\n') (text : List Char) :
    (text ++ '\n' :: behind).head? = some c ↔ text.head? = some c := by
  cases text with
  | nil => simp [Ne.symm hc]
  | cons d rest => rfl

theorem head?_any_line (hp : p '\n' = false) (text : List Char) :
    (text ++ '\n' :: behind).head?.any p = text.head?.any p := by
  cases text with
  | nil => exact hp
  | cons d rest => rfl

theorem prefix_line {w : List Char} (hw : '\n' ∉ w) (text : List Char) :
    w <+: text ++ '\n' :: behind ↔ w <+: text := by
  refine ⟨fun h => ?_, fun h => h.trans (List.prefix_append _ _)⟩
  have hline : w <+: (text ++ '\n' :: behind).takeWhile (· ≠ '\n') :=
    prefix_takeWhile h fun x hx => by simpa using ne_of_mem_of_not_mem hx hw
  rw [takeWhile_line _ (by decide)] at hline
  exact hline.trans (List.takeWhile_prefix _)

end Characters

/-! ## Escape sequences and literals -/

variable (behind : List Char)

namespace EscapeSequence

theorem read_line (text : List Char) : read (text ++ '\n' :: behind) = read text := by
  cases text with
  | nil => rfl
  | cons c rest => rw [List.cons_append, read, read, take_takeWhile_line _ rfl]

end EscapeSequence

/-- Behind a part of a text, a line end is where it was. -/
theorem Segment.Within.drop_line {w text : List Char} (h : Segment.Within w text) :
    (text ++ '\n' :: behind).drop w.length = text.drop w.length ++ '\n' :: behind :=
  List.drop_append_of_le_length h.1.length_le

theorem StringBody.read_line (offset : Nat) (text : List Char) :
    read offset (text ++ '\n' :: behind) = read offset text := by
  fun_induction read offset text with
  | case1 offset => rw [List.nil_append, read, if_pos rfl]
  | case2 offset rest => rw [List.cons_append, read, if_pos rfl]
  | case3 offset rest hn => rw [List.cons_append, read, if_neg hn, if_pos rfl]
  | case4 offset rest e body hn hq ih =>
    have hescape := (EscapeSequence.read_within rest).drop_line behind
    rw [List.cons_append, read, if_neg hn, if_neg hq, if_pos rfl, EscapeSequence.read_line]
    dsimp only [e, body] at ih ⊢
    rw [hescape, ih]
  | case5 offset c rest hn hq hb body ih =>
    rw [List.cons_append, read, if_neg hn, if_neg hq, if_neg hb, ih]

namespace Segment

theorem closeChar_line (read : List Char) (value : Char) (faults : List Fault)
    (rest : List Char) :
    closeChar read value faults (rest ++ '\n' :: behind) = closeChar read value faults rest := by
  simp only [closeChar, head?_line behind (show '\'' ≠ '\n' by decide),
    takeWhile_line behind (p := (· ≠ '\n')) rfl]

theorem ofChar_line (rest : List Char) : ofChar (rest ++ '\n' :: behind) = ofChar rest := by
  cases rest with
  | nil => rfl
  | cons c rest =>
    simp only [List.cons_append, ofChar, EscapeSequence.read_line, closeChar_line,
      (EscapeSequence.read_within rest).drop_line behind]

theorem ofString_line (rest : List Char) : ofString (rest ++ '\n' :: behind) = ofString rest := by
  rw [ofString, ofString, StringBody.read_line]

theorem ofNumber_line (text : List Char) : ofNumber (text ++ '\n' :: behind) = ofNumber text := by
  unfold ofNumber
  rw [takeWhile_line behind rfl, dropWhile_line behind rfl]
  dsimp only
  cases text.dropWhile Char.isDigit with
  | nil => rfl
  | cons c rest =>
    by_cases hc : c = '.'
    · subst hc
      simp only [List.cons_append, head?_line behind (show '.' ≠ '\n' by decide),
        takeWhile_line behind (p := Char.isDigit) rfl]
    · simp [hc]

theorem ofWord_line (text : List Char) : ofWord (text ++ '\n' :: behind) = ofWord text := by
  rw [ofWord, ofWord, takeWhile_line behind rfl]

/-! ## Marks and comments -/

theorem punctuator?_line (text : List Char) :
    punctuator? (text ++ '\n' :: behind) = punctuator? text := by
  unfold punctuator?
  congr 1
  funext p
  have hline : '\n' ∉ p.text.toList := fun h => (p.text_chars _ h).2.2 rfl
  rw [Bool.eq_iff_iff, List.isPrefixOf_iff_prefix, List.isPrefixOf_iff_prefix,
    prefix_line behind hline]

/-- A comment that is closed is closed whatever follows. -/
theorem commentBody_append {text : List Char} (h : (commentBody text).2 = true)
    (more : List Char) : commentBody (text ++ more) = commentBody text := by
  induction text with
  | nil => cases h
  | cons c rest ih =>
    rw [List.cons_append, commentBody, commentBody]
    rw [commentBody] at h
    split at h
    · next hend =>
      obtain ⟨hc, hrest⟩ := hend
      have hrest' : (rest ++ more).head? = some '/' := by
        rw [List.head?_append, hrest]
        rfl
      rw [if_pos ⟨hc, hrest'⟩, if_pos ⟨hc, hrest⟩]
    · next hend =>
      have hopen : ¬ (c = '*' ∧ (rest ++ more).head? = some '/') := by
        rintro ⟨hc, hrest⟩
        cases rest with
        | nil => cases h
        | cons d rest => exact hend ⟨hc, hrest⟩
      rw [if_neg hopen, if_neg hend, ih h]

theorem ofComment_append {rest : List Char}
    (h : ∀ f ∈ (ofComment rest).faults, f.kind ≠ .unterminatedComment) (more : List Char) :
    ofComment (rest ++ more) = ofComment rest := by
  have hclosed : (commentBody rest).2 = true := by
    by_contra hopen
    refine h ⟨0, .unterminatedComment⟩ ?_ rfl
    simp [ofComment, hopen]
  rw [ofComment, ofComment, commentBody_append hclosed]

/-! ## Segments -/

/-- The first segment of a text is the same before a line end, unless it is a comment that is not
closed. -/
theorem first_line {c : Char} {rest : List Char}
    (h : ∀ f ∈ (first c rest).faults, f.kind ≠ .unterminatedComment) :
    first c (rest ++ '\n' :: behind) = first c rest := by
  have hslash := head?_line behind (show '/' ≠ '\n' by decide) rest
  have hstar := head?_line behind (show '*' ≠ '\n' by decide) rest
  unfold first at h ⊢
  rw [takeWhile_line behind rfl, takeWhile_line behind rfl, ofString_line, ofChar_line,
    head?_any_line behind rfl, ← List.cons_append, ofNumber_line, ofWord_line, punctuator?_line]
  simp only [hslash, hstar]
  split
  · rfl
  next hblank =>
  split
  · rfl
  next hline =>
  split
  · next hopening =>
    obtain ⟨d, rest, rfl⟩ : ∃ d r, rest = d :: r := by
      cases rest with
      | nil => cases hopening.2
      | cons d r => exact ⟨d, r, rfl⟩
    rw [if_neg hblank, if_neg hline, if_pos hopening] at h
    exact ofComment_append h _
  · rfl

end Segment

theorem segments_line {text : List Char}
    (h : ∀ s ∈ segments text, ∀ f ∈ s.faults, f.kind ≠ .unterminatedComment) :
    segments (text ++ '\n' :: behind) =
      segments text ++ ⟨['\n'], .blank, []⟩ :: segments behind := by
  induction text using segments_induction with
  | nil => simp [segments, Segment.first, Segment.isBlank]
  | cons c rest ahead htext hsegments ih =>
    rw [hsegments, List.forall_mem_cons] at h
    obtain ⟨ahead', htext', hsegments'⟩ := segments_cons c (rest ++ '\n' :: behind)
    rw [Segment.first_line behind h.1] at htext' hsegments'
    obtain rfl : ahead ++ '\n' :: behind = ahead' := by
      rw [← List.cons_append, htext, List.append_assoc] at htext'
      exact List.append_cancel_left htext'
    rw [List.cons_append, hsegments', hsegments, List.cons_append, ih h.2]

/-! ## Places further down -/

namespace Location

/-- The same column some lines further down. -/
def down (lines : Nat) (l : Location) : Location := ⟨l.line + lines, l.column⟩

theorem next_down (lines : Nat) (l : Location) (c : Char) :
    (l.down lines).next c = (l.next c).down lines := by
  unfold next down
  split
  · simp [Nat.add_right_comm]
  · rfl

theorem after_down (lines : Nat) (l : Location) (text : List Char) :
    (l.down lines).after text = (l.after text).down lines := by
  induction text generalizing l with
  | nil => rfl
  | cons c rest ih => rw [after_cons, after_cons, next_down, ih]

/-- A text and a newline lead to the first column, further down by one line more than the text has
newlines. -/
theorem after_line (text : List Char) :
    start.after (text ++ ['\n']) = start.down (1 + text.count '\n') := by
  rw [after_start, behind_concat]
  simp [behind, next, down, start, Nat.add_comm, Nat.add_left_comm]

end Location

/-- The same token some lines further down. -/
def Token.down (lines : Nat) (t : Token) : Token := { t with location := t.location.down lines }

/-- The same error some lines further down. -/
def LexicalError.down (lines : Nat) (e : LexicalError) : LexicalError :=
  { e with location := e.location.down lines }

theorem Segment.token?_down (s : Segment) (lines : Nat) (l : Location) :
    s.token? (l.down lines) = (s.token? l).map (Token.down lines) := by
  unfold Segment.token?
  split <;> rfl

namespace Scan

theorem place_append (l : Location) (ss ss' : List Segment) :
    place l (ss ++ ss') =
      ⟨(place l ss).tokens ++ (place (l.after (ss.flatMap Segment.text)) ss').tokens,
        (place l ss).errors ++ (place (l.after (ss.flatMap Segment.text)) ss').errors⟩ := by
  induction ss generalizing l with
  | nil => rfl
  | cons s rest ih =>
    simp only [List.cons_append, place, ih, List.flatMap_cons, Location.after_append,
      List.append_assoc]

theorem place_down (lines : Nat) (l : Location) (ss : List Segment) :
    place (l.down lines) ss =
      ⟨(place l ss).tokens.map (Token.down lines),
        (place l ss).errors.map (LexicalError.down lines)⟩ := by
  induction ss generalizing l with
  | nil => rfl
  | cons s rest ih =>
    have herrors : s.errors (l.down lines) = (s.errors l).map (LexicalError.down lines) := by
      simp [Segment.errors, Location.after_down, LexicalError.down]
    simp only [place, Location.after_down, ih, Segment.token?_down, herrors, List.map_append,
      Option.toList_map]

/-- The faults of segments are those reported when the segments are placed. -/
theorem errors_place (l : Location) (ss : List Segment) :
    (place l ss).errors.map LexicalError.kind =
      (ss.flatMap Segment.faults).map Fault.kind := by
  induction ss generalizing l with
  | nil => rfl
  | cons s rest ih =>
    rw [place, List.map_append, ih, List.flatMap_cons, List.map_append]
    simp [Segment.errors]

end Scan

/-- A text in which every block comment is closed, a newline and a further text: the tokens and the
errors are those of the first text and then those of the second, further down by the lines of the
first. -/
theorem scan_resumes_behind_line (a b : String)
    (h : ∀ e ∈ (scan a).errors, e.kind ≠ .unterminatedComment) :
    scan (a ++ "\n" ++ b) =
      ⟨(scan a).tokens ++ (scan b).tokens.map (Token.down (1 + a.toList.count '\n')),
        (scan a).errors ++ (scan b).errors.map (LexicalError.down (1 + a.toList.count '\n'))⟩ := by
  have hfaults : ∀ s ∈ segments a.toList, ∀ f ∈ s.faults, f.kind ≠ .unterminatedComment := by
    intro s hs f hf heq
    have hmem : f.kind ∈ (scan a).errors.map LexicalError.kind := by
      rw [scan, Scan.errors_place]
      exact List.mem_map_of_mem (List.mem_flatMap.mpr ⟨s, hs, hf⟩)
    obtain ⟨e, he, hkind⟩ := List.mem_map.mp hmem
    exact h e he (hkind.trans heq)
  have htext : (a ++ "\n" ++ b).toList = a.toList ++ '\n' :: b.toList := by simp
  have hcover := (segments_partition a.toList []).1
  have hline : Scan.place (Location.start.after a.toList)
      (⟨['\n'], .blank, []⟩ :: segments b.toList) =
        Scan.place (Location.start.down (1 + a.toList.count '\n')) (segments b.toList) := by
    rw [Scan.place, ← Location.after_append, Location.after_line]
    rfl
  rw [scan, htext, segments_line _ hfaults, Scan.place_append, hcover, hline, Scan.place_down]
  rfl

/-- The text `s = "a\q` ends in an unknown escape sequence and in its string, which is not closed;
the next line is scanned as if it stood alone. -/
theorem scan_resumes_behind_line_openString :
    (∀ e ∈ (scan "s = \"a\\q").errors, e.kind ≠ .unterminatedComment) ∧
      scan ("s = \"a\\q" ++ "\n" ++ "/b '") =
        ⟨[⟨.identifier "s", ⟨1, 1⟩⟩, ⟨.punctuator .assign, ⟨1, 3⟩⟩, ⟨.stringLiteral "aq", ⟨1, 5⟩⟩,
            ⟨.punctuator .slash, ⟨2, 1⟩⟩, ⟨.identifier "b", ⟨2, 2⟩⟩, ⟨.charLiteral '\x00', ⟨2, 4⟩⟩],
          [⟨.invalidEscape 'q', ⟨1, 8⟩⟩, ⟨.unterminatedString, ⟨1, 5⟩⟩,
            ⟨.unterminatedChar, ⟨2, 4⟩⟩]⟩ := by
  have hclosed : ∀ e ∈ (scan "s = \"a\\q").errors, e.kind ≠ .unterminatedComment := by
    decide +kernel
  refine ⟨hclosed, ?_⟩
  rw [scan_resumes_behind_line _ _ hclosed]
  decide +kernel

end CSubset
