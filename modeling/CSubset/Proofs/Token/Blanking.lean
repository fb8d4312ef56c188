-- SUMMARY: With comments and illegal characters made blanks, a scan is the same but for their reports.
import CSubset.Proofs.Token.LineEnds
import CSubset.Proofs.Token.Lookahead

/-!
# Blanking

Comments and illegal characters take part in a scan like blanks. If they are made spaces, each of
them is scanned as single blanks, while every lexeme stays what it is, since it cannot tell a space
behind it from the start of trivia (`Segment.first_fades`). Newlines stay, so positions do too.
-/

namespace CSubset

/-- Whether an error reports an illegal character or a comment that is not closed. -/
def LexicalError.Kind.isOfTrivia : LexicalError.Kind → Bool
  | .illegalCharacter _ | .unterminatedComment => true
  | _ => false

/-- A space in place of a character, unless it is a newline. -/
def blankChar (c : Char) : Char := if c = '\n' then '\n' else ' '

namespace Segment

/-- Whether a segment is a comment, or is reported as an illegal character. -/
def isTrivia (s : Segment) : Bool :=
  match s.content with
  | .lineComment | .blockComment => true
  | _ => s.faults.any fun f => f.kind.isIllegal

/-- The text of a segment, but spaces and newlines for trivia. -/
def blanked (s : Segment) : List Char := if s.isTrivia then s.text.map blankChar else s.text

/-- What a segment is scanned as when its text is blanked. -/
def remains (s : Segment) : List Segment :=
  if s.isTrivia then s.text.map fun c => ⟨[blankChar c], .blank, []⟩ else [s]

end Segment

/-- A source text with spaces in place of its comments and illegal characters. -/
def blanked (source : String) : String :=
  String.ofList ((segments source.toList).flatMap Segment.blanked)

/-! ## Trivia -/

namespace Segment

variable {s : Segment}

/-- Trivia is no token, and only trivia has reports of its own kind. -/
theorem HasFaults.trivia_cases (h : s.HasFaults) :
    (s.isTrivia = true ∧ (∀ l, s.token? l = none) ∧ ∀ f ∈ s.faults, f.kind.isOfTrivia = true) ∨
      (s.isTrivia = false ∧ (s.content = .blank ∨ ∃ kind, s.content = .lexeme kind) ∧
        ∀ f ∈ s.faults, f.kind.isOfTrivia = false) := by
  obtain ⟨text, content, faults⟩ := s
  cases content with
  | blank =>
    obtain rfl : faults = [] := h
    exact .inr ⟨rfl, .inl rfl, nofun⟩
  | lineComment =>
    obtain rfl : faults = [] := h
    exact .inl ⟨rfl, fun _ => rfl, nofun⟩
  | blockComment =>
    refine .inl ⟨rfl, fun _ => rfl, fun f hf => ?_⟩
    rw [h f hf]
    rfl
  | illegal =>
    obtain ⟨c, -, rfl⟩ := h
    exact .inl ⟨rfl, fun _ => rfl, List.forall_mem_singleton.mpr rfl⟩
  | lexeme kind =>
    have hfaults : OfLexeme faults := h
    refine .inr ⟨?_, .inr ⟨kind, rfl⟩, fun f hf => ?_⟩
    · exact List.any_eq_false.mpr fun f hf => by rw [hfaults.inner.legal f hf]; decide
    · have hkind := hfaults f hf
      cases hk : f.kind <;> rw [hk] at hkind
      case illegalCharacter | unterminatedComment => exact hkind.elim
      all_goals rfl

/-- A point is a lexeme or begins one. -/
theorem first_point_isTrivia (rest : List Char) : (first '.' rest).isTrivia = false := by
  rw [first_eq (by decide) (by simp) (by simp)]
  rw [if_neg (by decide), if_neg (by decide), if_neg (by decide), if_neg (by decide)]
  split
  · rfl
  · cases h : punctuator? ('.' :: rest) with
    | some p => rfl
    | none => exact absurd ⟨.dot, rfl⟩ (punctuator?_none h (List.prefix_append ['.'] rest))

end Segment

/-! ## What stands behind a lexeme -/

theorem Segment.fades (s : Segment) : Fades s.text s.blanked := by
  unfold blanked
  split
  · refine List.forall₂_map_right_iff.mpr (List.forall₂_same.mpr fun c _ => ?_)
    unfold blankChar
    split
    · next hc => exact .inl hc.symm
    · next hc => exact .inr ⟨rfl, hc⟩
  · exact List.forall₂_same.mpr fun c _ => .inl rfl

theorem fades_blanked (text : List Char) :
    Fades text ((segments text).flatMap Segment.blanked) := by
  have hall (ss : List Segment) : Fades (ss.flatMap Segment.text) (ss.flatMap Segment.blanked) := by
    induction ss with
    | nil => exact .nil
    | cons s rest ih => exact List.rel_append s.fades ih
  have h := hall (segments text)
  rwa [(segments_partition text []).1] at h

/-- A point stays, and so does what stands behind it in its lexeme. -/
theorem blanked_point (rest : List Char) : ∃ r behind, rest = r ++ behind ∧
    (segments ('.' :: rest)).flatMap Segment.blanked =
      '.' :: (r ++ (segments behind).flatMap Segment.blanked) := by
  obtain ⟨behind, htext, hsegments⟩ := segments_cons '.' rest
  have hne := (Segment.first_fits '.' rest).ne_nil
  have hblanked : (Segment.first '.' rest).blanked = (Segment.first '.' rest).text := by
    rw [Segment.blanked, Segment.first_point_isTrivia]
    rfl
  rw [hsegments, List.flatMap_cons, hblanked]
  cases hfirst : (Segment.first '.' rest).text with
  | nil => exact absurd hfirst hne
  | cons c r =>
    rw [hfirst] at htext
    obtain ⟨rfl, rfl⟩ := List.cons.inj htext
    exact ⟨r, behind, rfl, rfl⟩

theorem points_blanked {text : List Char} (h : ['.', '.'] <+: text) :
    ['.', '.'] <+: (segments text).flatMap Segment.blanked := by
  obtain ⟨rest, rfl⟩ := h
  obtain ⟨r, behind, htext, hblanked⟩ := blanked_point ('.' :: rest)
  refine hblanked.symm ▸ (List.prefix_cons_inj _).mpr ?_
  cases r with
  | nil =>
    obtain ⟨r, behind', -, hblanked'⟩ := blanked_point rest
    obtain rfl : '.' :: rest = behind := htext
    rw [List.nil_append, hblanked']
    exact List.prefix_append ['.'] _
  | cons c r =>
    obtain ⟨rfl, -⟩ := List.cons.inj htext
    exact List.prefix_append ['.'] _

/-! ## Segments of a blanked text -/

/-- Blanks are segments of their own. -/
theorem segments_blanks {w : List Char} (hw : ∀ c ∈ w, Segment.isBlank c = true)
    (behind : List Char) :
    segments (w ++ behind) = w.map (fun c => ⟨[c], .blank, []⟩) ++ segments behind := by
  induction w with
  | nil => rfl
  | cons c w ih =>
    obtain ⟨hc, hw⟩ := List.forall_mem_cons.mp hw
    rw [List.cons_append, segments, Segment.first, if_pos hc]
    exact congrArg (_ :: ·) (ih hw)

theorem Segment.isBlank_of_content {c : Char} {rest : List Char}
    (h : (first c rest).content = .blank) : isBlank c = true := by
  obtain ⟨hpre, hform⟩ := first_fits c rest
  rw [HasForm, h] at hform
  obtain ⟨d, hd, htext⟩ := hform
  rw [htext] at hpre
  obtain ⟨rfl, -⟩ := List.cons_prefix_cons.mp hpre
  exact mem_blank_iff.mp hd

/-- A segment that is no trivia stays the same if what stands behind it is blanked. -/
theorem Segment.first_blanked {c : Char} {r behind : List Char}
    (hr : (first c (r ++ behind)).text = c :: r)
    (htrivia : (first c (r ++ behind)).isTrivia = false) :
    first c (r ++ (segments behind).flatMap blanked) = first c (r ++ behind) := by
  rcases (first_hasFaults c (r ++ behind)).trivia_cases with ⟨h, -⟩ | ⟨-, hcontent, -⟩
  · cases htrivia.symm.trans h
  · rcases hcontent with hcontent | ⟨kind, hcontent⟩
    · have hblank := isBlank_of_content hcontent
      rw [first, first, if_pos hblank, if_pos hblank]
    · exact first_fades (fades_blanked behind) points_blanked hcontent hr

theorem isBlank_blankChar (c : Char) : Segment.isBlank (blankChar c) = true := by
  unfold blankChar
  split <;> rfl

/-- Blanked, a text is scanned as blanks in place of trivia and as it was otherwise. -/
theorem segments_blanked (text : List Char) :
    segments ((segments text).flatMap Segment.blanked) =
      (segments text).flatMap Segment.remains := by
  induction text using segments_induction with
  | nil => simp [segments]
  | cons c rest behind htext hsegments ih =>
    rw [hsegments, List.flatMap_cons, List.flatMap_cons, Segment.blanked, Segment.remains]
    cases htrivia : (Segment.first c rest).isTrivia with
    | true =>
      have hblanks : ∀ d ∈ (Segment.first c rest).text.map blankChar, Segment.isBlank d = true :=
        List.forall_mem_map.mpr fun d _ => isBlank_blankChar d
      rw [if_pos rfl, if_pos rfl, segments_blanks hblanks, ih, List.map_map]
      rfl
    | false =>
      rw [if_neg Bool.false_ne_true, if_neg Bool.false_ne_true]
      cases hfirst : (Segment.first c rest).text with
      | nil => exact absurd hfirst (Segment.first_fits c rest).ne_nil
      | cons d r =>
        rw [hfirst] at htext
        obtain ⟨rfl, hrest⟩ := List.cons.inj htext
        have hrest : rest = r ++ behind := hrest
        subst hrest
        have hstays := Segment.first_blanked hfirst htrivia
        rw [← hstays] at hfirst
        rw [List.cons_append, segments_of_first hfirst, hstays, ih]
        rfl

/-! ## Placing -/

theorem Location.after_blanked (l : Location) (text : List Char) :
    l.after (text.map blankChar) = l.after text := by
  induction text generalizing l with
  | nil => rfl
  | cons c rest ih =>
    have hnext : l.next (blankChar c) = l.next c := by
      unfold next blankChar
      by_cases hc : c = '\n'
      · simp [hc]
      · simp [hc]
    rw [List.map_cons, after_cons, after_cons, hnext, ih]

namespace Scan

theorem place_blanks (l : Location) (text : List Char) :
    place l (text.map fun c => ⟨[blankChar c], .blank, []⟩) = ⟨[], []⟩ := by
  induction text generalizing l with
  | nil => rfl
  | cons c rest ih =>
    rw [List.map_cons, place, ih]
    rfl

/-- What is left of a segment is its token and its errors but for those of trivia, and reaches as
far. -/
theorem place_remains {s : Segment} (h : s.HasFaults) (l : Location) :
    place l s.remains =
        ⟨(s.token? l).toList, (s.errors l).filter fun e => !e.kind.isOfTrivia⟩ ∧
      l.after (s.remains.flatMap Segment.text) = l.after s.text := by
  unfold Segment.remains
  rcases h.trivia_cases with ⟨htrivia, htoken, hfaults⟩ | ⟨htrivia, -, hfaults⟩
  · have herrors : (s.errors l).filter (fun e => !e.kind.isOfTrivia) = [] := by
      refine List.filter_eq_nil_iff.mpr (List.forall_mem_map.mpr fun f hf => ?_)
      simp [hfaults f hf]
    rw [if_pos htrivia, place_blanks, htoken, herrors]
    refine ⟨rfl, ?_⟩
    rw [List.flatMap_map, ← Location.after_blanked l s.text]
    exact congrArg l.after List.map_eq_flatMap.symm
  · have herrors : (s.errors l).filter (fun e => !e.kind.isOfTrivia) = s.errors l := by
      refine List.filter_eq_self.mpr (List.forall_mem_map.mpr fun f hf => ?_)
      simp [hfaults f hf]
    rw [if_neg (by simp [htrivia]), herrors]
    simp [place]

theorem place_flatMap_remains {ss : List Segment} (h : ∀ s ∈ ss, s.HasFaults) (l : Location) :
    place l (ss.flatMap Segment.remains) =
      ⟨(place l ss).tokens, (place l ss).errors.filter fun e => !e.kind.isOfTrivia⟩ := by
  induction ss generalizing l with
  | nil => rfl
  | cons s rest ih =>
    obtain ⟨hs, hrest⟩ := List.forall_mem_cons.mp h
    obtain ⟨hplace, hafter⟩ := place_remains hs l
    rw [List.flatMap_cons, place_append, hplace, hafter, ih hrest, place, List.filter_append]

end Scan

/-- With spaces in place of comments and illegal characters, a text has the same tokens at the same
positions, and the same errors but for those of its trivia. -/
theorem scan_blanked (source : String) :
    scan (blanked source) =
      ⟨(scan source).tokens, (scan source).errors.filter fun e => !e.kind.isOfTrivia⟩ := by
  have hfaults : ∀ s ∈ segments source.toList, s.HasFaults := by
    intro s hs
    obtain ⟨c, rest, rfl⟩ := mem_segments_first hs
    exact Segment.first_hasFaults c rest
  rw [scan, blanked, String.toList_ofList, segments_blanked]
  exact Scan.place_flatMap_remains hfaults .start

/-- A quote inside a comment goes with it, and the one of an open constant stays. -/
example : blanked "a|/*'\n*/'b 1..@//" = "a    \n  'b 1..   " := by decide +kernel

end CSubset
