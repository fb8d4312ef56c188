-- SUMMARY: A scan cuts the whole text into segments of known form and places their tokens and errors.
import CSubset.Proofs.Token.Faults
import CSubset.Proofs.Token.Position
import Mathlib.Data.List.Basic

/-!
# Partition of a text

Put together, the segments of a text are the text, and each fits where it stands. Its tokens are
the lexemes among them and its illegal characters are reported one by one, each at the position
behind the text in front of it.
-/

namespace CSubset

/-! ## Illegal characters -/

/-- Whether an error reports a character with which nothing begins. -/
def LexicalError.Kind.isIllegal : LexicalError.Kind → Bool
  | .illegalCharacter _ => true
  | _ => false

/-- The report of a segment that is an illegal character at `l`. -/
def Segment.illegal? (s : Segment) (l : Location) : Option LexicalError :=
  match s.content, s.text with
  | .illegal, c :: _ => some ⟨.illegalCharacter c, l⟩
  | _, _ => none

/-- Faults that do not report an illegal character. -/
def Legal (faults : List Fault) : Prop := ∀ f ∈ faults, f.kind.isIllegal = false

theorem Inner.legal {faults : List Fault} (h : Inner faults) : Legal faults := by
  intro f hf
  have hinner := h f hf
  cases hkind : f.kind with
  | illegalCharacter c =>
    rw [hkind] at hinner
    exact hinner.elim
  | _ => rfl

namespace Segment

/-- A segment with faults of other kinds, and of another content, reports no illegal character. -/
theorem errors_of_legal {s : Segment} (h : Legal s.faults) (hs : s.content ≠ .illegal)
    (l : Location) : (s.errors l).filter (fun e => e.kind.isIllegal) = (s.illegal? l).toList := by
  have hnone : s.illegal? l = none := by
    unfold illegal?
    split
    · next hc _ => exact absurd hc hs
    · rfl
  rw [hnone, Option.toList_none, List.filter_eq_nil_iff]
  intro e he
  obtain ⟨f, hf, rfl⟩ := List.mem_map.mp he
  rw [h f hf]
  exact Bool.false_ne_true

/-- An illegal character is reported once and where it stands, and nothing else as such. -/
theorem first_illegal (c : Char) (rest : List Char) (l : Location) :
    ((first c rest).errors l).filter (fun e => e.kind.isIllegal) =
      ((first c rest).illegal? l).toList := by
  rcases first_inner c rest with h | ⟨hcontent, hfaults⟩
  · rw [h]
    rfl
  · exact errors_of_legal hfaults.legal hcontent l

end Segment

/-! ## The whole text -/

/-- Segments with the texts in front of them, the first of which is `before`. -/
def placed (before : List Char) : List Segment → List (List Char × Segment)
  | [] => []
  | s :: rest => (before, s) :: placed (before ++ s.text) rest

/-- The first segment of a text is followed by the segments of what is behind it. -/
theorem segments_cons (c : Char) (rest : List Char) :
    ∃ behind, c :: rest = (Segment.first c rest).text ++ behind ∧
      segments (c :: rest) = Segment.first c rest :: segments behind := by
  have hfits := Segment.first_fits c rest
  obtain ⟨behind, hbehind⟩ := hfits.isPrefix
  refine ⟨behind, hbehind.symm, ?_⟩
  rw [segments]
  cases htext : (Segment.first c rest).text with
  | nil => exact absurd htext hfits.ne_nil
  | cons d text =>
    rw [htext] at hbehind
    cases hbehind
    simp

theorem segments_of_first {c : Char} {r behind : List Char}
    (h : (Segment.first c (r ++ behind)).text = c :: r) :
    segments (c :: (r ++ behind)) = Segment.first c (r ++ behind) :: segments behind := by
  rw [segments, h]
  simp

/-- What holds of the empty text, and of a text if it holds of what is behind its first segment,
holds of all texts. -/
theorem segments_induction {P : List Char → Prop} (nil : P [])
    (cons : ∀ c rest behind, c :: rest = (Segment.first c rest).text ++ behind →
      segments (c :: rest) = Segment.first c rest :: segments behind → P behind → P (c :: rest))
    (text : List Char) : P text := by
  match text with
  | [] => exact nil
  | c :: rest =>
    obtain ⟨behind, htext, hsegments⟩ := segments_cons c rest
    have hne := (Segment.first_fits c rest).ne_nil
    have hlt : behind.length < (c :: rest).length := by
      rw [htext, List.length_append]
      exact Nat.lt_add_of_pos_left (List.length_pos_iff.mpr hne)
    exact cons c rest behind htext hsegments (segments_induction nil cons behind)
termination_by text.length
decreasing_by exact hlt

/-- A segment of a text is the first one of the text from where it stands on. -/
theorem placed_segments {text before : List Char} {p : List Char × Segment}
    (h : p ∈ placed before (segments text)) :
    ∃ c rest behind, before ++ text = p.1 ++ c :: rest ∧ c :: rest = p.2.text ++ behind ∧
      p.2 = Segment.first c rest := by
  induction text using segments_induction generalizing before with
  | nil => simp [segments, placed] at h
  | cons c rest behind htext hsegments ih =>
    rw [hsegments] at h
    rcases List.mem_cons.mp h with rfl | h
    · exact ⟨c, rest, behind, rfl, htext, rfl⟩
    · obtain ⟨c', rest', behind', hbefore, hfirst⟩ := ih h
      exact ⟨c', rest', behind', by rw [← hbefore, List.append_assoc, ← htext], hfirst⟩

/-- The segments of a text, one behind the other, are the text, and each fits where it stands. -/
theorem segments_partition (text before : List Char) :
    (segments text).flatMap Segment.text = text ∧
      ∀ p ∈ placed before (segments text), ∃ behind,
        before ++ text = p.1 ++ (p.2.text ++ behind) ∧ p.2.Fits (p.2.text ++ behind) := by
  refine ⟨?_, fun p hp => ?_⟩
  · induction text using segments_induction with
    | nil => simp [segments]
    | cons c rest behind htext hsegments ih => rw [hsegments, List.flatMap_cons, ih, htext]
  · obtain ⟨c, rest, behind, hbefore, htext, hfirst⟩ := placed_segments hp
    refine ⟨behind, ?_⟩
    rw [← htext, hfirst]
    exact ⟨hbefore, Segment.first_fits c rest⟩

/-- Carried along, the tokens and errors of segments are those at the positions behind the texts
in front of them. -/
theorem place_eq (ss : List Segment) (before : List Char) :
    Scan.place (.behind before) ss =
      ⟨(placed before ss).filterMap fun p => p.2.token? (.behind p.1),
        (placed before ss).flatMap fun p => p.2.errors (.behind p.1)⟩ := by
  induction ss generalizing before with
  | nil => rfl
  | cons s rest ih =>
    have hafter : (Location.behind before).after s.text = .behind (before ++ s.text) := by
      rw [← Location.after_start, ← Location.after_start, Location.after_append]
    rw [Scan.place, hafter, ih]
    simp only [placed, List.flatMap_cons, List.filterMap_cons]
    cases s.token? (.behind before) <;> rfl

theorem mem_segments_first {text : List Char} {s : Segment} (h : s ∈ segments text) :
    ∃ c rest, s = Segment.first c rest := by
  induction text using segments_induction with
  | nil => simp [segments] at h
  | cons c rest behind _ hsegments ih =>
    rw [hsegments] at h
    rcases List.mem_cons.mp h with rfl | h
    · exact ⟨c, rest, rfl⟩
    · exact ih h

theorem mem_of_mem_placed {ss : List Segment} {before : List Char} {p : List Char × Segment}
    (h : p ∈ placed before ss) : p.2 ∈ ss := by
  induction ss generalizing before with
  | nil => cases h
  | cons s rest ih =>
    rcases List.mem_cons.mp h with rfl | h
    · exact List.mem_cons_self ..
    · exact List.mem_cons_of_mem _ (ih h)

/-- Every token of a text is spelled somewhere in it. -/
theorem spells_of_mem_scan {source : String} {t : Token} (h : t ∈ (scan source).tokens) :
    ∃ w, t.kind.Spells w := by
  have hscan : scan source = Scan.place (.behind []) (segments source.toList) := rfl
  rw [hscan, place_eq] at h
  obtain ⟨p, hp, ht⟩ := List.mem_filterMap.mp h
  obtain ⟨behind, -, hfits⟩ := (segments_partition source.toList []).2 p hp
  have hform := hfits.form
  unfold Segment.token? at ht
  split at ht
  · next kind hcontent =>
    cases ht
    rw [Segment.HasForm, hcontent] at hform
    exact ⟨p.2.text, hform.1⟩
  · cases ht

/-- Every error of a text is an illegal character or inside a lexeme or a comment. -/
theorem kind_of_mem_scan {source : String} {e : LexicalError} (h : e ∈ (scan source).errors) :
    (∃ c, e.kind = .illegalCharacter c) ∨ e.kind.IsInner := by
  have hscan : scan source = Scan.place (.behind []) (segments source.toList) := rfl
  rw [hscan, place_eq] at h
  obtain ⟨p, hp, he⟩ := List.mem_flatMap.mp h
  obtain ⟨f, hf, rfl⟩ := List.mem_map.mp he
  obtain ⟨c, rest, hfirst⟩ := mem_segments_first (mem_of_mem_placed hp)
  rw [hfirst] at hf
  rcases Segment.first_inner c rest with h | ⟨-, hfaults⟩
  · rw [h] at hf
    cases List.mem_singleton.mp hf
    exact .inl ⟨c, rfl⟩
  · exact .inr (hfaults f hf)

/-- The tokens of segments stand where the segments begin or behind, and one before the other. -/
theorem place_pairwise {ss : List Segment} (h : ∀ s ∈ ss, s.text ≠ []) (l : Location) :
    (∀ t ∈ (Scan.place l ss).tokens, t.location = l ∨ l.Before t.location) ∧
      (Scan.place l ss).tokens.Pairwise fun t t' => t.location.Before t'.location := by
  induction ss generalizing l with
  | nil => simp [Scan.place]
  | cons s rest ih =>
    have hahead := Location.before_after (h s List.mem_cons_self) l
    obtain ⟨hbehind, hrest⟩ := ih (fun s hs => h s (List.mem_cons_of_mem _ hs)) (l.after s.text)
    have hlater : ∀ t ∈ (Scan.place (l.after s.text) rest).tokens, l.Before t.location := by
      intro t ht
      rcases hbehind t ht with heq | hlt
      · exact heq ▸ hahead
      · exact hahead.trans hlt
    have hhere : ∀ t ∈ s.token? l, t.location = l := by
      intro t ht
      unfold Segment.token? at ht
      split at ht <;> cases ht
      rfl
    rw [Scan.place]
    refine ⟨fun t ht => ?_, List.pairwise_append.mpr ⟨?_, hrest, fun t ht t' ht' => ?_⟩⟩
    · rcases List.mem_append.mp ht with ht | ht
      · exact .inl (hhere t (Option.mem_toList.mp ht))
      · exact .inr (hlater t ht)
    · cases s.token? l <;> simp
    · rw [hhere t (Option.mem_toList.mp ht)]
      exact hlater t' ht'

/-- The tokens of a text stand one before the other. -/
theorem scan_pairwise (source : String) :
    (scan source).tokens.Pairwise fun t t' => t.location.Before t'.location := by
  have hne : ∀ s ∈ segments source.toList, s.text ≠ [] := by
    intro s hs
    obtain ⟨c, rest, rfl⟩ := mem_segments_first hs
    exact (Segment.first_fits c rest).ne_nil
  exact (place_pairwise hne .start).2

/-- No two tokens of a text stand at one position. -/
theorem scan_locations_nodup (source : String) :
    ((scan source).tokens.map Token.location).Nodup :=
  List.pairwise_map.mpr ((scan_pairwise source).imp Location.Before.ne)

/-- A scanner in front of a lexeme without faults hands out its token and goes on behind it. -/
theorem Scanner.next_of_lexeme {c : Char} {r behind : List Char} {kind : Token.Kind}
    (h : Segment.first c (r ++ behind) = Segment.ofLexeme (c :: r) kind []) (l : Location)
    (errors : List LexicalError) :
    next ⟨c :: (r ++ behind), l, errors⟩ =
      (some ⟨kind, l⟩, ⟨behind, l.after (c :: r), errors⟩) := by
  rw [next, h]
  simp [Segment.ofLexeme, Segment.token?, Segment.errors]

/-- At the end of a text a scanner stays where it is. -/
theorem Scanner.next_of_none (s : Scanner) (h : s.next.1 = none) :
    s.next.2.next = (none, s.next.2) := by
  fun_induction next s with
  | case1 l errors => rw [next]
  | case2 => cases h
  | case3 _ _ _ _ _ _ _ ih => exact ih h

/-- A scan splits the text into segments, each of a form that belongs where it stands. The tokens
are the lexemes among them in order, each of the kind that the segment holds, and the reports of
illegal characters are those of the illegal segments in order, all at the position behind the text
in front. Once a scanner has no further token, it never has one again and changes no more. -/
theorem scan_partitions_text (source : String) :
    (segments source.toList).flatMap Segment.text = source.toList ∧
    (∀ p ∈ placed [] (segments source.toList), ∃ behind,
      source.toList = p.1 ++ (p.2.text ++ behind) ∧ p.2.Fits (p.2.text ++ behind)) ∧
    (scan source).tokens = (placed [] (segments source.toList)).filterMap (fun p =>
      match p.2.content with
      | .lexeme kind => some ⟨kind, .behind p.1⟩
      | .blank | .lineComment | .blockComment | .illegal => none) ∧
    (scan source).errors.filter (fun e => e.kind.isIllegal) =
      (placed [] (segments source.toList)).filterMap (fun p => p.2.illegal? (.behind p.1)) ∧
    ∀ s : Scanner, s.next.1 = none → s.next.2.next = (none, s.next.2) := by
  obtain ⟨hcover, hfits⟩ := segments_partition source.toList []
  have hscan : scan source = Scan.place (.behind []) (segments source.toList) := rfl
  rw [hscan, place_eq]
  refine ⟨hcover, hfits, List.filterMap_congr fun p _ => ?_, ?_, Scanner.next_of_none⟩
  · unfold Segment.token?
    cases p.2.content <;> rfl
  · rw [List.filter_flatMap, List.filterMap_eq_flatMap_toList]
    refine List.flatMap_congr fun p hp => ?_
    obtain ⟨c, rest, h⟩ := mem_segments_first (mem_of_mem_placed hp)
    rw [h]
    exact Segment.first_illegal c rest _

end CSubset
