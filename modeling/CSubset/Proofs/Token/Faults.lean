-- SUMMARY: What can be wrong with the segments of a text, and what a fault quotes.
import CSubset.Proofs.Token.Form

/-!
# Faults

What can be wrong with a segment depends on what it is: a blank and a line comment have no faults,
a block comment may not be closed, and an illegal character is a fault itself. A fault inside a
lexeme quotes a character that stands behind a backslash, or the digits of a number, or nothing.
-/

namespace CSubset

/-- What can be wrong inside a lexeme; of a number, digits are quoted. -/
def LexicalError.Kind.IsOfLexeme : LexicalError.Kind → Prop
  | .illegalCharacter _ | .unterminatedComment => False
  | .invalidNumber text => ∀ c ∈ text.toList, c.isDigit = true
  | _ => True

/-- What can be wrong inside a lexeme or a comment; of a number, digits are quoted. -/
def LexicalError.Kind.IsInner : LexicalError.Kind → Prop
  | .illegalCharacter _ => False
  | .invalidNumber text => ∀ c ∈ text.toList, c.isDigit = true
  | _ => True

/-- Faults inside a lexeme. -/
def OfLexeme (faults : List Fault) : Prop := ∀ f ∈ faults, f.kind.IsOfLexeme

/-- Faults inside a lexeme or a comment. -/
def Inner (faults : List Fault) : Prop := ∀ f ∈ faults, f.kind.IsInner

theorem LexicalError.Kind.IsOfLexeme.isInner {kind : LexicalError.Kind} (h : kind.IsOfLexeme) :
    kind.IsInner := by
  cases kind with
  | illegalCharacter _ | unterminatedComment => exact h.elim
  | invalidNumber text => exact h
  | _ => trivial

theorem OfLexeme.inner {faults : List Fault} (h : OfLexeme faults) : Inner faults :=
  fun f hf => (h f hf).isInner

theorem OfLexeme.nil : OfLexeme [] := nofun

theorem OfLexeme.single {f : Fault} (h : f.kind.IsOfLexeme) : OfLexeme [f] :=
  List.forall_mem_singleton.mpr h

/-! ## Text literals -/

/-- What can be wrong inside a text literal. -/
def LexicalError.Kind.IsOfText : LexicalError.Kind → Prop
  | .illegalCharacter _ | .unterminatedComment | .invalidNumber _ => False
  | _ => True

/-- Faults of a text literal, each of which stands in front of a limit. -/
def OfText (limit : Nat) (faults : List Fault) : Prop :=
  ∀ f ∈ faults, f.kind.IsOfText ∧ f.offset < limit

namespace OfText

variable {limit limit' : Nat} {fs gs : List Fault}

theorem nil : OfText limit [] := nofun

theorem append (hf : OfText limit fs) (hg : OfText limit gs) : OfText limit (fs ++ gs) :=
  List.forall_mem_append.mpr ⟨hf, hg⟩

theorem single {f : Fault} (h : f.kind.IsOfText) (hlt : f.offset < limit) : OfText limit [f] :=
  List.forall_mem_singleton.mpr ⟨h, hlt⟩

theorem mono (h : OfText limit fs) (hle : limit ≤ limit') : OfText limit' fs :=
  fun f hf => ⟨(h f hf).1, Nat.lt_of_lt_of_le (h f hf).2 hle⟩

theorem ofLexeme (h : OfText limit fs) : OfLexeme fs := by
  intro f hf
  have hkind := (h f hf).1
  cases hk : f.kind <;> rw [hk] at hkind
  case illegalCharacter | unterminatedComment | invalidNumber => exact hkind.elim
  all_goals trivial

end OfText

/-- An escape sequence that is not known is reported at its letter. -/
theorem EscapeSequence.read_ofText (text : List Char) (offset : Nat) :
    OfText (offset + (read text).text.length) ((read text).faults offset) := by
  intro f hf
  obtain ⟨c, hc, rfl⟩ := List.mem_map.mp hf
  refine ⟨trivial, Nat.lt_add_of_pos_right ?_⟩
  refine List.length_pos_iff.mpr fun hnil => ?_
  unfold read at hc hnil
  grind

theorem StringBody.read_ofText (offset : Nat) (text : List Char) :
    OfText (offset + (read offset text).text.length) (read offset text).faults := by
  fun_induction read offset text with
  | case1 | case2 | case3 => exact .nil
  | case4 offset rest e body _ _ ih =>
    refine .append ((EscapeSequence.read_ofText rest (offset + 1)).mono ?_) (ih.mono ?_)
    · show offset + 1 + e.text.length ≤ offset + ('\\' :: e.text ++ body.text).length
      simp only [List.length_append, List.length_cons]
      omega
    · show offset + 1 + e.text.length + body.text.length ≤
        offset + ('\\' :: e.text ++ body.text).length
      simp only [List.length_append, List.length_cons]
      omega
  | case5 offset c rest _ _ _ body ih =>
    refine ih.mono ?_
    show offset + 1 + body.text.length ≤ offset + (c :: body.text).length
    rw [List.length_cons]
    omega

namespace Segment

/-- The faults of a segment are those that its content can have. -/
def HasFaults (s : Segment) : Prop :=
  match s.content with
  | .blank | .lineComment => s.faults = []
  | .blockComment => ∀ f ∈ s.faults, f.kind = .unterminatedComment
  | .illegal => ∃ c, s.text = [c] ∧ s.faults = [⟨0, .illegalCharacter c⟩]
  | .lexeme _ => OfLexeme s.faults

theorem closeChar_ofText {read : List Char} (value : Char) {faults : List Fault}
    (h : OfText read.length faults) (hread : read ≠ []) (rest : List Char) :
    OfText (closeChar read value faults rest).text.length
      (closeChar read value faults rest).faults := by
  have hlength := (closeChar_content read value faults rest).1.length_le
  have hpos := List.length_pos_iff.mpr hread
  have hfaults : OfText read.length (closeChar read value faults rest).faults := by
    unfold closeChar
    split
    · exact h
    · dsimp only
      split <;> exact h.append (.single trivial hpos)
  exact hfaults.mono hlength

theorem ofChar_ofText (rest : List Char) :
    OfText (ofChar rest).text.length (ofChar rest).faults := by
  unfold ofChar
  split
  · exact .single trivial Nat.one_pos
  next c rest =>
  split
  · exact .single trivial Nat.one_pos
  split
  · exact .single trivial Nat.two_pos
  split
  · dsimp only
    split
    · exact .single trivial Nat.two_pos
    · refine closeChar_ofText _ ?_ (List.cons_ne_nil _ _) _
      rw [List.length_cons, List.length_cons, Nat.add_comm]
      exact (EscapeSequence.read_ofText rest 2).mono (by omega)
  · exact closeChar_ofText _ .nil (List.cons_ne_nil _ _) _

theorem ofString_ofText (rest : List Char) :
    OfText (ofString rest).text.length (ofString rest).faults := by
  refine OfText.append ((StringBody.read_ofText 1 rest).mono ?_) ?_
  · rw [Nat.add_comm]
    exact Nat.le_refl _
  · split
    · exact .nil
    · exact .single trivial (Nat.succ_pos _)

theorem ofDigits_hasFaults {digits : List Char} (h : ∀ c ∈ digits, c.isDigit = true) :
    (ofDigits digits).HasFaults := by
  unfold ofDigits
  dsimp only
  split
  · exact OfLexeme.nil
  · refine OfLexeme.single fun c hc => h c ?_
    rwa [String.toList_ofList] at hc

/-- A number is its digits, or these with a point and a fraction. -/
theorem ofNumber_elim {P : Segment → Prop} (text : List Char)
    (integer : P (ofDigits (text.takeWhile Char.isDigit)))
    (float : ∀ fraction, P (ofPointed (text.takeWhile Char.isDigit) fraction)) :
    P (ofNumber text) := by
  unfold ofNumber
  dsimp only
  split
  · split
    · exact integer
    · exact float _
  · exact integer

theorem ofNumber_hasFaults (text : List Char) : (ofNumber text).HasFaults :=
  ofNumber_elim text (ofDigits_hasFaults fun _ => mem_takeWhile) fun _ => OfLexeme.nil

theorem ofComment_hasFaults (rest : List Char) : (ofComment rest).HasFaults := by
  unfold ofComment HasFaults
  dsimp only
  split
  · exact List.forall_mem_nil _
  · exact List.forall_mem_singleton.mpr rfl

theorem ofString_hasFaults (rest : List Char) : (ofString rest).HasFaults :=
  (ofString_ofText rest).ofLexeme

theorem ofChar_hasFaults (rest : List Char) : (ofChar rest).HasFaults := by
  obtain ⟨-, value, hcontent⟩ := ofChar_content rest
  rw [HasFaults, hcontent]
  exact (ofChar_ofText rest).ofLexeme

/-- What holds of every form of a segment holds of the first segment of a text. -/
theorem first_elim {P : Segment → Prop} (c : Char) (rest : List Char)
    (blank : P ⟨[c], .blank, []⟩)
    (lineComment : P ⟨c :: rest.takeWhile (· ≠ '\n'), .lineComment, []⟩)
    (blockComment : P (ofComment (rest.drop 1)))
    (string : c = '"' → P (ofString rest))
    (char : c = '\'' → P (ofChar rest))
    (number : c.isDigit = true → P (ofNumber (c :: rest)))
    (word : P (ofWord (c :: rest)))
    (point : c = '.' → rest.head?.any Char.isDigit = true →
      P (ofPointed [] (rest.takeWhile Char.isDigit)))
    (mark : ∀ p : Punctuator, P (ofLexeme p.text.toList (.punctuator p) []))
    (illegal : P ⟨[c], .illegal, [⟨0, .illegalCharacter c⟩]⟩) : P (first c rest) := by
  unfold first
  split
  · exact blank
  split
  · exact lineComment
  split
  · exact blockComment
  split
  · next hc => exact string hc
  split
  · next hc => exact char hc
  split
  · next hc => exact number hc
  split
  · exact word
  split
  · next hpoint => exact point hpoint.1 hpoint.2
  split
  · exact mark _
  · exact illegal

theorem first_hasFaults (c : Char) (rest : List Char) : (first c rest).HasFaults := by
  apply first_elim (P := HasFaults)
  case blank | lineComment => exact rfl
  case blockComment => exact ofComment_hasFaults _
  case string => exact fun _ => ofString_hasFaults rest
  case char => exact fun _ => ofChar_hasFaults rest
  case number => exact fun _ => ofNumber_hasFaults _
  case word => exact OfLexeme.nil
  case point => exact fun _ _ => OfLexeme.nil
  case mark => exact fun _ => OfLexeme.nil
  case illegal => exact ⟨c, rfl, rfl⟩

/-- Digits that are too large are reported where they begin. -/
theorem ofNumber_offset (text : List Char) : ∀ f ∈ (ofNumber text).faults, f.offset = 0 := by
  apply ofNumber_elim (P := fun s => ∀ f ∈ s.faults, f.offset = 0)
  case integer =>
    unfold ofDigits
    dsimp only
    split
    · exact List.forall_mem_nil _
    · exact List.forall_mem_singleton.mpr rfl
  case float => exact fun _ => List.forall_mem_nil _

/-- Every fault stands at a character of its segment. -/
theorem first_offset_lt (c : Char) (rest : List Char) :
    ∀ f ∈ (first c rest).faults, f.offset < (first c rest).text.length := by
  apply first_elim (P := fun s => ∀ f ∈ s.faults, f.offset < s.text.length)
  case blank | lineComment | word => exact List.forall_mem_nil _
  case blockComment =>
    unfold ofComment
    dsimp only
    split
    · exact List.forall_mem_nil _
    · exact List.forall_mem_singleton.mpr (Nat.succ_pos _)
  case string => exact fun _ f hf => (ofString_ofText rest f hf).2
  case char => exact fun _ f hf => (ofChar_ofText rest f hf).2
  case number =>
    intro hc f hf
    rw [ofNumber_offset _ f hf]
    exact List.length_pos_iff.mpr (ofNumber_fits rest hc).ne_nil
  case point => exact fun _ _ => List.forall_mem_nil _
  case mark => exact fun _ => List.forall_mem_nil _
  case illegal => exact List.forall_mem_singleton.mpr Nat.one_pos

/-- A segment is an illegal character, which is reported where it stands, or its faults are inside
a lexeme or a comment. -/
theorem first_inner (c : Char) (rest : List Char) :
    first c rest = ⟨[c], .illegal, [⟨0, .illegalCharacter c⟩]⟩ ∨
      (first c rest).content ≠ .illegal ∧ Inner (first c rest).faults := by
  have hfaults := first_hasFaults c rest
  have hpre := (first_fits c rest).isPrefix
  generalize first c rest = s at hfaults hpre ⊢
  obtain ⟨text, content, faults⟩ := s
  cases content with
  | blank | lineComment =>
    obtain rfl : faults = [] := hfaults
    exact .inr ⟨Content.noConfusion, OfLexeme.nil.inner⟩
  | blockComment =>
    refine .inr ⟨Content.noConfusion, fun f hf => ?_⟩
    rw [hfaults f hf]
    trivial
  | illegal =>
    obtain ⟨d, rfl, rfl⟩ := hfaults
    obtain ⟨rfl, -⟩ := List.cons_prefix_cons.mp hpre
    exact .inl rfl
  | lexeme kind => exact .inr ⟨Content.noConfusion, OfLexeme.inner hfaults⟩

end Segment

end CSubset
