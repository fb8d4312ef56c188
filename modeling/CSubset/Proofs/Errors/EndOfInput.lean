-- SUMMARY: When the report of a syntax error names the end of the input.
import CSubset.Proofs.Errors.Quotations
import CSubset.Proofs.Text.PlainAscii
import CSubset.Token.Scan

/-!
# The end of the input

A report shows the offending token by its text, and the end of the input by a mark of its own. Of
all tokens only an identifier can be written like that mark. So the report of a syntax error names
the end of the input if the tokens run out where another one is needed, and besides only if the
error is raised at an identifier that is spelled like the mark.
-/

namespace CSubset

open Grammar Parse

/-! ## Texts of tokens -/

/-- Texts that differ from the mark of the end by their first character. -/
theorem ne_endMark_of_head {s : String} (h : s.toList.head? ≠ some 'E') :
    s ≠ SyntaxError.endMark := by
  rintro rfl
  exact h rfl

/-- Texts without the first character of the mark of the end. -/
theorem ne_endMark_of_forall {s : String} {p : Char → Prop} (h : ∀ c ∈ s.toList, p c)
    (hp : ¬ p 'E') : s ≠ SyntaxError.endMark := by
  rintro rfl
  exact hp (h 'E' (by decide))

theorem repr_nat_ne_endMark (n : Nat) : n.repr ≠ SyntaxError.endMark := by
  exact ne_endMark_of_forall (p := fun c => c.isDigit = true)
    (fun _ hc => Text.isDigit_of_mem_repr hc) (by decide)

theorem repr_int_ne_endMark (n : Int) : n.repr ≠ SyntaxError.endMark := by
  rw [Int.repr_eq_if]
  split
  · exact repr_nat_ne_endMark _
  · refine ne_endMark_of_head ?_
    simp

theorem Binary64.text_ne_endMark (x : Binary64) : x.text ≠ SyntaxError.endMark := by
  cases x with
  | nan => decide
  | infinite negative => cases negative <;> decide
  | finite negative m =>
    exact ne_endMark_of_forall (isFigure_of_mem_text_finite negative m) (by decide)

/-- Only identifiers can be written like the end of the input. -/
theorem Token.Kind.text_eq_endMark_iff (k : Token.Kind) :
    k.text = SyntaxError.endMark ↔ k = .identifier SyntaxError.endMark := by
  cases k with
  | identifier name => simp [text]
  | keyword word => cases word <;> decide
  | punctuator mark => cases mark <;> decide
  | intLiteral n => exact iff_of_false (repr_int_ne_endMark n) (by simp)
  | floatLiteral x => exact iff_of_false x.text_ne_endMark (by simp)
  | charLiteral c =>
    refine iff_of_false (ne_endMark_of_head ?_) (by simp)
    simp [text, charText]
  | stringLiteral s =>
    refine iff_of_false (ne_endMark_of_head ?_) (by simp)
    simp [text, stringText]

/-! ## Reports -/

/-- The token that a complaint is about, where `rest` is ahead: the parameter that is declared as a
function, or else the next token. -/
def Complaint.subject? (complaint : Complaint) (rest : List Token) : Option Token :=
  match complaint with
  | .functionParameter name location => some ⟨.identifier name, location⟩
  | _ => rest.head?

/-- The token at which the reading of a unit fails; there is none if the tokens run out where
another one is needed. -/
def CompilationUnit.offending? (ts : List Token) : Option Token :=
  let r := Reading.from (Cursor.ofTokens ts)
  r.failure.bind fun complaint => complaint.subject? r.cursor.rest

theorem Complaint.message_ne {complaint : Complaint} (h : complaint.isFunctionParameter = false) :
    complaint.message ≠ "A parameter cannot be declared as a function" := by
  cases complaint with
  | functionParameter => cases h
  | missing mark place =>
    intro hmessage
    have hhead : (Complaint.missing mark place).message.toList.head? = some 'E' := by
      simp [message]
    rw [hmessage] at hhead
    exact absurd hhead (by decide)
  | _ => decide

theorem Complaint.subject?_eq_head? {complaint : Complaint} {rest : List Token}
    (h : complaint.isFunctionParameter = false) : complaint.subject? rest = rest.head? := by
  cases complaint with
  | functionParameter => cases h
  | _ => rfl

/-- A report names the token that it is about, or the end of the input. -/
theorem Complaint.found_report (complaint : Complaint) (rest tokens : List Token) :
    (complaint.report rest tokens).found =
      ((complaint.subject? rest).map Token.text).getD SyntaxError.endMark := by
  cases complaint with
  | functionParameter => rfl
  | _ => cases rest <;> rfl

theorem Complaint.location_report {complaint : Complaint} {rest : List Token} {t : Token}
    (h : complaint.subject? rest = some t) (tokens : List Token) :
    (complaint.report rest tokens).location = some t.location := by
  cases complaint with
  | functionParameter =>
    cases h
    rfl
  | _ =>
    cases rest with
    | nil => cases h
    | cons =>
      cases h
      rfl

namespace CompilationUnit

variable {ts : List Token} {e : SyntaxError}

theorem offending?_mem {t : Token} (h : offending? ts = some t) : t ∈ ts := by
  obtain ⟨complaint, hfail, hsubject⟩ := Option.bind_eq_some_iff.mp h
  cases hf : complaint.isFunctionParameter with
  | true =>
    have hquotes := reading_quotes (List.Subset.refl ts) hfail
    cases complaint with
    | functionParameter =>
      cases hsubject
      exact hquotes
    | _ => cases hf
  | false =>
    rw [Complaint.subject?_eq_head? hf] at hsubject
    have hforward : (Reading.from (Cursor.ofTokens ts)).cursor.rest <:+ ts := reading_forward _
    exact hforward.subset (List.mem_of_mem_head? hsubject)

/-- The report of an error, in terms of the token at which reading fails. -/
theorem offending?_report (h : ofTokens? ts = .error e) :
    e.found = ((offending? ts).map Token.text).getD SyntaxError.endMark ∧
      ∀ t, offending? ts = some t → e.location = some t.location := by
  obtain ⟨complaint, hfail, rfl⟩ := ofTokens?_eq_error.mp h
  rw [offending?, hfail, Option.bind_some]
  exact ⟨complaint.found_report _ _, fun t ht => Complaint.location_report ht ts⟩

/-- Tokens run out exactly where they could go on, unless a parameter is declared as a function. -/
theorem offending?_eq_none_iff (h : ofTokens? ts = .error e) :
    offending? ts = none ↔ e.message ≠ "A parameter cannot be declared as a function" ∧
      ∃ us, Sentence True (ts ++ us) := by
  obtain ⟨complaint, hfail, rfl⟩ := ofTokens?_eq_error.mp h
  rw [offending?, hfail, Option.bind_some, Complaint.message_report]
  cases hf : complaint.isFunctionParameter with
  | true =>
    refine iff_of_false ?_ fun hmessage => hmessage.1 (Complaint.message_of_isFunctionParameter hf)
    cases complaint with
    | functionParameter => nofun
    | _ => cases hf
  | false =>
    obtain ⟨before, us, hts, hus⟩ := reading_stuck hf hfail
    replace hts : ts = before ++ (Reading.from (Cursor.ofTokens ts)).cursor.rest := hts
    rw [Complaint.subject?_eq_head? hf]
    rcases hc : (Reading.from (Cursor.ofTokens ts)).cursor with ⟨_ | ⟨p, after⟩, j⟩
    · obtain rfl : ts = before := by simpa only [hc, List.append_nil] using hts
      exact iff_of_true rfl ⟨Complaint.message_ne hf, us, hus⟩
    · obtain rfl : ts = before ++ p :: after := by simpa only [hc] using hts
      refine iff_of_false nofun fun ⟨_, vs, hvs⟩ => ?_
      rw [List.append_assoc, List.cons_append] at hvs
      exact (stopsAt_of_reading hf hfail hc ⟨us, hus⟩).blocked _ hvs

end CompilationUnit

open CompilationUnit (offending?)

/-- A syntax error whose reading fails at a token shows the text and position of that token, and
reading fails at none exactly if a token is missing where more of them could follow. The report
names the end of the input in that case, and besides only if reading fails at an identifier that is
spelled like the mark of the end; so where no token is such an identifier, it does so in that case
alone. -/
theorem syntaxError_isEof_iff {ts : List Token} {e : SyntaxError}
    (h : CompilationUnit.ofTokens? ts = .error e) :
    (∀ t, offending? ts = some t → t ∈ ts ∧ e.found = t.text ∧ e.location = some t.location) ∧
      (offending? ts = none ↔ e.message ≠ "A parameter cannot be declared as a function" ∧
        ∃ us, Sentence True (ts ++ us)) ∧
      (e.isEof = true ↔
        offending? ts = none ∨ ∃ l, offending? ts = some ⟨.identifier "EOF", l⟩) ∧
      ((∀ l, ⟨.identifier "EOF", l⟩ ∉ ts) → (e.isEof = true ↔ offending? ts = none)) := by
  obtain ⟨hfound, hlocation⟩ := CompilationUnit.offending?_report h
  have hisEof : e.isEof = true ↔
      offending? ts = none ∨ ∃ l, offending? ts = some ⟨.identifier "EOF", l⟩ := by
    rw [SyntaxError.isEof, decide_eq_true_iff, hfound]
    cases offending? ts with
    | none => exact iff_of_true rfl (.inl rfl)
    | some t =>
      refine t.kind.text_eq_endMark_iff.trans ⟨fun hkind => .inr ⟨t.location, ?_⟩, ?_⟩
      · rw [← show SyntaxError.endMark = "EOF" from rfl, ← hkind]
      · rintro (hnone | ⟨l, hsome⟩)
        · cases hnone
        · cases hsome
          rfl
  refine ⟨fun t ht => ?_, CompilationUnit.offending?_eq_none_iff h, hisEof, fun hnot => ?_⟩
  · rw [ht] at hfound
    exact ⟨CompilationUnit.offending?_mem ht, hfound, hlocation t ht⟩
  · refine hisEof.trans (or_iff_left ?_)
    rintro ⟨l, hl⟩
    exact hnot l (CompilationUnit.offending?_mem hl)

/-- The tokens of `int f(int`. -/
def unnamedParameterTokens : List Token :=
  [.ofWord .intKw ⟨1, 1⟩, ⟨.identifier "f", ⟨1, 5⟩⟩, .ofMark .leftParen ⟨1, 6⟩,
    .ofWord .intKw ⟨1, 7⟩]

/-- In `int f(int` a name is missing behind the last token, and the report says so. -/
theorem syntaxError_isEof_iff_unnamed :
    CompilationUnit.ofTokens? unnamedParameterTokens =
        .error ⟨"Expected identifier", "EOF", some ⟨1, 7⟩⟩ ∧
      (∀ l, ⟨.identifier "EOF", l⟩ ∉ unnamedParameterTokens) ∧
      offending? unnamedParameterTokens = none := by
  have h : CompilationUnit.ofTokens? unnamedParameterTokens =
      .error ⟨"Expected identifier", "EOF", some ⟨1, 7⟩⟩ := by cbv
  have hnot (l : Location) : ⟨.identifier "EOF", l⟩ ∉ unnamedParameterTokens := by
    simp [unnamedParameterTokens, Token.ofWord, Token.ofMark]
  exact ⟨h, hnot, ((syntaxError_isEof_iff h).2.2.2 hnot).mp rfl⟩

/-- The text `EOF` is one identifier. Reading fails at it, and the report names the end of the
input. -/
theorem isEof_at_identifier :
    (scan "EOF").tokens = [⟨.identifier "EOF", ⟨1, 1⟩⟩] ∧
      CompilationUnit.ofTokens? [⟨.identifier "EOF", ⟨1, 1⟩⟩] =
        .error ⟨"Expected type specifier", "EOF", some ⟨1, 1⟩⟩ ∧
      offending? [⟨.identifier "EOF", ⟨1, 1⟩⟩] = some ⟨.identifier "EOF", ⟨1, 1⟩⟩ ∧
      (⟨"Expected type specifier", "EOF", some ⟨1, 1⟩⟩ : SyntaxError).isEof = true := by
  refine ⟨?_, ?_, ?_, rfl⟩
  · decide +kernel
  · cbv
  · cbv

end CSubset
