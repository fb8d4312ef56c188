-- SUMMARY: A syntax error is reported at the first token that cannot continue a unit.
import Mathlib.Tactic
import CSubset.Proofs.Errors.Acceptance
import CSubset.Proofs.Errors.Lookahead
import CSubset.Proofs.Parse.Exactness

/-!
# The first error

What is read before a failure begins a sentence, what the parser makes of it does not depend on
what stands behind the next token, and on no sentence does the parser raise an objection other
than that to a function among the parameters. So no sentence goes on with the token at which any
other objection is raised.
-/

namespace CSubset

open Grammar Parse

/-! ## Reports -/

theorem Complaint.message_of_isFunctionParameter {complaint : Complaint}
    (h : complaint.isFunctionParameter = true) :
    complaint.message = "A parameter cannot be declared as a function" := by
  cases complaint with
  | functionParameter => rfl
  | _ => cases h

theorem Complaint.report_cons {complaint : Complaint} {t : Token} {rest tokens : List Token}
    (h : complaint.isFunctionParameter = false) :
    complaint.report (t :: rest) tokens = ⟨complaint.message, t.text, some t.location⟩ := by
  cases complaint with
  | functionParameter => cases h
  | _ => rfl

theorem Complaint.report_nil {complaint : Complaint} {tokens : List Token}
    (h : complaint.isFunctionParameter = false) :
    complaint.report [] tokens =
      ⟨complaint.message, "EOF", tokens.getLast?.map Token.location⟩ := by
  cases complaint with
  | functionParameter => cases h
  | _ => rfl

theorem Complaint.message_report {complaint : Complaint} {rest tokens : List Token} :
    (complaint.report rest tokens).message = complaint.message := by
  cases complaint with
  | functionParameter => rfl
  | _ => cases rest <;> rfl

namespace CompilationUnit

/-- The tokens do not form a unit if their reading fails, and the report is that of the failure. -/
theorem ofTokens?_eq_error {ts : List Token} {e : SyntaxError} :
    ofTokens? ts = .error e ↔
      ∃ complaint, (Reading.from (Cursor.ofTokens ts)).failure = some complaint ∧
        complaint.report (Reading.from (Cursor.ofTokens ts)).cursor.rest ts = e := by
  simp only [ofTokens?, Cursor.readUnit, Reading.result, Cursor.ofTokens]
  cases (Reading.from ⟨ts, 0⟩).failure with
  | none => simp
  | some complaint => simp

/-- Without functions among the parameters the sentences are the token lists that form a unit. -/
theorem sentence_iff_ofTokens? (ts : List Token) :
    Sentence False ts ↔ ∃ u, ofTokens? ts = .ok u := by
  constructor
  · intro h
    rcases reading_admits h 0 with hnone | ⟨hfalse, -⟩
    · refine ⟨⟨(Reading.from ⟨ts, 0⟩).decls⟩, ?_⟩
      simp only [ofTokens?, Cursor.readUnit, Reading.result, Cursor.ofTokens, hnone]
    · exact hfalse.elim
  · rintro ⟨u, hu⟩
    obtain ⟨j, hd⟩ := translationUnit_of_ofTokens? hu
    exact hd.shape _ fun _ _ _ _ => FileDecl.shape

end CompilationUnit

/-! ## Where reading stops -/

/-- The error is reported at the token `p` behind the tokens `before`, with which a sentence can
begin while it cannot go on with `p`; and whatever follows `p`, the error is the same. -/
structure StopsAt (before : List Token) (p : Token) (e : SyntaxError) : Prop where
  found : e.found = p.text
  location : e.location = some p.location
  viable : ∃ us, Sentence True (before ++ us)
  blocked : ∀ us, ¬ Sentence True (before ++ p :: us)
  settled : ∀ ts, before ++ [p] <+: ts → CompilationUnit.ofTokens? ts = .error e

/-- The error is reported at the end of the tokens, which are the beginning of a sentence but
not one themselves. -/
structure StopsAtEnd (ts : List Token) (e : SyntaxError) : Prop where
  found : e.found = "EOF"
  location : ∃ t, ts.getLast? = some t ∧ e.location = some t.location
  viable : ∃ us, Sentence True (ts ++ us)
  incomplete : ¬ Sentence True ts

/-- On a sentence the only objection is that to a function among the parameters. -/
theorem isFunctionParameter_of_sentence {ts : List Token} {complaint : Complaint} {i : Nat}
    (hs : Sentence True ts) (h : (Reading.from ⟨ts, i⟩).failure = some complaint) :
    complaint.isFunctionParameter = true := by
  rcases reading_admits hs i with hnone | ⟨-, complaint', h', hf⟩
  · rw [hnone] at h
    cases h
  · rw [h'] at h
    cases h
    exact hf

/-- A reading that stops before a token stops there with the same failure whatever follows. -/
theorem reading_settled {before after after' : List Token} {p : Token} {i j : Nat}
    (h : (Reading.from ⟨before ++ p :: after, i⟩).cursor = ⟨p :: after, j⟩) :
    Reading.from ⟨before ++ p :: after', i⟩ =
      { Reading.from ⟨before ++ p :: after, i⟩ with cursor := ⟨p :: after', j⟩ } := by
  have hd : Exchanged after after' (Reading.from ⟨before ++ p :: after, i⟩).cursor
      ⟨p :: after', j⟩ := ⟨p, [], by rw [h]; rfl, by rw [h]; rfl⟩
  exact reading_exchanged (hd.append (by rw [h])) hd

theorem stopsAt_of_reading {before after : List Token} {p : Token} {complaint : Complaint}
    {j : Nat} (hf : complaint.isFunctionParameter = false)
    (h : (Reading.from ⟨before ++ p :: after, 0⟩).failure = some complaint)
    (hc : (Reading.from ⟨before ++ p :: after, 0⟩).cursor = ⟨p :: after, j⟩)
    (hv : ∃ us, Sentence True (before ++ us)) :
    StopsAt before p ⟨complaint.message, p.text, some p.location⟩ where
  found := rfl
  location := rfl
  viable := hv
  blocked us hs := by
    have hus : (Reading.from ⟨before ++ p :: us, 0⟩).failure = some complaint := by
      rw [reading_settled hc, h]
    rw [isFunctionParameter_of_sentence hs hus] at hf
    cases hf
  settled ts hts := by
    obtain ⟨us, rfl⟩ := hts
    rw [List.append_assoc, List.singleton_append]
    refine CompilationUnit.ofTokens?_eq_error.mpr ⟨complaint, ?_, ?_⟩
    · rw [Cursor.ofTokens, reading_settled hc, h]
    · rw [Cursor.ofTokens, reading_settled hc, Complaint.report_cons hf]

theorem stopsAtEnd_of_reading {ts : List Token} {complaint : Complaint}
    (hf : complaint.isFunctionParameter = false)
    (h : (Reading.from ⟨ts, 0⟩).failure = some complaint)
    (hv : ∃ us, Sentence True (ts ++ us)) :
    StopsAtEnd ts ⟨complaint.message, "EOF", ts.getLast?.map Token.location⟩ where
  found := rfl
  location := by
    cases hlast : ts.getLast? with
    | some t => exact ⟨t, rfl, rfl⟩
    | none =>
      rw [List.getLast?_eq_none_iff.mp hlast, Reading.from_eq] at h
      cases h
  viable := hv
  incomplete hs := by
    rw [isFunctionParameter_of_sentence hs h] at hf
    cases hf

/-- The sentences are the token lists that form a unit, and with functions among the parameters
some more. Every syntax error has a position. Unless it is about a function among the parameters,
it is reported at the first token with which no sentence in this wider sense goes on, or at the
end of the tokens if a sentence could go on there. -/
theorem syntaxError_at_first_obstacle :
    (∀ ts, Sentence False ts ↔ ∃ u, CompilationUnit.ofTokens? ts = .ok u) ∧
      ∀ ts e, CompilationUnit.ofTokens? ts = .error e →
        e.location.isSome = true ∧
          (e.message ≠ "A parameter cannot be declared as a function" →
            (∃ before p after, ts = before ++ p :: after ∧ StopsAt before p e) ∨
              StopsAtEnd ts e) := by
  refine ⟨CompilationUnit.sentence_iff_ofTokens?, fun ts e h => ?_⟩
  obtain ⟨complaint, hfail, rfl⟩ := CompilationUnit.ofTokens?_eq_error.mp h
  cases hf : complaint.isFunctionParameter with
  | true =>
    have hmessage := Complaint.message_of_isFunctionParameter hf
    refine ⟨?_, fun hne => absurd (Complaint.message_report.trans hmessage) hne⟩
    cases complaint with
    | functionParameter => rfl
    | _ => cases hf
  | false =>
    obtain ⟨before, us, hts, hus⟩ := reading_stuck hf hfail
    replace hts : ts = before ++ (Reading.from (Cursor.ofTokens ts)).cursor.rest := hts
    rcases hc : (Reading.from (Cursor.ofTokens ts)).cursor with ⟨_ | ⟨p, after⟩, j⟩
    · obtain rfl : ts = before := by simpa only [hc, List.append_nil] using hts
      rw [Complaint.report_nil hf]
      have hend := stopsAtEnd_of_reading hf hfail ⟨us, hus⟩
      obtain ⟨t, ht, -⟩ := hend.location
      exact ⟨by simp [ht], fun _ => .inr hend⟩
    · obtain rfl : ts = before ++ p :: after := by simpa only [hc] using hts
      rw [Complaint.report_cons hf]
      exact ⟨rfl, fun _ => .inl ⟨before, p, after, rfl,
        stopsAt_of_reading hf hfail hc ⟨us, hus⟩⟩⟩

/-- In `int f(int g(+` reading stops at the plus, inside the parameter list of a parameter. -/
theorem syntaxError_at_first_obstacle_nested :
    CompilationUnit.ofTokens? [.ofWord .intKw ⟨1, 1⟩, ⟨.identifier "f", ⟨1, 5⟩⟩,
        .ofMark .leftParen ⟨1, 6⟩, .ofWord .intKw ⟨1, 7⟩, ⟨.identifier "g", ⟨1, 11⟩⟩,
        .ofMark .leftParen ⟨1, 12⟩, .ofMark .plus ⟨1, 13⟩] =
        .error ⟨"Expected type specifier", "+", some ⟨1, 13⟩⟩ ∧
      StopsAt [.ofWord .intKw ⟨1, 1⟩, ⟨.identifier "f", ⟨1, 5⟩⟩, .ofMark .leftParen ⟨1, 6⟩,
          .ofWord .intKw ⟨1, 7⟩, ⟨.identifier "g", ⟨1, 11⟩⟩, .ofMark .leftParen ⟨1, 12⟩]
        (.ofMark .plus ⟨1, 13⟩) ⟨"Expected type specifier", "+", some ⟨1, 13⟩⟩ := by
  have h : CompilationUnit.ofTokens? [.ofWord .intKw ⟨1, 1⟩, ⟨.identifier "f", ⟨1, 5⟩⟩,
      .ofMark .leftParen ⟨1, 6⟩, .ofWord .intKw ⟨1, 7⟩, ⟨.identifier "g", ⟨1, 11⟩⟩,
      .ofMark .leftParen ⟨1, 12⟩, .ofMark .plus ⟨1, 13⟩] =
      .error ⟨"Expected type specifier", "+", some ⟨1, 13⟩⟩ := by cbv
  refine ⟨h, ?_⟩
  rcases (syntaxError_at_first_obstacle.2 _ _ h).2 (by decide) with
    ⟨before, p, after, hts, hstop⟩ | hend
  · have hlocation := hstop.location
    rcases before with _ | ⟨_, _ | ⟨_, _ | ⟨_, _ | ⟨_, _ | ⟨_, _ | ⟨_, _ | ⟨_, _⟩⟩⟩⟩⟩⟩⟩ <;>
      simp at hts <;> grind
  · exact absurd hend.found (by decide)

end CSubset
