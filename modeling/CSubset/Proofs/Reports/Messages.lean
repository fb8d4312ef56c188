-- SUMMARY: Every message about a source text is in printable ASCII, whatever the text holds.
import CSubset.Proofs.Errors.Quotations
import CSubset.Proofs.Grammar.Names
import CSubset.Proofs.Renaming.Check
import CSubset.Proofs.Text.PlainAscii
import CSubset.Proofs.Token.Partition

/-!
# Messages

What a user has written gets into messages in three ways: as names and digits, which the scanner
takes from ASCII alone; as characters and texts, which are escaped; and as expressions and tokens,
which are made of names, literals and symbols. So every message is in printable ASCII.
-/

namespace CSubset

open Text

/-! ## Words and symbols -/

@[simp] theorem Keyword.plainAscii_text (word : Keyword) : PlainAscii word.text := by
  cases word <;> decide

@[simp] theorem Punctuator.plainAscii_text (mark : Punctuator) : PlainAscii mark.text := by
  cases mark <;> decide

@[simp] theorem ArithOp.plainAscii_symbol (op : ArithOp) : PlainAscii op.symbol := by
  cases op <;> decide

@[simp] theorem BinaryOp.plainAscii_symbol (op : BinaryOp) : PlainAscii op.symbol := by
  cases op with
  | arith op => exact op.plainAscii_symbol
  | order op => cases op <;> decide
  | _ => decide

@[simp] theorem UnaryOp.plainAscii_symbol (op : UnaryOp) : PlainAscii op.symbol := by
  cases op <;> decide

@[simp] theorem AssignOp.plainAscii_symbol (op : AssignOp) : PlainAscii op.symbol := by
  cases op with
  | plain => decide
  | compound op => exact plainAscii_append.mpr ⟨op.plainAscii_symbol, by decide⟩

@[simp] theorem ValueType.plainAscii_text (t : ValueType) : PlainAscii t.text := by
  induction t with
  | pointer target ih => exact plainAscii_append.mpr ⟨ih, by decide⟩
  | _ => decide

theorem isPlainAscii_of_isWordRest {c : Char} (h : Segment.isWordRest c = true) :
    isPlainAscii c = true := by
  change (((decide (65 ≤ c.val ∧ c.val ≤ 90) || decide (97 ≤ c.val) && decide (c.val ≤ 122)) ||
    c.isDigit) || decide (c = '_')) = true at h
  simp only [Bool.or_eq_true, Bool.and_eq_true, decide_eq_true_eq, UInt32.le_iff_toNat_le] at h
  rcases h with (h | h) | rfl
  · change (65 ≤ c.toNat ∧ c.toNat ≤ 90) ∨ (97 ≤ c.toNat ∧ c.toNat ≤ 122) at h
    exact isPlainAscii_iff.mpr (by omega)
  · exact isPlainAscii_of_isDigit h
  · rfl

theorem IsWord.isPlainAscii {w : List Char} (h : IsWord w) : ∀ c ∈ w, isPlainAscii c = true := by
  obtain ⟨c, r, rfl, hc, hr⟩ := h
  refine List.forall_mem_cons.mpr ⟨isPlainAscii_of_isWordRest (isWordRest_of_isWordStart hc), ?_⟩
  exact fun x hx => isPlainAscii_of_isWordRest (hr x hx)

/-! ## Literals, tokens and expressions -/

@[simp] theorem Token.plainAscii_charText (c : Char) : PlainAscii (charText c) := by
  simp +decide [charText]

@[simp] theorem Token.plainAscii_stringText (s : String) : PlainAscii (stringText s) := by
  simp +decide [stringText]

@[simp] theorem Literal.plainAscii_text (value : Literal) : PlainAscii value.text := by
  cases value <;> simp [text]

/-- A token is displayed in printable ASCII if its name is, when it has one. -/
theorem Token.plainAscii_text {t : Token} (h : ∀ name, t.name? = some name → PlainAscii name) :
    PlainAscii t.text := by
  obtain ⟨kind, l⟩ := t
  cases kind with
  | identifier name => exact h name rfl
  | _ => simp [Token.text, Kind.text]

namespace Expr

mutual

/-- An expression whose names are in printable ASCII is displayed so. -/
theorem plainAscii_text : ∀ {e : Expr}, (∀ name ∈ e.names, PlainAscii name) → PlainAscii e.text
  | .literal _ value, _ => value.plainAscii_text
  | .ident _ name, h => h name List.mem_cons_self
  | .unary _ op operand, h => by
    have hoperand := plainAscii_text (e := operand) h
    simp +decide [text, hoperand]
  | .binary _ op left right, h => by
    obtain ⟨hleft, hright⟩ := List.forall_mem_append.mp h
    simp +decide [text, plainAscii_text hleft, plainAscii_text hright]
  | .assign _ op target value, h => by
    obtain ⟨htarget, hvalue⟩ := List.forall_mem_append.mp h
    simp +decide [text, plainAscii_text htarget, plainAscii_text hvalue]
  | .call _ callee args, h => by
    obtain ⟨hcallee, hargs⟩ := List.forall_mem_append.mp h
    simp +decide [text, plainAscii_text hcallee, plainAscii_textArguments hargs]
  | .index _ base subscript, h => by
    obtain ⟨hbase, hsubscript⟩ := List.forall_mem_append.mp h
    simp +decide [text, plainAscii_text hbase, plainAscii_text hsubscript]

theorem plainAscii_textArguments : ∀ {es : List Expr},
    (∀ name ∈ namesAll es, PlainAscii name) → PlainAscii (textArguments es)
  | [], _ => by decide
  | e :: rest, h => by
    obtain ⟨he, hrest⟩ := List.forall_mem_append.mp h
    simp +decide [textArguments, plainAscii_text he, plainAscii_textArguments hrest]

end

end Expr

/-! ## Errors in a text -/

/-- The names in a text are in printable ASCII. -/
theorem plainAscii_of_mem_scan {source : String} {t : Token} {name : String}
    (h : t ∈ (scan source).tokens) (hname : t.name? = some name) : PlainAscii name := by
  obtain ⟨w, hw⟩ := spells_of_mem_scan h
  rw [Token.name?_eq_some hname] at hw
  obtain ⟨rfl, hword, -⟩ := hw
  exact plainAscii_iff.mpr hword.isPlainAscii

theorem LexicalError.Kind.plainAscii_message {kind : LexicalError.Kind}
    (h : (∃ c, kind = .illegalCharacter c) ∨ kind.IsInner) : PlainAscii kind.message := by
  unfold message
  cases kind with
  | illegalCharacter c | invalidEscape c => simp +decide
  | invalidNumber text =>
    have hdigits : ∀ c ∈ text.toList, c.isDigit = true := h.elim nofun id
    have htext : PlainAscii text :=
      plainAscii_iff.mpr fun c hc => isPlainAscii_of_isDigit (hdigits c hc)
    simp +decide [htext]
  | _ => decide

theorem LexicalError.plainAscii_message {source : String} {e : LexicalError}
    (h : e ∈ (scan source).errors) : PlainAscii e.message := by
  have hkind := Kind.plainAscii_message (kind_of_mem_scan h)
  unfold message
  simp +decide [hkind]

theorem Place.plainAscii_text (place : Place) : PlainAscii place.text := by
  cases place <;> simp +decide [text]

theorem Complaint.plainAscii_message (complaint : Complaint) : PlainAscii complaint.message := by
  cases complaint with
  | missing mark place => simp +decide [message, place.plainAscii_text]
  | functionParameter name l =>
    rw [message_of_isFunctionParameter rfl]
    decide
  | _ => decide

theorem SyntaxError.plainAscii_text {source : String} {e : SyntaxError}
    (h : CompilationUnit.ofTokens? (scan source).tokens = .error e) : PlainAscii e.text := by
  obtain ⟨⟨complaint, hmessage⟩, hfound⟩ := CompilationUnit.found_of_ofTokens? h
  replace hmessage : PlainAscii e.message := hmessage ▸ complaint.plainAscii_message
  replace hfound : PlainAscii e.found := by
    rcases hfound with ⟨t, ht, hfound, -⟩ | hfound
    · rw [hfound]
      exact Token.plainAscii_text fun name hname => plainAscii_of_mem_scan ht hname
    · rw [hfound]
      decide
  unfold text
  split
  · simp +decide [hmessage, hfound]
  · simp +decide [hmessage, hfound]

/-! ## Diagnostics -/

theorem Mismatch.plainAscii_message {m : Mismatch} (h : m.Uses PlainAscii) :
    PlainAscii m.message := by
  unfold message
  cases m with
  | voidVariable name | voidParameter name | initializer name | returnFromVoid name
  | returnValue name | calledName name | argument _ name =>
    have hname : PlainAscii name := h
    simp +decide [hname]
  | operands symbol left right =>
    have hsymbol : PlainAscii symbol := by
      rcases h with ⟨op, rfl⟩ | ⟨op, rfl⟩
      · exact op.plainAscii_symbol
      · exact op.plainAscii_symbol
    simp +decide [hsymbol]
  | operand symbol type =>
    obtain ⟨op, rfl⟩ := h
    simp +decide
  | condition type | assigned value target | subscript type | indexed type | calledValue type =>
    simp +decide

theorem Cause.plainAscii_message {c : Cause} (h : c.Uses PlainAscii) :
    PlainAscii c.diagnostic.message := by
  unfold Diagnostic.message
  cases c with
  | duplicate name | undefined name | missingReturn name =>
    have hname : PlainAscii name := h
    simp +decide [diagnostic, hname]
  | mismatch m l =>
    have hmessage := Mismatch.plainAscii_message h
    simp +decide [diagnostic, Mismatch.report, hmessage]
  | arity function expected got variadic l =>
    have hname : PlainAscii function := h
    have hleast : PlainAscii (if variadic then "at least " else "") := by split <;> decide
    have hplural : PlainAscii (if expected = 1 then "" else "s") := by split <;> decide
    simp +decide [diagnostic, hname, hleast, hplural]
  | jump kind l => simp +decide [diagnostic]
  | notAssignable target l =>
    have htarget := Expr.plainAscii_text h
    simp +decide [diagnostic, htarget]

theorem Diagnostic.plainAscii_missingMain (found : Nat) :
    PlainAscii (missingMain found).message := by
  unfold message
  dsimp only
  split
  · decide
  · simp +decide

/-- The diagnostics about a unit that is read from a text are in printable ASCII. -/
theorem Diagnostic.plainAscii_message {source : String} {u : CompilationUnit} {d : Diagnostic}
    (hu : CompilationUnit.ofTokens? (scan source).tokens = .ok u) {returnTypes : Bool}
    (hd : d ∈ (u.check returnTypes).diagnostics) : PlainAscii d.message := by
  have hnames : ∀ name ∈ u.decls.flatMap External.names, PlainAscii name := by
    intro name hname
    have hidentifiers := (Parse.translationUnit_of_ofTokens? hu).names
    rw [← CompilationUnit.names, ← hidentifiers] at hname
    obtain ⟨t, ht, hname⟩ := List.mem_filterMap.mp hname
    exact plainAscii_of_mem_scan ht hname
  rw [u.check_diagnostics] at hd
  rcases List.mem_append.mp hd with hd | hd
  · obtain ⟨c, hc, rfl⟩ := External.checkAll_causes returnTypes hnames .initial d hd
    exact Cause.plainAscii_message hc
  · unfold CompilationUnit.mainFaults at hd
    dsimp only at hd
    split at hd
    · cases hd
    · rw [List.mem_singleton.mp hd]
      exact plainAscii_missingMain _

end CSubset
