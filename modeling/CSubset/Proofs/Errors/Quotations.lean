-- SUMMARY: A syntax error quotes one of the tokens that were read, or the end of the input.
import CSubset.Proofs.Errors.FirstError

/-!
# Quotations

What a report of a syntax error quotes is the token at which the parser stopped, with one exception:
the objection to a function among the parameters quotes the name of the parameter, which has been
read by then. `Among` follows the tokens through the parser: what is left ahead of it, and the name
in a complaint, are among the tokens that it was given.
-/

namespace CSubset

/-- A name in a complaint is that of an identifier among `ts`, which stands at the position in the
complaint. -/
def Complaint.QuotesFrom (ts : List Token) : Complaint → Prop
  | .functionParameter name l => ⟨.identifier name, l⟩ ∈ ts
  | _ => True

theorem Cursor.subset_of_next? {β : Type} {c d : Cursor} {pick : Token.Kind → Option β}
    {x : β × Location} {ts : List Token} (h : c.next? pick = some (x, d)) (hc : c.rest ⊆ ts) :
    d.rest ⊆ ts := by
  obtain ⟨k, hrest, -⟩ := Cursor.next?_eq_some.mp h
  rw [hrest] at hc
  exact (List.cons_subset.mp hc).2

namespace Parse

variable {α β : Type} {ts : List Token}

/-- The tokens that a parser leaves ahead are among `ts`, and what its complaint quotes is. -/
def Among (ts : List Token) : Except Failure (α × Cursor) → Prop
  | .ok (_, c) => c.rest ⊆ ts
  | .error f => f.complaint.QuotesFrom ts

namespace Among

theorem done {a : α} {c : Cursor} (hc : c.rest ⊆ ts) : Among ts (.ok (a, c)) := hc

theorem fail {complaint : Complaint} {c : Cursor} (h : complaint.QuotesFrom ts) :
    Among ts (c.fail complaint : Except Failure (α × Cursor)) := h

theorem bind {r : Except Failure (α × Cursor)} {f : α × Cursor → Except Failure (β × Cursor)}
    (hr : Among ts r) (hf : ∀ a c, r = .ok (a, c) → c.rest ⊆ ts → Among ts (f (a, c))) :
    Among ts (r >>= f) := by
  cases r with
  | error e => exact hr
  | ok p => exact hf p.1 p.2 rfl hr

end Among

theorem expect_among {c : Cursor} (mark : Punctuator) (place : Place) (hc : c.rest ⊆ ts) :
    Among ts (plain (expect mark place c)) := by
  rw [plain_expect]
  split
  · next c₁ h₁ => exact .done (Cursor.subset_of_next? h₁ hc)
  · exact .fail trivial

/-! ## Expressions -/

mutual

theorem expr_among {c : Cursor} (hc : c.rest ⊆ ts) : Among ts (plain (expr c)) := by
  rw [plain_expr]
  refine .bind (binary_among 1 hc) fun target c₁ h₁ hc₁ => ?_
  dsimp only
  split
  · exact .done hc₁
  · next op l c₂ h₂ =>
    have := length_of_plain h₁
    have := Cursor.length_of_next? h₂
    refine .bind (expr_among (Cursor.subset_of_next? h₂ hc₁)) fun value c₃ _ hc₃ => ?_
    exact .done hc₃
termination_by 8 * c.rest.length + 5

theorem binary_among {c : Cursor} (least : Nat) (hc : c.rest ⊆ ts) :
    Among ts (plain (binary least c)) := by
  rw [plain_binary]
  refine .bind (unary_among hc) fun left c₁ h₁ hc₁ => ?_
  have := length_of_plain h₁
  exact binaryLoop_among least left hc₁
termination_by 8 * c.rest.length + 4

theorem binaryLoop_among {c : Cursor} (least : Nat) (left : Expr) (hc : c.rest ⊆ ts) :
    Among ts (binaryLoop least left c) := by
  rw [binaryLoop_eq]
  split
  · exact .done hc
  · next op l c₁ h₁ =>
    have := Cursor.length_of_next? h₁
    refine .bind (binary_among _ (Cursor.subset_of_next? h₁ hc)) fun right c₂ h₂ hc₂ => ?_
    have := length_of_plain h₂
    exact binaryLoop_among least _ (c := c₂.bump) hc₂
termination_by 8 * c.rest.length + 7

theorem unary_among {c : Cursor} (hc : c.rest ⊆ ts) : Among ts (plain (unary c)) := by
  rw [plain_unary]
  split
  · exact suffixed_among hc
  · next op l c₁ h₁ =>
    have := Cursor.length_of_next? h₁
    refine .bind (unary_among (Cursor.subset_of_next? h₁ hc)) fun operand c₂ _ hc₂ => ?_
    exact .done hc₂
termination_by 8 * c.rest.length + 3

theorem suffixed_among {c : Cursor} (hc : c.rest ⊆ ts) : Among ts (plain (suffixed c)) := by
  rw [plain_suffixed]
  refine .bind (primary_among hc) fun base c₁ h₁ hc₁ => ?_
  have := length_of_plain h₁
  exact suffixLoop_among base hc₁
termination_by 8 * c.rest.length + 2

theorem suffixLoop_among {c : Cursor} (base : Expr) (hc : c.rest ⊆ ts) :
    Among ts (suffixLoop base c) := by
  rw [suffixLoop_eq]
  split
  · next l c₁ h₁ =>
    have := Cursor.length_of_next? h₁
    refine .bind (arguments_among (Cursor.subset_of_next? h₁ hc)) fun args c₂ h₂ hc₂ => ?_
    have := length_of_plain h₂
    exact suffixLoop_among _ (c := c₂.bump) hc₂
  · split
    · exact .done hc
    · next l c₁ h₁ =>
      have := Cursor.length_of_next? h₁
      refine .bind (expr_among (Cursor.subset_of_next? h₁ hc)) fun subscript c₂ h₂ hc₂ => ?_
      refine .bind (expect_among _ _ hc₂) fun _ c₃ h₃ hc₃ => ?_
      have := length_of_plain h₂
      have := length_of_plain h₃
      exact suffixLoop_among _ (c := c₃.bump) hc₃
termination_by 8 * c.rest.length + 7

theorem arguments_among {c : Cursor} (hc : c.rest ⊆ ts) : Among ts (plain (arguments c)) := by
  rw [plain_arguments]
  split
  · next c₁ h₁ => exact .done (Cursor.subset_of_next? h₁ hc)
  · refine .bind (argumentList_among hc) fun list c₁ _ hc₁ => ?_
    exact .bind (expect_among _ _ hc₁) fun _ c₂ _ hc₂ => .done hc₂
termination_by 8 * c.rest.length + 7

theorem argumentList_among {c : Cursor} (hc : c.rest ⊆ ts) :
    Among ts (plain (argumentList c)) := by
  rw [plain_argumentList]
  refine .bind (expr_among hc) fun first c₁ h₁ hc₁ => ?_
  dsimp only
  split
  · exact .done hc₁
  · next c₂ h₂ =>
    have := length_of_plain h₁
    have := Cursor.length_of_next? h₂
    refine .bind (argumentList_among (Cursor.subset_of_next? h₂ hc₁)) fun more c₃ _ hc₃ => ?_
    exact .done hc₃
termination_by 8 * c.rest.length + 6

theorem primary_among {c : Cursor} (hc : c.rest ⊆ ts) : Among ts (plain (primary c)) := by
  rw [plain_primary]
  split
  · next c₁ h₁ =>
    have hc₁ := Cursor.subset_of_next? h₁ hc
    exact .done (c := c₁.bump) hc₁
  split
  · next first l c₁ h₁ =>
    obtain ⟨us, hus, -⟩ := strings_joinStrings c₁.rest
    have hc₁ := Cursor.subset_of_next? h₁ hc
    rw [hus] at hc₁
    exact fun t ht => hc₁ (List.mem_append_right us ht)
  split
  · exact .fail trivial
  · next c₁ h₁ =>
    have := Cursor.length_of_next? h₁
    refine .bind (expr_among (Cursor.subset_of_next? h₁ hc)) fun inner c₂ _ hc₂ => ?_
    exact .bind (expect_among _ _ hc₂) fun _ c₃ _ hc₃ => .done hc₃
termination_by 8 * c.rest.length + 1

end

/-! ## Declarations -/

theorem baseType_among {c : Cursor} (hc : c.rest ⊆ ts) : Among ts (plain (baseType c)) := by
  rw [plain_baseType]
  split
  · next c₁ h₁ => exact .done (Cursor.subset_of_next? h₁ hc)
  · exact .fail trivial

theorem typeSpecifier_among {c : Cursor} (hc : c.rest ⊆ ts) :
    Among ts (plain (typeSpecifier c)) := by
  rw [plain_typeSpecifier]
  split
  · next c₁ h₁ =>
    refine .bind (baseType_among (Cursor.subset_of_next? h₁ hc)) fun base c₂ _ hc₂ => ?_
    exact .done hc₂
  · exact .bind (baseType_among hc) fun base c₁ _ hc₁ => .done hc₁

theorem dimensions_among {c : Cursor} (hc : c.rest ⊆ ts) : Among ts (plain (dimensions c)) := by
  rw [plain_dimensions]
  split
  · exact .done hc
  · next c₁ h₁ =>
    split
    · exact .fail trivial
    · next size c₂ h₂ =>
      have hc₂ := Cursor.subset_of_next? h₂ (Cursor.subset_of_next? h₁ hc)
      refine .bind (expect_among _ _ hc₂) fun _ c₃ h₃ hc₃ => ?_
      have := Cursor.length_of_next? h₁
      have := Cursor.length_of_next? h₂
      have := length_of_plain h₃
      exact .bind (dimensions_among hc₃) fun sizes c₄ _ hc₄ => .done hc₄
termination_by c.rest.length

mutual

theorem declarator_among {c : Cursor} (hc : c.rest ⊆ ts) : Among ts (plain (declarator c)) := by
  rw [plain_declarator]
  split
  · next c₁ h₁ =>
    have := Cursor.length_of_next? h₁
    refine .bind (declarator_among (Cursor.subset_of_next? h₁ hc)) fun d c₂ _ hc₂ => ?_
    exact .done hc₂
  split
  · exact .fail trivial
  · next name l c₁ h₁ =>
    have hc₁ := Cursor.subset_of_next? h₁ hc
    split
    · next c₂ h₂ =>
      have := Cursor.length_of_next? h₁
      have := Cursor.length_of_next? h₂
      refine .bind (parameterList_among (Cursor.subset_of_next? h₂ hc₁)) fun list c₃ _ hc₃ => ?_
      exact .bind (expect_among _ _ hc₃) fun _ c₄ _ hc₄ => .done hc₄
    · exact .bind (dimensions_among hc₁) fun sizes c₂ _ hc₂ => .done hc₂
termination_by 4 * c.rest.length

theorem parameterList_among {c : Cursor} (hc : c.rest ⊆ ts) :
    Among ts (plain (parameterList c)) := by
  rw [plain_parameterList]
  split
  · exact .done hc
  split
  · next c₁ h₁ =>
    obtain ⟨hvoid, -⟩ := Option.filter_eq_some_iff.mp h₁
    exact .done (Cursor.subset_of_next? hvoid hc)
  · exact parameters_among true hc
termination_by 4 * c.rest.length + 3

theorem parameters_among {c : Cursor} (first : Bool) (hc : c.rest ⊆ ts) :
    Among ts (plain (parameters first c)) := by
  rw [plain_parameters]
  split
  · next c₁ h₁ =>
    split
    · exact .fail trivial
    · exact .done (Cursor.subset_of_next? h₁ hc)
  · refine .bind (parameter_among hc) fun p c₁ h₁ hc₁ => ?_
    dsimp only
    split
    · exact .done hc₁
    · next c₂ h₂ =>
      have := length_of_plain h₁
      have := Cursor.length_of_next? h₂
      refine .bind (parameters_among false (Cursor.subset_of_next? h₂ hc₁)) fun list c₃ _ hc₃ => ?_
      exact .done hc₃
termination_by 4 * c.rest.length + 2

/-- The name of a parameter is that of an identifier in its declarator. -/
theorem parameter_among {c : Cursor} (hc : c.rest ⊆ ts) : Among ts (plain (parameter c)) := by
  rw [plain_parameter]
  refine .bind (typeSpecifier_among hc) fun type c₁ h₁ hc₁ => ?_
  have := length_of_plain h₁
  refine .bind (declarator_among hc₁) fun d c₂ h₂ hc₂ => ?_
  dsimp only
  split
  · obtain ⟨us, rfl, hd⟩ := declarator_sound h₂
    cases hd
    exact .fail (hc₁ (by simp))
  · exact .done hc₂
termination_by 4 * c.rest.length + 1

end

theorem typedHeading_among {c : Cursor} (storage : Storage) (hc : c.rest ⊆ ts) :
    Among ts (plain (typedHeading storage c)) := by
  rw [plain_typedHeading]
  refine .bind (typeSpecifier_among hc) fun type c₁ _ hc₁ => ?_
  exact .bind (declarator_among hc₁) fun d c₂ _ hc₂ => .done hc₂

theorem heading_among {c : Cursor} (hc : c.rest ⊆ ts) : Among ts (plain (heading c)) := by
  rw [plain_heading]
  split
  · next c₁ h₁ => exact typedHeading_among _ (Cursor.subset_of_next? h₁ hc)
  · exact typedHeading_among _ hc

theorem variableEnd_among {c : Cursor} (v : Variable) (hc : c.rest ⊆ ts) :
    Among ts (plain (variableEnd v c)) := by
  rw [plain_variableEnd]
  split
  · next c₁ h₁ =>
    refine .bind (expr_among (Cursor.subset_of_next? h₁ hc)) fun value c₂ _ hc₂ => ?_
    exact .bind (expect_among _ _ hc₂) fun _ c₃ _ hc₃ => .done hc₃
  · exact .bind (expect_among _ _ hc) fun _ c₁ _ hc₁ => .done hc₁

theorem prototypeEnd_among {c : Cursor} (p : Prototype) (hc : c.rest ⊆ ts) :
    Among ts (plain (prototypeEnd p c)) := by
  rw [plain_prototypeEnd]
  exact .bind (expect_among _ _ hc) fun _ c₁ _ hc₁ => .done hc₁

theorem blockDecl_among {c : Cursor} (hc : c.rest ⊆ ts) : Among ts (plain (blockDecl c)) := by
  rw [plain_blockDecl]
  refine .bind (heading_among hc) fun h c₁ _ hc₁ => ?_
  cases h with
  | var v => exact .bind (variableEnd_among v hc₁) fun v c₂ _ hc₂ => .done hc₂
  | function p =>
    dsimp only
    split
    · exact .fail trivial
    · exact .bind (prototypeEnd_among p hc₁) fun p c₂ _ hc₂ => .done hc₂

theorem blockDecls_among {c : Cursor} (hc : c.rest ⊆ ts) : Among ts (plain (blockDecls c)) := by
  rw [plain_blockDecls]
  split
  · refine .bind (blockDecl_among hc) fun d c₁ h₁ hc₁ => ?_
    have := length_of_plain h₁
    exact .bind (blockDecls_among hc₁) fun ds c₂ _ hc₂ => .done hc₂
  · exact .done hc
termination_by c.rest.length

/-! ## Statements -/

theorem clause_among {c : Cursor} (mark : Punctuator) (place : Place) (hc : c.rest ⊆ ts) :
    Among ts (plain (clause mark place c)) := by
  rw [plain_clause]
  split
  · next c₁ h₁ => exact .done (Cursor.subset_of_next? h₁ hc)
  · refine .bind (expr_among hc) fun e c₁ _ hc₁ => ?_
    exact .bind (expect_among _ _ hc₁) fun _ c₂ _ hc₂ => .done hc₂

theorem condition_among {c : Cursor} (word : Keyword) (hc : c.rest ⊆ ts) :
    Among ts (plain (condition word c)) := by
  rw [plain_condition]
  refine .bind (expect_among _ _ hc) fun _ c₁ _ hc₁ => ?_
  refine .bind (expr_among hc₁) fun e c₂ _ hc₂ => ?_
  exact .bind (expect_among _ _ hc₂) fun _ c₃ _ hc₃ => .done hc₃

theorem forClauses_among {c : Cursor} (hc : c.rest ⊆ ts) : Among ts (plain (forClauses c)) := by
  rw [plain_forClauses]
  refine .bind (expect_among _ _ hc) fun _ c₁ _ hc₁ => ?_
  refine .bind (clause_among _ _ hc₁) fun first c₂ _ hc₂ => ?_
  refine .bind (clause_among _ _ hc₂) fun middle c₃ _ hc₃ => ?_
  exact .bind (clause_among _ _ hc₃) fun step c₄ _ hc₄ => .done hc₄

mutual

theorem stmt_among {c : Cursor} (hc : c.rest ⊆ ts) : Among ts (plain (stmt c)) := by
  rw [plain_stmt]
  split
  · refine .bind (expr_among hc) fun e c₁ _ hc₁ => ?_
    exact .bind (expect_among _ _ hc₁) fun _ c₂ _ hc₂ => .done hc₂
  · next lead l c₁ h₁ =>
    have := Cursor.length_of_next? h₁
    exact ledStmt_among lead l (Cursor.subset_of_next? h₁ hc)
termination_by 8 * c.rest.length

theorem ledStmt_among {c : Cursor} (lead : Leader) (l : Location) (hc : c.rest ⊆ ts) :
    Among ts (plain (ledStmt lead l c)) := by
  cases lead with
  | block =>
    rw [plain_ledStmt_block]
    exact .bind (block_among l hc) fun b c₁ _ hc₁ => .done hc₁
  | branch =>
    rw [plain_ledStmt_branch]
    refine .bind (condition_among _ hc) fun e c₁ h₁ hc₁ => ?_
    have := length_of_plain h₁
    refine .bind (body_among _ hc₁) fun b c₂ h₂ hc₂ => ?_
    have := length_of_plain h₂
    dsimp only
    split
    · exact .done hc₂
    · next c₃ h₃ =>
      have := Cursor.length_of_next? h₃
      refine .bind (body_among _ (Cursor.subset_of_next? h₃ hc₂)) fun a c₄ _ hc₄ => ?_
      exact .done hc₄
  | whileLoop =>
    rw [plain_ledStmt_whileLoop]
    refine .bind (condition_among _ hc) fun e c₁ h₁ hc₁ => ?_
    have := length_of_plain h₁
    exact .bind (body_among _ hc₁) fun b c₂ _ hc₂ => .done hc₂
  | forLoop =>
    rw [plain_ledStmt_forLoop]
    refine .bind (forClauses_among hc) fun clauses c₁ h₁ hc₁ => ?_
    have := length_of_plain h₁
    exact .bind (body_among _ hc₁) fun b c₂ _ hc₂ => .done hc₂
  | returnStmt =>
    rw [plain_ledStmt_returnStmt]
    exact .bind (clause_among _ _ hc) fun value c₁ _ hc₁ => .done hc₁
  | jump kind =>
    rw [plain_ledStmt_jump]
    exact .bind (expect_among _ _ hc) fun _ c₁ _ hc₁ => .done hc₁
termination_by 8 * c.rest.length + 4

theorem body_among {c : Cursor} (owner : Keyword) (hc : c.rest ⊆ ts) :
    Among ts (plain (body owner c)) := by
  rw [plain_body]
  split
  · exact .fail trivial
  · next l c₁ h₁ =>
    have := Cursor.length_of_next? h₁
    exact block_among l (Cursor.subset_of_next? h₁ hc)
termination_by 8 * c.rest.length

theorem block_among {c : Cursor} (l : Location) (hc : c.rest ⊆ ts) :
    Among ts (plain (block l c)) := by
  rw [plain_block]
  refine .bind (blockDecls_among hc) fun ds c₁ h₁ hc₁ => ?_
  have := length_of_plain h₁
  refine .bind (stmts_among hc₁) fun ss c₂ _ hc₂ => ?_
  exact .bind (expect_among _ _ hc₂) fun _ c₃ _ hc₃ => .done hc₃
termination_by 8 * c.rest.length + 3

theorem stmts_among {c : Cursor} (hc : c.rest ⊆ ts) : Among ts (plain (stmts c)) := by
  rw [plain_stmts]
  split
  · exact .done hc
  split
  · exact .done hc
  split
  · exact .fail trivial
  · refine .bind (stmt_among hc) fun s c₁ h₁ hc₁ => ?_
    have := length_of_plain h₁
    exact .bind (stmts_among hc₁) fun ss c₂ _ hc₂ => .done hc₂
termination_by 8 * c.rest.length + 1

end

/-! ## Units -/

theorem external_among {c : Cursor} (hc : c.rest ⊆ ts) : Among ts (plain (external c)) := by
  rw [plain_external]
  refine .bind (heading_among hc) fun h c₁ _ hc₁ => ?_
  cases h with
  | var v => exact .bind (variableEnd_among v hc₁) fun v c₂ _ hc₂ => .done hc₂
  | function p =>
    dsimp only
    split
    · exact .bind (prototypeEnd_among p hc₁) fun p c₂ _ hc₂ => .done hc₂
    · next l c₂ h₂ =>
      split
      · exact .fail trivial
      · refine .bind (block_among l (Cursor.subset_of_next? h₂ hc₁)) fun b c₃ _ hc₃ => ?_
        exact .done hc₃

/-- What a reading quotes is among the tokens that were read. -/
theorem reading_quotes {c : Cursor} {complaint : Complaint} (hc : c.rest ⊆ ts)
    (h : (Reading.from c).failure = some complaint) : complaint.QuotesFrom ts := by
  have hexternal := external_among hc
  rw [Reading.from_eq] at h
  split at h
  · cases h
  · rcases hd : plain (external c) with f | ⟨d, c₁⟩
    · rw [hd] at h hexternal
      cases h
      exact hexternal
    · rw [hd] at h hexternal
      have := length_of_plain hd
      exact reading_quotes (c := c₁) hexternal h
termination_by c.rest.length

end Parse

/-- A syntax error quotes a token, by its text and position, or the end of the input. -/
theorem CompilationUnit.found_of_ofTokens? {ts : List Token} {e : SyntaxError}
    (h : ofTokens? ts = .error e) :
    (∃ complaint : Complaint, e.message = complaint.message) ∧
      ((∃ t ∈ ts, e.found = t.text ∧ e.location = some t.location) ∨ e.found = "EOF") := by
  obtain ⟨complaint, hfail, rfl⟩ := ofTokens?_eq_error.mp h
  refine ⟨⟨complaint, Complaint.message_report⟩, ?_⟩
  cases hf : complaint.isFunctionParameter with
  | true =>
    have hquotes := Parse.reading_quotes (List.Subset.refl ts) hfail
    cases complaint with
    | functionParameter name l => exact .inl ⟨_, hquotes, rfl, rfl⟩
    | _ => cases hf
  | false =>
    have hforward : (Reading.from (Cursor.ofTokens ts)).cursor.rest <:+ ts :=
      Parse.reading_forward (Cursor.ofTokens ts)
    cases hrest : (Reading.from (Cursor.ofTokens ts)).cursor.rest with
    | nil =>
      rw [Complaint.report_nil hf]
      exact .inr rfl
    | cons t rest =>
      rw [hrest] at hforward
      rw [Complaint.report_cons hf]
      exact .inl ⟨t, hforward.subset List.mem_cons_self, rfl, rfl⟩

end CSubset
