-- SUMMARY: The numbers that a failing parser has given out are those of expressions that end in the tokens it has read.
import CSubset.Proofs.Grammar.Numbering
import CSubset.Proofs.Parse.UnitSoundness

/-!
# Progress before a failure

A failure discards what has been read, but the numbers that were given out on the way stay given.
All of them belong to nodes of expressions that were complete by then: up to the cursor of the
failure the tokens complete such expressions, and their nodes account for all numbers in between.
The lemmas follow the parsers; for what a parser has read before the part that fails they rest on
those of soundness.
-/

namespace CSubset

open Grammar

namespace Cursor

/-- The tokens between two cursors complete expressions, whose nodes account for all numbers
there. -/
def Reaches (c c' : Cursor) : Prop := ∃ es, c.Spans Completes es c'

namespace Reaches

variable {α β : Type} {c c' c'' : Cursor}

theorem refl (c : Cursor) : c.Reaches c := ⟨[], [], rfl, .nil⟩

theorem trans (h : c.Reaches c') (h' : c'.Reaches c'') : c.Reaches c'' := by
  obtain ⟨ds, ts, hts, hd⟩ := h
  obtain ⟨es, us, hus, he⟩ := h'
  exact ⟨ds ++ es, ts ++ us, by rw [hts, hus, List.append_assoc], hd.append he⟩

/-- Tokens can be passed without completing anything. -/
theorem pass (ts : List Token) (c : Cursor) : Reaches ⟨ts ++ c.rest, c.nextId⟩ c :=
  ⟨[], ts, rfl, .none _ _⟩

theorem next {pick : Token.Kind → Option β} {x : β × Location}
    (h : c.next? pick = some (x, c')) : c.Reaches c' := by
  obtain ⟨k, hrest, -, hid⟩ := next?_eq_some.mp h
  exact ⟨[], [⟨k, x.2⟩], hrest, hid ▸ .none _ _⟩

theorem ofSpans {phrase : Nat → List Token → α → Nat → Prop} {es : List Expr} {a : α}
    (h : c.Spans phrase a c') (hp : ∀ i ts j, phrase i ts a j → Completes i ts es j) :
    c.Reaches c' := by
  obtain ⟨ts, hts, ha⟩ := h
  exact ⟨es, ts, hts, hp _ _ _ ha⟩

theorem ofSkips {phrase : List Token → α → Prop} {a : α} (h : c.Skips phrase a c') :
    c.Reaches c' := by
  obtain ⟨ts, rfl, -⟩ := h
  exact pass ts c'

theorem ofExpression {e : Expr} (h : c.Spans Assignment e c') : c.Reaches c' :=
  ofSpans h fun _ _ _ => .single

end Reaches

end Cursor

namespace Parse

variable {α β : Type} {c c₁ : Cursor}

/-- If a result is a failure, then its cursor is reached. -/
def FailsReached (c : Cursor) (r : Except Failure (α × Cursor)) : Prop :=
  ∀ f, r = .error f → c.Reaches f.cursor

namespace FailsReached

theorem ok (x : α × Cursor) : FailsReached c (.ok x) := nofun

theorem fail (complaint : Complaint) :
    FailsReached c (c.fail complaint : Except Failure (α × Cursor)) := by
  intro f hf
  cases hf
  exact .refl c

theorem after {r : Except Failure (α × Cursor)} (h : c.Reaches c₁) (hr : FailsReached c₁ r) :
    FailsReached c r := fun f hf => h.trans (hr f hf)

theorem bind {r : Except Failure (α × Cursor)} {g : α × Cursor → Except Failure (β × Cursor)}
    (hr : FailsReached c r) (hg : ∀ a c₁, r = .ok (a, c₁) → FailsReached c (g (a, c₁))) :
    FailsReached c (r >>= g) := by
  cases r with
  | ok x => exact hg x.1 x.2 rfl
  | error e =>
    intro f hf
    cases hf
    exact hr e rfl

end FailsReached

open FailsReached

theorem expect_progress (mark : Punctuator) (place : Place) (c : Cursor) :
    FailsReached c (plain (expect mark place c)) := by
  rw [plain_expect]
  split
  · exact .ok _
  · exact .fail _

theorem reaches_of_expect {mark : Punctuator} {place : Place} {x : Unit}
    (h : plain (expect mark place c) = .ok (x, c₁)) : c.Reaches c₁ := by
  obtain ⟨l, rfl⟩ := plain_expect_eq_ok.mp h
  exact .pass [_] c₁

/-- A phrase is complete but for the mark at its end. -/
theorem closing_progress {mark : Punctuator} {place : Place} {g : Unit × Cursor → α × Cursor}
    (h : c.Reaches c₁) :
    FailsReached c (plain (expect mark place c₁) >>= fun x => .ok (g x)) :=
  .bind (.after h (expect_progress _ _ _)) fun _ _ _ => .ok _

/-! ## Expressions -/

theorem reaches_of_binary {p : Nat} {e : Expr} (hp : 1 ≤ p) (h : c.Spans (Binary p) e c₁) :
    c.Reaches c₁ := .ofSpans h fun _ _ _ d => .single (.operand (d.mono hp))

theorem reaches_of_suffixed {e : Expr} (h : c.Spans Suffixed e c₁) : c.Reaches c₁ :=
  .ofSpans h fun _ _ _ d => .single (.operand ((Binary.operand (.operand d)).mono (by decide)))

-- The recursion is that of the parsers: a call behind a token has fewer tokens ahead, and the
-- summands order the calls that are made before any token is read.
mutual

theorem expr_progress (c : Cursor) : FailsReached c (plain (expr c)) := by
  rw [plain_expr]
  refine .bind (binary_progress 1 c) fun target c₁ h₁ => ?_
  have htarget : c.Reaches c₁ := reaches_of_binary (by decide) (binary_sound (by decide) h₁).1
  dsimp only
  split
  · exact .ok _
  · next op l c₂ h₂ =>
    have := length_of_plain h₁
    have := Cursor.length_of_next? h₂
    refine .bind (.after (htarget.trans (.next h₂)) (expr_progress c₂)) fun _ _ _ => ?_
    exact .ok _
termination_by 8 * c.rest.length + 5

theorem binary_progress (least : Nat) (c : Cursor) :
    FailsReached c (plain (binary least c)) := by
  rw [plain_binary]
  refine .bind (unary_progress c) fun left c₁ h₁ => ?_
  have := length_of_plain h₁
  obtain ⟨ts, hts, du⟩ := unary_sound h₁
  exact binaryLoop_progress ⟨ts, hts, .operand du⟩ (nextNot_binary_of_six_lt (by decide) _)
termination_by 8 * c.rest.length + 4

/-- The left operand stands between the cursors `c` and `c₁`. -/
theorem binaryLoop_progress {least p : Nat} {c d : Cursor} {left : Expr}
    (hleft : c.Spans (Binary p) left d) (hno : NextNot (binaryOpFrom? (p + 1)) d.rest) :
    FailsReached c (binaryLoop least left d) := by
  rw [binaryLoop_eq]
  split
  · exact .ok _
  · next op l c₂ hop =>
    have := Cursor.length_of_next? hop
    obtain ⟨hc, -⟩ := next?_binaryOp.mp hop
    have hp : op.precedence ≤ p := by
      refine Nat.le_of_not_lt fun hlt => ?_
      rw [← Cursor.next?_eq_none, next?_binaryOp.mpr ⟨hc, hlt⟩] at hno
      cases hno
    have hprec : op.precedence + 1 ≤ 7 := Nat.succ_le_succ op.precedence_le
    have hreached : c.Reaches d := reaches_of_binary (Nat.le_trans op.precedence_pos hp) hleft
    refine .bind (.after (hreached.trans (.next hop)) (binary_progress _ c₂)) fun right c₃ h₃ => ?_
    have := length_of_plain h₃
    obtain ⟨⟨us, hus, dr⟩, hno'⟩ := binary_sound hprec h₃
    obtain ⟨ts, hts, dl⟩ := hleft
    have dr' : Binary (op.precedence + 1) d.nextId us right c₃.nextId := by rwa [hc]
    refine binaryLoop_progress (d := c₃.bump) ⟨ts ++ .ofMark op.mark l :: us, ?_, ?_⟩ hno'
    · rw [hts, hc, hus]
      simp
    · exact .operator (mem_stratum.mpr rfl) (dl.mono hp) dr'
termination_by 8 * d.rest.length + 7

theorem unary_progress (c : Cursor) : FailsReached c (plain (unary c)) := by
  rw [plain_unary]
  split
  · exact suffixed_progress c
  · next op l c₁ h₁ =>
    have := Cursor.length_of_next? h₁
    exact .bind (.after (.next h₁) (unary_progress c₁)) fun _ _ _ => .ok _
termination_by 8 * c.rest.length + 3

theorem suffixed_progress (c : Cursor) : FailsReached c (plain (suffixed c)) := by
  rw [plain_suffixed]
  refine .bind (primary_progress c) fun base c₁ h₁ => ?_
  have := length_of_plain h₁
  obtain ⟨ts, hts, db⟩ := primary_sound h₁
  exact suffixLoop_progress ⟨ts, hts, .primary db⟩
termination_by 8 * c.rest.length + 2

/-- What is called or subscripted stands between the cursors `c` and `c₁`. -/
theorem suffixLoop_progress {c d : Cursor} {base : Expr} (hbase : c.Spans Suffixed base d) :
    FailsReached c (suffixLoop base d) := by
  rw [suffixLoop_eq]
  have hreached : c.Reaches d := reaches_of_suffixed hbase
  split
  · next l c₂ h₂ =>
    have := Cursor.length_of_next? h₂
    refine .bind (.after (hreached.trans (.next h₂)) (arguments_progress c₂)) fun args c₃ h₃ => ?_
    have := length_of_plain h₃
    obtain ⟨us, l', hus, da⟩ := arguments_sound h₃
    obtain ⟨ts, hts, db⟩ := hbase
    have hc := next?_mark.mp h₂
    have da' : Arguments d.nextId us args c₃.nextId := by rwa [hc]
    refine suffixLoop_progress (d := c₃.bump)
      ⟨ts ++ .ofMark .leftParen l :: (us ++ [.ofMark .rightParen l']), ?_, .call db da'⟩
    rw [hts, hc, hus]
    simp
  · split
    · exact .ok _
    · next l c₂ h₂ =>
      have := Cursor.length_of_next? h₂
      have hopened : c.Reaches c₂ := hreached.trans (.next h₂)
      refine .bind (.after hopened (expr_progress c₂)) fun subscript c₃ h₃ => ?_
      have hsubscript : c₂.Reaches c₃ := .ofExpression (expr_sound h₃)
      refine .bind (.after (hopened.trans hsubscript) (expect_progress _ _ _)) fun _ c₄ h₄ => ?_
      have := length_of_plain h₃
      have := length_of_plain h₄
      obtain ⟨us, hus, ds⟩ := expr_sound h₃
      obtain ⟨l', rfl⟩ := plain_expect_eq_ok.mp h₄
      obtain ⟨ts, hts, db⟩ := hbase
      have hc := next?_mark.mp h₂
      have ds' : Assignment d.nextId us subscript c₄.nextId := by rwa [hc]
      refine suffixLoop_progress (d := c₄.bump)
        ⟨ts ++ .ofMark .leftBracket l :: (us ++ [.ofMark .rightBracket l']), ?_, .index db ds'⟩
      rw [hts, hc, hus]
      simp
termination_by 8 * d.rest.length + 7

theorem arguments_progress (c : Cursor) : FailsReached c (plain (arguments c)) := by
  rw [plain_arguments]
  split
  · exact .ok _
  · refine .bind (argumentList_progress c) fun list c₁ h₁ => closing_progress ?_
    exact .ofSpans (argumentList_sound h₁) fun _ _ _ d => d.completes
termination_by 8 * c.rest.length + 7

theorem argumentList_progress (c : Cursor) : FailsReached c (plain (argumentList c)) := by
  rw [plain_argumentList]
  refine .bind (expr_progress c) fun first c₁ h₁ => ?_
  have hfirst : c.Reaches c₁ := .ofExpression (expr_sound h₁)
  dsimp only
  split
  · exact .ok _
  · next c₂ h₂ =>
    have := length_of_plain h₁
    have := Cursor.length_of_next? h₂
    exact .bind (.after (hfirst.trans (.next h₂)) (argumentList_progress c₂)) fun _ _ _ => .ok _
termination_by 8 * c.rest.length + 6

theorem primary_progress (c : Cursor) : FailsReached c (plain (primary c)) := by
  rw [plain_primary]
  split
  · exact .ok _
  split
  · exact .ok _
  split
  · exact .fail _
  · next c₁ h₁ =>
    have := Cursor.length_of_next? h₁
    refine .bind (.after (.next h₁) (expr_progress c₁)) fun inner c₂ h₂ => ?_
    exact closing_progress ((Cursor.Reaches.next h₁).trans (.ofExpression (expr_sound h₂)))
termination_by 8 * c.rest.length + 1

end

/-! ## Declarators -/

theorem baseType_progress (c : Cursor) : FailsReached c (plain (baseType c)) := by
  rw [plain_baseType]
  split
  · exact .ok _
  · exact .fail _

theorem typeSpecifier_progress (c : Cursor) : FailsReached c (plain (typeSpecifier c)) := by
  rw [plain_typeSpecifier]
  split
  · next c₁ h₁ => exact .bind (.after (.next h₁) (baseType_progress c₁)) fun _ _ _ => .ok _
  · exact .bind (baseType_progress c) fun _ _ _ => .ok _

theorem dimensions_progress (c : Cursor) : FailsReached c (plain (dimensions c)) := by
  rw [plain_dimensions]
  split
  · exact .ok _
  · next c₁ h₁ =>
    split
    · exact .after (.next h₁) (.fail _)
    · next size c₂ h₂ =>
      have hsize : c.Reaches c₂ := .trans (.next h₁) (.next h₂)
      refine .bind (.after hsize (expect_progress _ _ _)) fun _ c₃ h₃ => ?_
      have := Cursor.length_of_next? h₁
      have := Cursor.length_of_next? h₂
      have := length_of_plain h₃
      exact .bind (.after (hsize.trans (reaches_of_expect h₃)) (dimensions_progress c₃))
        fun _ _ _ => .ok _
termination_by c.rest.length

mutual

theorem declarator_progress (c : Cursor) : FailsReached c (plain (declarator c)) := by
  rw [plain_declarator]
  split
  · next c₁ h₁ =>
    have := Cursor.length_of_next? h₁
    exact .bind (.after (.next h₁) (declarator_progress c₁)) fun _ _ _ => .ok _
  split
  · exact .fail _
  · next name l c₁ h₁ =>
    split
    · next c₂ h₂ =>
      have := Cursor.length_of_next? h₁
      have := Cursor.length_of_next? h₂
      have hopened : c.Reaches c₂ := .trans (.next h₁) (.next h₂)
      refine .bind (.after hopened (parameterList_progress c₂)) fun list c₃ h₃ => ?_
      exact closing_progress (hopened.trans (.ofSkips (parameterList_sound h₃)))
    · exact .bind (.after (.next h₁) (dimensions_progress c₁)) fun _ _ _ => .ok _
termination_by 4 * c.rest.length

theorem parameterList_progress (c : Cursor) : FailsReached c (plain (parameterList c)) := by
  rw [plain_parameterList]
  split
  · exact .ok _
  split
  · exact .ok _
  · exact parameters_progress true c
termination_by 4 * c.rest.length + 3

theorem parameters_progress (first : Bool) (c : Cursor) :
    FailsReached c (plain (parameters first c)) := by
  rw [plain_parameters]
  split
  · split
    · exact .fail _
    · exact .ok _
  · refine .bind (parameter_progress c) fun p c₁ h₁ => ?_
    dsimp only
    split
    · exact .ok _
    · next c₂ h₂ =>
      have := length_of_plain h₁
      have := Cursor.length_of_next? h₂
      have hp : c.Reaches c₂ := .trans (.ofSkips (parameter_sound h₁)) (.next h₂)
      exact .bind (.after hp (parameters_progress false c₂)) fun _ _ _ => .ok _
termination_by 4 * c.rest.length + 2

theorem parameter_progress (c : Cursor) : FailsReached c (plain (parameter c)) := by
  rw [plain_parameter]
  refine .bind (typeSpecifier_progress c) fun type c₁ h₁ => ?_
  have := length_of_plain h₁
  have htype : c.Reaches c₁ := .ofSkips (typeSpecifier_sound h₁)
  refine .bind (.after htype (declarator_progress c₁)) fun d c₂ h₂ => ?_
  dsimp only
  split
  · exact .after (htype.trans (.ofSkips (declarator_sound h₂))) (.fail _)
  · exact .ok _
termination_by 4 * c.rest.length + 1

end

/-! ## Declarations -/

theorem typedHeading_progress (storage : Storage) (c : Cursor) :
    FailsReached c (plain (typedHeading storage c)) := by
  rw [plain_typedHeading]
  refine .bind (typeSpecifier_progress c) fun type c₁ h₁ => ?_
  have htype : c.Reaches c₁ := .ofSkips (typeSpecifier_sound h₁)
  exact .bind (.after htype (declarator_progress c₁)) fun _ _ _ => .ok _

theorem heading_progress (c : Cursor) : FailsReached c (plain (heading c)) := by
  rw [plain_heading]
  split
  · next c₁ h₁ => exact .after (.next h₁) (typedHeading_progress _ c₁)
  · exact typedHeading_progress _ c

theorem variableEnd_progress (v : Variable) (c : Cursor) :
    FailsReached c (plain (variableEnd v c)) := by
  rw [plain_variableEnd]
  split
  · next c₁ h₁ =>
    refine .bind (.after (.next h₁) (expr_progress c₁)) fun value c₂ h₂ => ?_
    exact closing_progress ((Cursor.Reaches.next h₁).trans (.ofExpression (expr_sound h₂)))
  · exact closing_progress (.refl c)

theorem prototypeEnd_progress (p : Prototype) (c : Cursor) :
    FailsReached c (plain (prototypeEnd p c)) := by
  rw [plain_prototypeEnd]
  exact closing_progress (.refl c)

theorem blockDecl_progress (c : Cursor) : FailsReached c (plain (blockDecl c)) := by
  rw [plain_blockDecl]
  refine .bind (heading_progress c) fun h c₁ h₁ => ?_
  have hheading : c.Reaches c₁ := .ofSkips (heading_sound h₁)
  refine .after hheading ?_
  cases h with
  | var v => exact .bind (variableEnd_progress v c₁) fun _ _ _ => .ok _
  | function p =>
    dsimp only
    split
    · exact .fail _
    · exact .bind (prototypeEnd_progress p c₁) fun _ _ _ => .ok _

theorem blockDecls_progress (c : Cursor) : FailsReached c (plain (blockDecls c)) := by
  rw [plain_blockDecls]
  split
  · refine .bind (blockDecl_progress c) fun d c₁ h₁ => ?_
    have := length_of_plain h₁
    have hd : c.Reaches c₁ := .ofSpans (blockDecl_sound h₁) fun _ _ _ => LocalDecl.completes
    exact .bind (.after hd (blockDecls_progress c₁)) fun _ _ _ => .ok _
  · exact .ok _
termination_by c.rest.length

/-! ## Statements -/

theorem clause_progress (mark : Punctuator) (place : Place) (c : Cursor) :
    FailsReached c (plain (clause mark place c)) := by
  rw [plain_clause]
  split
  · exact .ok _
  · refine .bind (expr_progress c) fun e c₁ h₁ => ?_
    exact closing_progress (.ofExpression (expr_sound h₁))

theorem reaches_of_clause {mark : Punctuator} {place : Place} {e : Option Expr}
    (h : plain (clause mark place c) = .ok (e, c₁)) : c.Reaches c₁ := by
  obtain ⟨ts, l, hts, d⟩ := clause_sound h
  exact ⟨e.toList, ts ++ [.ofMark mark l], by simp [hts], d.completes.close _⟩

theorem condition_progress (word : Keyword) (c : Cursor) :
    FailsReached c (plain (condition word c)) := by
  rw [plain_condition]
  refine .bind (expect_progress _ _ c) fun _ c₁ h₁ => ?_
  have hopened : c.Reaches c₁ := reaches_of_expect h₁
  refine .bind (.after hopened (expr_progress c₁)) fun e c₂ h₂ => ?_
  exact closing_progress (hopened.trans (.ofExpression (expr_sound h₂)))

theorem reaches_of_condition {word : Keyword} {e : Expr}
    (h : plain (condition word c) = .ok (e, c₁)) : c.Reaches c₁ := by
  obtain ⟨l, ts, l', hts, d⟩ := condition_sound h
  exact ⟨[e], .ofMark .leftParen l :: (ts ++ [.ofMark .rightParen l']), by simp [hts],
    ((Completes.single d).close _).skip _⟩

theorem forClauses_progress (c : Cursor) : FailsReached c (plain (forClauses c)) := by
  rw [plain_forClauses]
  refine .bind (expect_progress _ _ c) fun _ c₁ h₁ => .after (reaches_of_expect h₁) ?_
  refine .bind (clause_progress _ _ c₁) fun first c₂ h₂ => .after (reaches_of_clause h₂) ?_
  refine .bind (clause_progress _ _ c₂) fun middle c₃ h₃ => .after (reaches_of_clause h₃) ?_
  exact .bind (clause_progress _ _ c₃) fun _ _ _ => .ok _

theorem reaches_of_forClauses {clauses : ForClauses}
    (h : plain (forClauses c) = .ok (clauses, c₁)) : c.Reaches c₁ := by
  rw [plain_forClauses] at h
  obtain ⟨⟨_, c₂⟩, h₂, h⟩ := bind_eq_ok.mp h
  obtain ⟨⟨first, c₃⟩, h₃, h⟩ := bind_eq_ok.mp h
  obtain ⟨⟨middle, c₄⟩, h₄, h⟩ := bind_eq_ok.mp h
  obtain ⟨⟨step, c₅⟩, h₅, h⟩ := bind_eq_ok.mp h
  cases h
  exact (reaches_of_expect h₂).trans ((reaches_of_clause h₃).trans
    ((reaches_of_clause h₄).trans (reaches_of_clause h₅)))

mutual

theorem stmt_progress (c : Cursor) : FailsReached c (plain (stmt c)) := by
  rw [plain_stmt]
  split
  · refine .bind (expr_progress c) fun e c₁ h₁ => ?_
    exact closing_progress (.ofExpression (expr_sound h₁))
  · next lead l c₁ h₁ =>
    have := Cursor.length_of_next? h₁
    exact .after (.next h₁) (ledStmt_progress lead l c₁)
termination_by 8 * c.rest.length

theorem ledStmt_progress (lead : Leader) (l : Location) (c : Cursor) :
    FailsReached c (plain (ledStmt lead l c)) := by
  cases lead with
  | block =>
    rw [plain_ledStmt_block]
    exact .bind (block_progress l c) fun _ _ _ => .ok _
  | branch =>
    rw [plain_ledStmt_branch]
    refine .bind (condition_progress _ c) fun e c₁ h₁ => .after (reaches_of_condition h₁) ?_
    have := length_of_plain h₁
    refine .bind (body_progress _ c₁) fun b c₂ h₂ => ?_
    have hbody : c₁.Reaches c₂ := .ofSpans (body_sound h₂) fun _ _ _ => Compound.completes
    dsimp only
    split
    · exact .ok _
    · next c₃ h₃ =>
      have := length_of_plain h₂
      have := Cursor.length_of_next? h₃
      exact .bind (.after (hbody.trans (.next h₃)) (body_progress _ c₃)) fun _ _ _ => .ok _
  | whileLoop =>
    rw [plain_ledStmt_whileLoop]
    refine .bind (condition_progress _ c) fun e c₁ h₁ => .after (reaches_of_condition h₁) ?_
    have := length_of_plain h₁
    exact .bind (body_progress _ c₁) fun _ _ _ => .ok _
  | forLoop =>
    rw [plain_ledStmt_forLoop]
    refine .bind (forClauses_progress c) fun clauses c₁ h₁ => .after (reaches_of_forClauses h₁) ?_
    have := length_of_plain h₁
    exact .bind (body_progress _ c₁) fun _ _ _ => .ok _
  | returnStmt =>
    rw [plain_ledStmt_returnStmt]
    exact .bind (clause_progress _ _ c) fun _ _ _ => .ok _
  | jump kind =>
    rw [plain_ledStmt_jump]
    exact closing_progress (.refl c)
termination_by 8 * c.rest.length + 4

theorem body_progress (owner : Keyword) (c : Cursor) : FailsReached c (plain (body owner c)) := by
  rw [plain_body]
  split
  · exact .fail _
  · next l c₁ h₁ =>
    have := Cursor.length_of_next? h₁
    exact .after (.next h₁) (block_progress l c₁)
termination_by 8 * c.rest.length

theorem block_progress (l : Location) (c : Cursor) : FailsReached c (plain (block l c)) := by
  rw [plain_block]
  refine .bind (blockDecls_progress c) fun ds c₁ h₁ => ?_
  have := length_of_plain h₁
  have hdecls : c.Reaches c₁ := .ofSpans (blockDecls_sound h₁) fun _ _ _ d =>
    d.completes fun _ _ _ _ => LocalDecl.completes
  refine .after hdecls (.bind (stmts_progress c₁) fun ss c₂ h₂ => ?_)
  exact closing_progress (.ofSpans (stmts_sound h₂) fun _ _ _ => Statements.completes)
termination_by 8 * c.rest.length + 3

theorem stmts_progress (c : Cursor) : FailsReached c (plain (stmts c)) := by
  rw [plain_stmts]
  split
  · exact .ok _
  split
  · exact .ok _
  split
  · exact .fail _
  · refine .bind (stmt_progress c) fun s c₁ h₁ => ?_
    have := length_of_plain h₁
    have hs : c.Reaches c₁ := .ofSpans (stmt_sound h₁) fun _ _ _ => Statement.completes
    exact .bind (.after hs (stmts_progress c₁)) fun _ _ _ => .ok _
termination_by 8 * c.rest.length + 1

end

/-! ## Units -/

theorem external_progress (c : Cursor) : FailsReached c (plain (external c)) := by
  rw [plain_external]
  refine .bind (heading_progress c) fun h c₁ h₁ => .after (.ofSkips (heading_sound h₁)) ?_
  cases h with
  | var v => exact .bind (variableEnd_progress v c₁) fun _ _ _ => .ok _
  | function p =>
    dsimp only
    split
    · exact .bind (prototypeEnd_progress p c₁) fun _ _ _ => .ok _
    · next l c₂ h₂ =>
      split
      · exact .fail _
      · exact .bind (.after (.next h₂) (block_progress l c₂)) fun _ _ _ => .ok _

/-- The tokens up to where a reading stops complete the expressions of the declarations that it has
read, and perhaps others if it fails. -/
theorem reading_completes (c : Cursor) : ∃ es,
    c.Spans Completes ((Reading.from c).decls.flatMap External.exprs ++ es)
      (Reading.from c).cursor ∧
    ((Reading.from c).failure = none → es = [] ∧ (Reading.from c).cursor.rest = []) := by
  rw [Reading.from_eq]
  split
  · next hempty => exact ⟨[], ⟨[], rfl, .nil⟩, fun _ => ⟨rfl, List.isEmpty_iff.mp hempty⟩⟩
  · cases hd : plain (external c) with
    | error f =>
      obtain ⟨es, hes⟩ := external_progress c f hd
      exact ⟨es, hes, nofun⟩
    | ok x =>
      obtain ⟨d, c₁⟩ := x
      have := length_of_plain hd
      obtain ⟨ts, hts, dd⟩ := external_sound hd
      obtain ⟨es, ⟨us, hus, hes⟩, hlast⟩ := reading_completes c₁
      refine ⟨es, ⟨ts ++ us, by rw [hts, hus, List.append_assoc], ?_⟩, hlast⟩
      rw [List.flatMap_cons, List.append_assoc]
      exact dd.completes.append hes
termination_by c.rest.length

end Parse

end CSubset
