-- SUMMARY: A parser copies positions and counts nodes, and its course depends on neither.
import CSubset.Proofs.Parse.Plain
import CSubset.Proofs.Syntax.Relabel

/-!
# Parsing relabeled tokens

No parser looks at the position of a token or at the number of the next node: it only puts them
into what it builds, or into its complaint. So with other positions, and with the count begun at
another number, it takes the same course and yields the same value or complaint with its labels
changed. `Relabeled` says so of two results; it holds of the results of a parser if it holds of
the results of the parsers that it calls.
-/

namespace CSubset

/-! ## Labels of tokens and complaints -/

/-- Whether numbers that follow each other still do when they are changed. -/
def Relabeling.Counts (r : Relabeling) : Prop := ∀ n, r.number (n + 1) = r.number n + 1

variable (r : Relabeling)

/-- A token at its new position. -/
def Token.relabel (t : Token) : Token := { t with location := r.place t.location }

/-- A cursor with the labels of what is ahead changed. -/
def Cursor.relabel (c : Cursor) : Cursor := ⟨c.rest.map (Token.relabel r), r.number c.nextId⟩

/-- A complaint with its position changed, if it has one. -/
def Complaint.relabel : Complaint → Complaint
  | functionParameter name l => functionParameter name (r.place l)
  | complaint => complaint

/-- What stands behind the name in a declarator, with its labels changed. -/
def Parse.DeclaratorTail.relabel : DeclaratorTail → DeclaratorTail
  | dimensions sizes => .dimensions sizes
  | parameters list variadic => .parameters (list.map (Parameter.relabel r)) variadic

/-- A declarator with its labels changed. -/
def Parse.Declarator.relabel (d : Declarator) : Declarator :=
  { d with location := r.place d.location, tail := d.tail.relabel r }

/-- A heading with its labels changed. -/
def Parse.Heading.relabel : Heading → Heading
  | function p => .function (p.relabel r)
  | var v => .var (v.relabel r)

/-- The clauses of a counting loop with their labels changed. -/
def Parse.ForClauses.relabel (f : ForClauses) : ForClauses :=
  ⟨f.first.map (Expr.relabel r), f.condition.map (Expr.relabel r), f.step.map (Expr.relabel r)⟩

/-- A failure with its labels changed. -/
def Failure.relabel (f : Failure) : Failure := ⟨f.complaint.relabel r, f.cursor.relabel r⟩

/-- A syntax error at its new position. -/
def SyntaxError.relabel (e : SyntaxError) : SyntaxError :=
  { e with location := e.location.map r.place }

variable {r} {α β : Type}

theorem Cursor.bump_relabel (hr : r.Counts) (c : Cursor) :
    (c.relabel r).bump = c.bump.relabel r := by
  rw [relabel, bump, bump, relabel, hr]

theorem Cursor.relabel_rest (c : Cursor) : (c.relabel r).rest = c.rest.map (Token.relabel r) := rfl

theorem Cursor.head?_relabel (c : Cursor) :
    (c.relabel r).rest.head? = c.rest.head?.map (Token.relabel r) := by
  rw [relabel_rest, List.head?_map]

theorem Cursor.location_relabel {c : Cursor} (h : c.rest ≠ []) :
    (c.relabel r).location = r.place c.location := by
  rcases c with ⟨_ | ⟨t, rest⟩, i⟩
  · exact absurd rfl h
  · rfl

theorem Cursor.next?_relabel (c : Cursor) (pick : Token.Kind → Option β) :
    (c.relabel r).next? pick =
      (c.next? pick).map fun x => ((x.1.1, r.place x.1.2), x.2.relabel r) := by
  rcases c with ⟨_ | ⟨t, rest⟩, i⟩
  · rfl
  · simp only [relabel, List.map_cons, next?_cons, Option.map_map]
    rfl

namespace Parse

/-! ## Results -/

/-- The second result is the first with its labels changed, those of its value by `f`. -/
inductive Relabeled (r : Relabeling) (f : α → α) :
    Except Failure (α × Cursor) → Except Failure (α × Cursor) → Prop where
  | ok (a : α) (c : Cursor) : Relabeled r f (.ok (a, c)) (.ok (f a, c.relabel r))
  | error (e : Failure) : Relabeled r f (.error e) (.error (e.relabel r))

namespace Relabeled

variable {f : α → α} {g : β → β}

theorem node (hr : r.Counts) (a : α) (c : Cursor) :
    Relabeled r f (.ok (a, c.bump)) (.ok (f a, (c.relabel r).bump)) := by
  rw [Cursor.bump_relabel hr]
  exact .ok a c.bump

theorem bind {x y : Except Failure (α × Cursor)} {k k' : α × Cursor → Except Failure (β × Cursor)}
    (h : Relabeled r f x y)
    (hk : ∀ a c, x = .ok (a, c) → Relabeled r g (k (a, c)) (k' (f a, c.relabel r))) :
    Relabeled r g (x >>= k) (y >>= k') := by
  cases h with
  | ok a c => exact hk a c rfl
  | error e => exact .error e

end Relabeled

theorem expect_relabeled (mark : Punctuator) (place : Place) (c : Cursor) :
    Relabeled r id (plain (expect mark place c)) (plain (expect mark place (c.relabel r))) := by
  rw [plain_expect, plain_expect, Cursor.next?_relabel]
  rcases c.next? (mark? mark) with _ | ⟨⟨_, l⟩, c₁⟩
  · exact .error _
  · exact .ok _ _

/-! ## Expressions -/

theorem joinStrings_relabel (ts : List Token) :
    joinStrings (ts.map (Token.relabel r)) =
      ((joinStrings ts).1, (joinStrings ts).2.map (Token.relabel r)) := by
  induction ts with
  | nil => rfl
  | cons t rest ih =>
    simp only [List.map_cons, joinStrings, Token.relabel, ih]
    cases string? t.kind <;> rfl

theorem leaf_relabel {k : Token.Kind} {build : Anchor → Expr} (h : leaf? k = some build)
    (a : Anchor) : (build a).relabel r = build (a.relabel r) := by
  cases k with
  | keyword | punctuator | stringLiteral => cases h
  | intLiteral | floatLiteral | charLiteral | identifier =>
    cases h
    rfl

mutual

theorem expr_relabeled (hr : r.Counts) (c : Cursor) :
    Relabeled r (Expr.relabel r) (plain (expr c)) (plain (expr (c.relabel r))) := by
  rw [plain_expr, plain_expr]
  refine .bind (binary_relabeled hr 1 c) fun target c₁ h₁ => ?_
  dsimp only
  rw [Cursor.next?_relabel]
  rcases h₂ : c₁.next? assignOp? with _ | ⟨⟨op, l⟩, c₂⟩
  · exact .ok _ _
  · have := length_of_plain h₁
    have := Cursor.length_of_next? h₂
    refine .bind (expr_relabeled hr c₂) fun value c₃ _ => ?_
    exact .node hr _ _
termination_by 8 * c.rest.length + 5

theorem binary_relabeled (hr : r.Counts) (least : Nat) (c : Cursor) :
    Relabeled r (Expr.relabel r) (plain (binary least c)) (plain (binary least (c.relabel r))) := by
  rw [plain_binary, plain_binary]
  refine .bind (unary_relabeled hr c) fun left c₁ h₁ => ?_
  have := length_of_plain h₁
  exact binaryLoop_relabeled hr least left c₁
termination_by 8 * c.rest.length + 4

theorem binaryLoop_relabeled (hr : r.Counts) (least : Nat) (left : Expr) (c : Cursor) :
    Relabeled r (Expr.relabel r) (binaryLoop least left c)
      (binaryLoop least (left.relabel r) (c.relabel r)) := by
  rw [binaryLoop_eq, binaryLoop_eq, Cursor.next?_relabel]
  rcases h₁ : c.next? (binaryOpFrom? least) with _ | ⟨⟨op, l⟩, c₁⟩
  · exact .ok _ _
  · have := Cursor.length_of_next? h₁
    refine .bind (binary_relabeled hr (op.precedence + 1) c₁) fun right c₂ h₂ => ?_
    have := length_of_plain h₂
    dsimp only
    rw [Cursor.bump_relabel hr]
    exact binaryLoop_relabeled hr least _ c₂.bump
termination_by 8 * c.rest.length + 7

theorem unary_relabeled (hr : r.Counts) (c : Cursor) :
    Relabeled r (Expr.relabel r) (plain (unary c)) (plain (unary (c.relabel r))) := by
  rw [plain_unary, plain_unary, Cursor.next?_relabel]
  rcases h₁ : c.next? unaryOp? with _ | ⟨⟨op, l⟩, c₁⟩
  · exact suffixed_relabeled hr c
  · have := Cursor.length_of_next? h₁
    exact .bind (unary_relabeled hr c₁) fun operand c₂ _ => .node hr _ _
termination_by 8 * c.rest.length + 3

theorem suffixed_relabeled (hr : r.Counts) (c : Cursor) :
    Relabeled r (Expr.relabel r) (plain (suffixed c)) (plain (suffixed (c.relabel r))) := by
  rw [plain_suffixed, plain_suffixed]
  refine .bind (primary_relabeled hr c) fun base c₁ h₁ => ?_
  have := length_of_plain h₁
  exact suffixLoop_relabeled hr base c₁
termination_by 8 * c.rest.length + 2

theorem suffixLoop_relabeled (hr : r.Counts) (base : Expr) (c : Cursor) :
    Relabeled r (Expr.relabel r) (suffixLoop base c)
      (suffixLoop (base.relabel r) (c.relabel r)) := by
  rw [suffixLoop_eq, suffixLoop_eq, Cursor.next?_relabel, Cursor.next?_relabel]
  rcases h₁ : c.next? (mark? .leftParen) with _ | ⟨⟨_, l⟩, c₁⟩
  · rcases h₂ : c.next? (mark? .leftBracket) with _ | ⟨⟨_, l⟩, c₁⟩
    · exact .ok _ _
    · have := Cursor.length_of_next? h₂
      refine .bind (expr_relabeled hr c₁) fun subscript c₂ h₃ => ?_
      refine .bind (expect_relabeled _ _ c₂) fun _ c₃ h₄ => ?_
      have := length_of_plain h₃
      have := length_of_plain h₄
      dsimp only
      rw [Cursor.bump_relabel hr]
      exact suffixLoop_relabeled hr (.index ⟨c₃.nextId, l⟩ base subscript) c₃.bump
  · have := Cursor.length_of_next? h₁
    refine .bind (arguments_relabeled hr c₁) fun args c₂ h₂ => ?_
    have := length_of_plain h₂
    dsimp only
    rw [Cursor.bump_relabel hr]
    exact suffixLoop_relabeled hr (.call ⟨c₂.nextId, l⟩ base args) c₂.bump
termination_by 8 * c.rest.length + 7

theorem arguments_relabeled (hr : r.Counts) (c : Cursor) :
    Relabeled r (Expr.relabelAll r) (plain (arguments c)) (plain (arguments (c.relabel r))) := by
  rw [plain_arguments, plain_arguments, Cursor.next?_relabel]
  rcases c.next? (mark? .rightParen) with _ | ⟨_, c₁⟩
  · refine .bind (argumentList_relabeled hr c) fun list c₁ _ => ?_
    exact .bind (expect_relabeled _ _ c₁) fun _ c₂ _ => .ok _ _
  · exact .ok _ _
termination_by 8 * c.rest.length + 7

theorem argumentList_relabeled (hr : r.Counts) (c : Cursor) :
    Relabeled r (Expr.relabelAll r) (plain (argumentList c))
      (plain (argumentList (c.relabel r))) := by
  rw [plain_argumentList, plain_argumentList]
  refine .bind (expr_relabeled hr c) fun first c₁ h₁ => ?_
  dsimp only
  rw [Cursor.next?_relabel]
  rcases h₂ : c₁.next? (mark? .comma) with _ | ⟨_, c₂⟩
  · exact .ok _ _
  · have := length_of_plain h₁
    have := Cursor.length_of_next? h₂
    exact .bind (argumentList_relabeled hr c₂) fun more c₃ _ => .ok _ _
termination_by 8 * c.rest.length + 6

theorem primary_relabeled (hr : r.Counts) (c : Cursor) :
    Relabeled r (Expr.relabel r) (plain (primary c)) (plain (primary (c.relabel r))) := by
  rw [plain_primary, plain_primary, Cursor.next?_relabel, Cursor.next?_relabel,
    Cursor.next?_relabel]
  rcases h : c.next? leaf? with _ | ⟨⟨build, l⟩, c₁⟩
  · rcases c.next? string? with _ | ⟨⟨first, l⟩, c₁⟩
    · rcases h₁ : c.next? (mark? .leftParen) with _ | ⟨⟨_, l⟩, c₁⟩
      · exact .error _
      · have := Cursor.length_of_next? h₁
        refine .bind (expr_relabeled hr c₁) fun inner c₂ _ => ?_
        exact .bind (expect_relabeled _ _ c₂) fun _ c₃ _ => .ok _ _
    · dsimp only [Option.map_none, Option.map_some, Cursor.relabel]
      rw [joinStrings_relabel, ← hr]
      exact .ok _ ⟨(joinStrings c₁.rest).2, c₁.nextId + 1⟩
  · obtain ⟨k, -, hk, -⟩ := Cursor.next?_eq_some.mp h
    have hnode := Relabeled.node (f := Expr.relabel r) hr (build ⟨c₁.nextId, l⟩) c₁
    rwa [leaf_relabel hk] at hnode
termination_by 8 * c.rest.length + 1

end

/-! ## Declarations -/

theorem baseType_relabeled (c : Cursor) :
    Relabeled r id (plain (baseType c)) (plain (baseType (c.relabel r))) := by
  rw [plain_baseType, plain_baseType, Cursor.next?_relabel]
  rcases c.next? baseType? with _ | ⟨⟨base, l⟩, c₁⟩
  · exact .error _
  · exact .ok _ _

theorem typeSpecifier_relabeled (c : Cursor) :
    Relabeled r id (plain (typeSpecifier c)) (plain (typeSpecifier (c.relabel r))) := by
  rw [plain_typeSpecifier, plain_typeSpecifier, Cursor.next?_relabel]
  rcases c.next? (keyword? .constKw) with _ | ⟨_, c₁⟩
  · exact .bind (baseType_relabeled c) fun base c₁ _ => .ok _ _
  · exact .bind (baseType_relabeled c₁) fun base c₂ _ => .ok _ _

theorem dimensions_relabeled (c : Cursor) :
    Relabeled r id (plain (dimensions c)) (plain (dimensions (c.relabel r))) := by
  rw [plain_dimensions, plain_dimensions, Cursor.next?_relabel]
  rcases h₁ : c.next? (mark? .leftBracket) with _ | ⟨_, c₁⟩
  · exact .ok _ _
  · dsimp only [Option.map_some]
    rw [Cursor.next?_relabel]
    rcases h₂ : c₁.next? arraySize? with _ | ⟨⟨size, l⟩, c₂⟩
    · exact .error _
    · refine .bind (expect_relabeled _ _ c₂) fun _ c₃ h₃ => ?_
      have := Cursor.length_of_next? h₁
      have := Cursor.length_of_next? h₂
      have := length_of_plain h₃
      exact .bind (dimensions_relabeled c₃) fun sizes c₄ _ => .ok _ _
termination_by c.rest.length

/-- A list of parameters, perhaps with an ellipsis behind it, with its labels changed. -/
def relabelList (r : Relabeling) (list : List Parameter × Bool) : List Parameter × Bool :=
  (list.1.map (Parameter.relabel r), list.2)

theorem Declarator.heading_relabel (d : Declarator) (storage : Storage) (type : DeclaredType) :
    (d.relabel r).heading storage type = (d.heading storage type).relabel r := by
  rcases d with ⟨pointers, name, l, sizes | ⟨list, variadic⟩⟩ <;> rfl

mutual

theorem declarator_relabeled (c : Cursor) :
    Relabeled r (Declarator.relabel r) (plain (declarator c))
      (plain (declarator (c.relabel r))) := by
  rw [plain_declarator, plain_declarator, Cursor.next?_relabel, Cursor.next?_relabel]
  rcases h₁ : c.next? (mark? .star) with _ | ⟨_, c₁⟩
  · rcases h₁ : c.next? identifier? with _ | ⟨⟨name, l⟩, c₁⟩
    · exact .error _
    · dsimp only [Option.map_none, Option.map_some]
      rw [Cursor.next?_relabel]
      rcases h₂ : c₁.next? (mark? .leftParen) with _ | ⟨_, c₂⟩
      · exact .bind (dimensions_relabeled c₁) fun sizes c₂ _ => .ok _ _
      · have := Cursor.length_of_next? h₁
        have := Cursor.length_of_next? h₂
        refine .bind (parameterList_relabeled c₂) fun list c₃ _ => ?_
        exact .bind (expect_relabeled _ _ c₃) fun _ c₄ _ => .ok _ _
  · have := Cursor.length_of_next? h₁
    exact .bind (declarator_relabeled c₁) fun d c₂ _ => .ok _ _
termination_by 4 * c.rest.length

theorem parameterList_relabeled (c : Cursor) :
    Relabeled r (relabelList r) (plain (parameterList c))
      (plain (parameterList (c.relabel r))) := by
  rw [plain_parameterList, plain_parameterList, Cursor.next?_relabel, Cursor.next?_relabel]
  rcases c.next? (mark? .rightParen) with _ | _
  · rcases c.next? (keyword? .voidKw) with _ | ⟨_, c₁⟩
    · exact parameters_relabeled true c
    · simp only [Option.map_none, Option.map_some, Option.filter_some, Cursor.next?_relabel,
        Option.isSome_map]
      cases (c₁.next? (mark? .rightParen)).isSome with
      | false => exact parameters_relabeled true c
      | true => exact .ok _ _
  · exact .ok _ _
termination_by 4 * c.rest.length + 3

theorem parameters_relabeled (first : Bool) (c : Cursor) :
    Relabeled r (relabelList r) (plain (parameters first c))
      (plain (parameters first (c.relabel r))) := by
  rw [plain_parameters, plain_parameters, Cursor.next?_relabel]
  rcases c.next? (mark? .ellipsis) with _ | ⟨_, c₁⟩
  · refine .bind (parameter_relabeled c) fun p c₁ h₁ => ?_
    dsimp only
    rw [Cursor.next?_relabel]
    rcases h₂ : c₁.next? (mark? .comma) with _ | ⟨_, c₂⟩
    · exact .ok _ _
    · have := length_of_plain h₁
      have := Cursor.length_of_next? h₂
      exact .bind (parameters_relabeled false c₂) fun list c₃ _ => .ok _ _
  · cases first with
    | true => exact .error _
    | false => exact .ok _ _
termination_by 4 * c.rest.length + 2

theorem parameter_relabeled (c : Cursor) :
    Relabeled r (Parameter.relabel r) (plain (parameter c)) (plain (parameter (c.relabel r))) := by
  rw [plain_parameter, plain_parameter]
  refine .bind (typeSpecifier_relabeled c) fun type c₁ h₁ => ?_
  have := length_of_plain h₁
  refine .bind (declarator_relabeled c₁) fun d c₂ _ => ?_
  rcases d with ⟨pointers, name, l, sizes | ⟨list, variadic⟩⟩
  · exact .ok _ _
  · exact .error _
termination_by 4 * c.rest.length + 1

end

theorem typedHeading_relabeled (storage : Storage) (c : Cursor) :
    Relabeled r (Heading.relabel r) (plain (typedHeading storage c))
      (plain (typedHeading storage (c.relabel r))) := by
  rw [plain_typedHeading, plain_typedHeading]
  refine .bind (typeSpecifier_relabeled c) fun type c₁ _ => ?_
  refine .bind (declarator_relabeled c₁) fun d c₂ _ => ?_
  dsimp only
  rw [Declarator.heading_relabel]
  exact .ok _ _

theorem heading_relabeled (c : Cursor) :
    Relabeled r (Heading.relabel r) (plain (heading c)) (plain (heading (c.relabel r))) := by
  rw [plain_heading, plain_heading, Cursor.next?_relabel]
  rcases c.next? storage? with _ | ⟨⟨storage, l⟩, c₁⟩
  · exact typedHeading_relabeled .none c
  · exact typedHeading_relabeled storage c₁

theorem variableEnd_relabeled (hr : r.Counts) (v : Variable) (c : Cursor) :
    Relabeled r (Variable.relabel r) (plain (variableEnd v c))
      (plain (variableEnd (v.relabel r) (c.relabel r))) := by
  rw [plain_variableEnd, plain_variableEnd, Cursor.next?_relabel]
  rcases c.next? (mark? .assign) with _ | ⟨_, c₁⟩
  · exact .bind (expect_relabeled _ _ c) fun _ c₁ _ => .ok _ _
  · refine .bind (expr_relabeled hr c₁) fun value c₂ _ => ?_
    exact .bind (expect_relabeled _ _ c₂) fun _ c₃ _ => .ok _ _

theorem prototypeEnd_relabeled (p : Prototype) (c : Cursor) :
    Relabeled r (Prototype.relabel r) (plain (prototypeEnd p c))
      (plain (prototypeEnd (p.relabel r) (c.relabel r))) := by
  rw [plain_prototypeEnd, plain_prototypeEnd]
  exact .bind (expect_relabeled _ _ c) fun _ c₁ _ => .ok _ _

theorem blockDecl_relabeled (hr : r.Counts) (c : Cursor) :
    Relabeled r (Decl.relabel r) (plain (blockDecl c)) (plain (blockDecl (c.relabel r))) := by
  rw [plain_blockDecl, plain_blockDecl]
  refine .bind (heading_relabeled c) fun h c₁ _ => ?_
  cases h with
  | var v => exact .bind (variableEnd_relabeled hr v c₁) fun v c₂ _ => .ok _ _
  | function p =>
    simp only [Heading.relabel, Cursor.next?_relabel, Option.isSome_map]
    cases (c₁.next? (mark? .leftBrace)).isSome with
    | true => exact .error _
    | false => exact .bind (prototypeEnd_relabeled p c₁) fun p c₂ _ => .ok _ _

theorem blockDecls_relabeled (hr : r.Counts) (c : Cursor) :
    Relabeled r (List.map (Decl.relabel r)) (plain (blockDecls c))
      (plain (blockDecls (c.relabel r))) := by
  have hhead : ((c.relabel r).rest.head?.any fun t => startsDeclaration t.kind) =
      c.rest.head?.any fun t => startsDeclaration t.kind := by
    rw [Cursor.head?_relabel, Option.any_map]
    rfl
  rw [plain_blockDecls, plain_blockDecls, hhead]
  by_cases h : (c.rest.head?.any fun t => startsDeclaration t.kind) = true
  · rw [if_pos h, if_pos h]
    refine .bind (blockDecl_relabeled hr c) fun d c₁ h₁ => ?_
    have := length_of_plain h₁
    exact .bind (blockDecls_relabeled hr c₁) fun ds c₂ _ => .ok _ _
  · rw [if_neg h, if_neg h]
    exact .ok _ _
termination_by c.rest.length

/-! ## Statements -/

theorem clause_relabeled (hr : r.Counts) (stop : Punctuator) (place : Place) (c : Cursor) :
    Relabeled r (Option.map (Expr.relabel r)) (plain (clause stop place c))
      (plain (clause stop place (c.relabel r))) := by
  rw [plain_clause, plain_clause, Cursor.next?_relabel]
  rcases c.next? (mark? stop) with _ | ⟨_, c₁⟩
  · refine .bind (expr_relabeled hr c) fun e c₁ _ => ?_
    exact .bind (expect_relabeled _ _ c₁) fun _ c₂ _ => .ok _ _
  · exact .ok _ _

theorem condition_relabeled (hr : r.Counts) (word : Keyword) (c : Cursor) :
    Relabeled r (Expr.relabel r) (plain (condition word c))
      (plain (condition word (c.relabel r))) := by
  rw [plain_condition, plain_condition]
  refine .bind (expect_relabeled _ _ c) fun _ c₁ _ => ?_
  refine .bind (expr_relabeled hr c₁) fun e c₂ _ => ?_
  exact .bind (expect_relabeled _ _ c₂) fun _ c₃ _ => .ok _ _

theorem forClauses_relabeled (hr : r.Counts) (c : Cursor) :
    Relabeled r (ForClauses.relabel r) (plain (forClauses c))
      (plain (forClauses (c.relabel r))) := by
  rw [plain_forClauses, plain_forClauses]
  refine .bind (expect_relabeled _ _ c) fun _ c₁ _ => ?_
  refine .bind (clause_relabeled hr _ _ c₁) fun first c₂ _ => ?_
  refine .bind (clause_relabeled hr _ _ c₂) fun middle c₃ _ => ?_
  exact .bind (clause_relabeled hr _ _ c₃) fun step c₄ _ => .ok _ _

mutual

theorem stmt_relabeled (hr : r.Counts) (c : Cursor) :
    Relabeled r (Stmt.relabel r) (plain (stmt c)) (plain (stmt (c.relabel r))) := by
  rw [plain_stmt, plain_stmt, Cursor.next?_relabel]
  rcases h₁ : c.next? leader? with _ | ⟨⟨lead, l⟩, c₁⟩
  · refine .bind (expr_relabeled hr c) fun e c₁ h₁ => ?_
    have := length_of_plain h₁
    rw [Cursor.location_relabel (List.ne_nil_of_length_pos (by omega))]
    exact .bind (expect_relabeled _ _ c₁) fun _ c₂ _ => .ok _ _
  · have := Cursor.length_of_next? h₁
    exact ledStmt_relabeled hr lead l c₁
termination_by 8 * c.rest.length

theorem ledStmt_relabeled (hr : r.Counts) (lead : Leader) (l : Location) (c : Cursor) :
    Relabeled r (Stmt.relabel r) (plain (ledStmt lead l c))
      (plain (ledStmt lead (r.place l) (c.relabel r))) := by
  cases lead with
  | block =>
    rw [plain_ledStmt_block, plain_ledStmt_block]
    exact .bind (block_relabeled hr l c) fun b c₁ _ => .ok _ _
  | branch =>
    rw [plain_ledStmt_branch, plain_ledStmt_branch]
    refine .bind (condition_relabeled hr _ c) fun e c₁ h₁ => ?_
    have := length_of_plain h₁
    refine .bind (body_relabeled hr _ c₁) fun b c₂ h₂ => ?_
    dsimp only
    rw [Cursor.next?_relabel]
    rcases h₃ : c₂.next? (keyword? .elseKw) with _ | ⟨_, c₃⟩
    · exact .ok _ _
    · have := length_of_plain h₂
      have := Cursor.length_of_next? h₃
      exact .bind (body_relabeled hr _ c₃) fun a c₄ _ => .ok _ _
  | whileLoop =>
    rw [plain_ledStmt_whileLoop, plain_ledStmt_whileLoop]
    refine .bind (condition_relabeled hr _ c) fun e c₁ h₁ => ?_
    have := length_of_plain h₁
    exact .bind (body_relabeled hr _ c₁) fun b c₂ _ => .ok _ _
  | forLoop =>
    rw [plain_ledStmt_forLoop, plain_ledStmt_forLoop]
    refine .bind (forClauses_relabeled hr c) fun f c₁ h₁ => ?_
    have := length_of_plain h₁
    exact .bind (body_relabeled hr _ c₁) fun b c₂ _ => .ok _ _
  | returnStmt =>
    rw [plain_ledStmt_returnStmt, plain_ledStmt_returnStmt]
    exact .bind (clause_relabeled hr _ _ c) fun v c₁ _ => .ok _ _
  | jump kind =>
    rw [plain_ledStmt_jump, plain_ledStmt_jump]
    exact .bind (expect_relabeled _ _ c) fun _ c₁ _ => .ok _ _
termination_by 8 * c.rest.length + 4

theorem body_relabeled (hr : r.Counts) (owner : Keyword) (c : Cursor) :
    Relabeled r (Block.relabel r) (plain (body owner c)) (plain (body owner (c.relabel r))) := by
  rw [plain_body, plain_body, Cursor.next?_relabel]
  rcases h₁ : c.next? (mark? .leftBrace) with _ | ⟨⟨_, l⟩, c₁⟩
  · exact .error _
  · have := Cursor.length_of_next? h₁
    exact block_relabeled hr l c₁
termination_by 8 * c.rest.length

theorem block_relabeled (hr : r.Counts) (l : Location) (c : Cursor) :
    Relabeled r (Block.relabel r) (plain (block l c))
      (plain (block (r.place l) (c.relabel r))) := by
  rw [plain_block, plain_block]
  refine .bind (blockDecls_relabeled hr c) fun ds c₁ h₁ => ?_
  have := length_of_plain h₁
  refine .bind (stmts_relabeled hr c₁) fun ss c₂ _ => ?_
  exact .bind (expect_relabeled _ _ c₂) fun _ c₃ _ => .ok _ _
termination_by 8 * c.rest.length + 3

theorem stmts_relabeled (hr : r.Counts) (c : Cursor) :
    Relabeled r (Stmt.relabelAll r) (plain (stmts c)) (plain (stmts (c.relabel r))) := by
  rw [plain_stmts, plain_stmts, Cursor.head?_relabel]
  cases c.rest.head? with
  | none => exact .ok _ _
  | some t =>
    simp only [Option.map_some, Token.relabel]
    by_cases hbrace : t.kind = .punctuator .rightBrace
    · simp only [if_pos hbrace]
      exact .ok _ _
    · by_cases hdecl : startsDeclaration t.kind = true
      · simp only [if_neg hbrace, if_pos hdecl]
        exact .error _
      · simp only [if_neg hbrace, if_neg hdecl]
        refine .bind (stmt_relabeled hr c) fun s c₁ h₁ => ?_
        have := length_of_plain h₁
        exact .bind (stmts_relabeled hr c₁) fun ss c₂ _ => .ok _ _
termination_by 8 * c.rest.length + 1

end

/-! ## Units -/

theorem external_relabeled (hr : r.Counts) (c : Cursor) :
    Relabeled r (External.relabel r) (plain (external c)) (plain (external (c.relabel r))) := by
  rw [plain_external, plain_external]
  refine .bind (heading_relabeled c) fun h c₁ _ => ?_
  cases h with
  | var v => exact .bind (variableEnd_relabeled hr v c₁) fun v c₂ _ => .ok _ _
  | function p =>
    simp only [Heading.relabel, Cursor.next?_relabel]
    rcases c₁.next? (mark? .leftBrace) with _ | ⟨⟨_, l⟩, c₂⟩
    · exact .bind (prototypeEnd_relabeled p c₁) fun p c₂ _ => .ok _ _
    · have hstorage : (p.relabel r).storage = p.storage := rfl
      dsimp only [Option.map_some]
      rw [hstorage]
      by_cases hs : p.storage = .external
      · rw [if_pos hs, if_pos hs]
        exact .error _
      · rw [if_neg hs, if_neg hs]
        exact .bind (block_relabeled hr l c₂) fun b c₃ _ => .ok _ _

end Parse

/-- A reading with its labels changed. -/
def Reading.relabel (r : Relabeling) (x : Reading) : Reading :=
  ⟨x.decls.map (External.relabel r), x.failure.map (Complaint.relabel r), x.cursor.relabel r⟩

theorem Reading.from_relabel (hr : r.Counts) (c : Cursor) :
    Reading.from (c.relabel r) = (Reading.from c).relabel r := by
  have hempty : (c.relabel r).rest.isEmpty = c.rest.isEmpty := List.isEmpty_map
  rw [Reading.from_eq, Reading.from_eq c, hempty]
  split
  · rfl
  · have hx := Parse.external_relabeled hr c
    generalize Parse.plain (Parse.external (c.relabel r)) = y at hx
    rcases h : Parse.plain (Parse.external c) with f | ⟨d, c₁⟩
    · rw [h] at hx
      cases hx
      rfl
    · rw [h] at hx
      cases hx
      have := Parse.length_of_plain h
      dsimp only
      rw [Reading.from_relabel hr c₁]
      rfl
termination_by c.rest.length

theorem Complaint.report_relabel (complaint : Complaint) (rest tokens : List Token) :
    (complaint.relabel r).report (rest.map (Token.relabel r)) (tokens.map (Token.relabel r)) =
      (complaint.report rest tokens).relabel r := by
  have hlast : (tokens.map (Token.relabel r)).getLast?.map Token.location =
      (tokens.getLast?.map Token.location).map r.place := by
    rw [List.getLast?_map, Option.map_map, Option.map_map]
    rfl
  cases complaint with
  | functionParameter => rfl
  | _ =>
    cases rest with
    | nil => simp only [relabel, report, List.map_nil, SyntaxError.relabel, hlast]
    | cons t rest => rfl

/-- Tokens at other positions, read with the count begun at another number, form the same unit
with its labels changed, or give the same syntax error at its new position. -/
theorem CompilationUnit.ofTokens?_relabel (hr : r.Counts) (h₀ : r.number 0 = 0)
    (ts : List Token) :
    ofTokens? (ts.map (Token.relabel r)) =
      match ofTokens? ts with
      | .ok u => .ok (u.relabel r)
      | .error e => .error (e.relabel r) := by
  have hc : Cursor.ofTokens (ts.map (Token.relabel r)) = (Cursor.ofTokens ts).relabel r := by
    rw [Cursor.ofTokens, Cursor.ofTokens, Cursor.relabel, h₀]
  simp only [ofTokens?, Cursor.readUnit, hc, Reading.from_relabel hr]
  simp only [Reading.result, Reading.relabel]
  cases (Reading.from (Cursor.ofTokens ts)).failure with
  | none => rfl
  | some complaint => simp only [Option.map_some, Cursor.relabel_rest, Complaint.report_relabel]

end CSubset
