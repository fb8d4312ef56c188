-- SUMMARY: Declarations, statements and units that the grammar derives are read by the parser, and no token more.
import CSubset.Proofs.Parse.ExprCompleteness

/-!
# Completeness for units

As for expressions, a phrase is read to its end and no further if what follows cannot extend
it. For headings that is the part behind the name, for branches it is `else`, and lists of
declarations or statements end at a token that begins neither.
-/

namespace CSubset

open Grammar

namespace Parse

/-! ## Headings -/

/-- The tokens ahead do not go on with what can stand behind a name. -/
structure EndsName (ts : List Token) : Prop where
  parameters : NextNot (mark? .leftParen) ts
  dimensions : NextNot (mark? .leftBracket) ts

theorem endsName_of_mark {m : Punctuator}
    (hm : m = .comma ∨ m = .rightParen ∨ m = .assign ∨ m = .semicolon) (l : Location)
    (ts : List Token) : EndsName (.ofMark m l :: ts) := by
  rcases hm with rfl | rfl | rfl | rfl <;> exact ⟨nextNot_cons.mpr rfl, nextNot_cons.mpr rfl⟩

theorem typeSpecifier_complete {ts : List Token} {t : DeclaredType} (h : TypeSpecifier ts t)
    (rest : List Token) (i : Nat) :
    plain (typeSpecifier ⟨ts ++ rest, i⟩) = .ok (t, ⟨rest, i⟩) := by
  have base : ∀ (b : BaseType) (l : Location),
      plain (baseType ⟨.ofWord b.keyword l :: rest, i⟩) = .ok (b, ⟨rest, i⟩) := by
    intro b l
    rw [plain_baseType]
    simp only [Cursor.next?_cons, baseType?_keyword, Option.map_some]
  cases h with
  | @plain b l =>
    have hconst : keyword? .constKw (.keyword b.keyword) = none := by
      cases b <;> rfl
    rw [plain_typeSpecifier, List.singleton_append, base]
    simp only [Cursor.next?_cons, hconst, Option.map_none, ok_bind]
  | const =>
    rw [plain_typeSpecifier, List.cons_append, List.singleton_append]
    simp only [Cursor.next?_cons, keyword?_self, Option.map_some, base, ok_bind]

theorem dimensions_complete {ts rest : List Token} {ns : List Nat} (h : Dimensions ts ns)
    (hr : NextNot (mark? .leftBracket) rest) (i : Nat) :
    plain (dimensions ⟨ts ++ rest, i⟩) = .ok (ns, ⟨rest, i⟩) := by
  induction h with
  | nil =>
    have h₁ := Cursor.next?_eq_none (c := ⟨rest, i⟩).mpr hr
    rw [plain_dimensions, List.nil_append, h₁]
  | @cons ts n ns l l' l'' h ih =>
    have hn : arraySize? (.intLiteral n) = some n := rfl
    rw [plain_dimensions]
    simp only [List.cons_append, Cursor.next?_cons, mark?_self, Option.map_some, hn,
      plain_expect_cons, ok_bind, ih]

theorem Dimensions.nextNot_leftParen {ts rest : List Token} {ns : List Nat}
    (h : Dimensions ts ns) (hr : NextNot (mark? .leftParen) rest) :
    NextNot (mark? .leftParen) (ts ++ rest) := by
  cases h with
  | nil => exact hr
  | cons h => exact nextNot_cons.mpr rfl

/-- Pointer marks in front of a declarator are counted. -/
theorem declarator_stars {ps rest : List Token} {n : Nat} {name : String} {l : Location}
    {tail : DeclaratorTail} {c : Cursor} {i : Nat} (hp : Stars ps n)
    (h : plain (declarator ⟨rest, i⟩) = .ok (⟨0, name, l, tail⟩, c)) :
    plain (declarator ⟨ps ++ rest, i⟩) = .ok (⟨n, name, l, tail⟩, c) := by
  induction hp with
  | nil => exact h
  | cons hp ih =>
    rw [plain_declarator, List.cons_append]
    simp only [Cursor.next?_cons, mark?_self, Option.map_some, ih, ok_bind]

theorem declarator_dimensions {ds rest : List Token} {ns : List Nat} (h : Dimensions ds ns)
    (hr : EndsName rest) (name : String) (l : Location) (i : Nat) :
    plain (declarator ⟨⟨.identifier name, l⟩ :: (ds ++ rest), i⟩) =
      .ok (⟨0, name, l, .dimensions ns⟩, ⟨rest, i⟩) := by
  have hstar : mark? .star (.identifier name) = none := rfl
  have hname : identifier? (.identifier name) = some name := rfl
  have hopen := Cursor.next?_eq_none (c := ⟨ds ++ rest, i⟩).mpr
    (Dimensions.nextNot_leftParen h hr.parameters)
  rw [plain_declarator]
  simp only [Cursor.next?_cons, hstar, hname, Option.map_none, Option.map_some, hopen,
    dimensions_complete h hr.dimensions, ok_bind]

/-- A typed name is read as a type specifier and a declarator. -/
theorem typed_complete {ts rest : List Token} {type : DeclaredType} {name : String}
    {l : Location} (h : Grammar.Typed ts type name l) (hr : EndsName rest) (i : Nat) :
    ∃ (t : DeclaredType) (us : List Token) (n : Nat) (ns : List Nat),
      plain (typeSpecifier ⟨ts ++ rest, i⟩) = .ok (t, ⟨us, i⟩) ∧
      plain (declarator ⟨us, i⟩) = .ok (⟨n, name, l, .dimensions ns⟩, ⟨rest, i⟩) ∧
      Declarator.applyTo ⟨n, name, l, .dimensions ns⟩ t = type := by
  obtain @⟨ts, ps, ds, b, isConst, n, ns, name, l, ht, hp, hd⟩ := h
  refine ⟨⟨b, isConst, 0, []⟩, ps ++ ⟨.identifier name, l⟩ :: (ds ++ rest), n, ns, ?_, ?_, ?_⟩
  · rw [List.append_assoc, List.append_assoc, List.cons_append]
    exact typeSpecifier_complete ht _ i
  · exact declarator_stars hp (declarator_dimensions hd hr name l i)
  · simp [Declarator.applyTo]

theorem param_complete {ts rest : List Token} {p : Parameter} (h : Param ts p)
    (hr : EndsName rest) (i : Nat) :
    plain (parameter ⟨ts ++ rest, i⟩) = .ok (p, ⟨rest, i⟩) := by
  obtain ⟨h⟩ := h
  obtain ⟨t, us, n, ns, ht, hd, rfl⟩ := typed_complete h hr i
  rw [plain_parameter, ht]
  simp only [ok_bind, hd]

theorem params_complete {ts rest : List Token} {ps : List Parameter} {variadic : Bool}
    {l : Location} (h : Params ts ps variadic) (first : Bool) (i : Nat) :
    plain (parameters first ⟨ts ++ .ofMark .rightParen l :: rest, i⟩) =
      .ok ((ps, variadic), ⟨.ofMark .rightParen l :: rest, i⟩) := by
  have dots {us : List Token} (hu : BeginsDecl us) (vs : List Token) :
      Cursor.next? ⟨us ++ vs, i⟩ (mark? .ellipsis) = none :=
    Cursor.next?_eq_none.mpr ((hu.append vs).nextNot_mark _)
  induction h generalizing first with
  | last h =>
    have hcomma : mark? .comma (.punctuator .rightParen) = none := rfl
    have h₁ := param_complete h (endsName_of_mark (m := .rightParen) (by simp) l rest) i
    rw [plain_parameters, dots h.begins, h₁]
    simp only [ok_bind, Cursor.next?_cons, hcomma, Option.map_none]
  | @variadic ts p l₁ l₂ h =>
    have h₁ := param_complete h (endsName_of_mark (m := .comma) (by simp) l₁
      (.ofMark .ellipsis l₂ :: .ofMark .rightParen l :: rest)) i
    rw [plain_parameters, List.append_assoc, List.cons_append, List.singleton_append,
      dots h.begins, h₁]
    simp only [ok_bind, Cursor.next?_cons, mark?_self, Option.map_some]
    rw [plain_parameters]
    simp only [ok_bind, Cursor.next?_cons, mark?_self, Option.map_some, Bool.false_eq_true,
      if_false]
  | @more ts us p ps variadic l₁ h hs ih =>
    have h₁ := param_complete h (endsName_of_mark (m := .comma) (by simp) l₁
      (us ++ .ofMark .rightParen l :: rest)) i
    rw [plain_parameters, List.append_assoc, List.cons_append, dots h.begins, h₁]
    simp only [ok_bind, Cursor.next?_cons, mark?_self, Option.map_some, ih]

theorem paramList_complete {ts rest : List Token} {ps : List Parameter} {variadic : Bool}
    {l : Location} (h : ParamList ts ps variadic) (i : Nat) :
    plain (parameterList ⟨ts ++ .ofMark .rightParen l :: rest, i⟩) =
      .ok ((ps, variadic), ⟨.ofMark .rightParen l :: rest, i⟩) := by
  rw [plain_parameterList]
  cases h with
  | nothing =>
    simp only [List.nil_append, Cursor.next?_cons, mark?_self, Option.map_some]
  | void =>
    have hclose : mark? .rightParen (.keyword .voidKw) = none := rfl
    simp only [List.singleton_append, Cursor.next?_cons, hclose, Option.map_none, keyword?_self,
      mark?_self, Option.map_some, Option.filter_some, Option.isSome_some, if_true]
  | params h =>
    have hclose :
        Cursor.next? ⟨ts ++ .ofMark .rightParen l :: rest, i⟩ (mark? .rightParen) = none :=
      Cursor.next?_eq_none.mpr ((h.begins.append _).nextNot_mark _)
    have hvoid : (Cursor.next? ⟨ts ++ .ofMark .rightParen l :: rest, i⟩ (keyword? .voidKw)).filter
        (fun word => (word.2.next? (mark? .rightParen)).isSome) = none := by
      rw [Option.filter_eq_none_iff]
      rintro ⟨⟨x, l'⟩, c⟩ hv hnext
      rw [Cursor.next?_eq_none.mpr (h.void_next hv)] at hnext
      cases hnext
    rw [hclose, hvoid]
    exact params_complete h true i

/-- A storage class in front of a type specifier is the heading's. -/
theorem heading_storage {ss ts rest : List Token} {storage : Storage} {t : DeclaredType}
    (hs : StorageClass ss storage) (ht : TypeSpecifier ts t) (i : Nat) :
    plain (heading ⟨ss ++ (ts ++ rest), i⟩) = plain (typedHeading storage ⟨ts ++ rest, i⟩) := by
  rw [plain_heading]
  cases hs with
  | none =>
    have h₁ := Cursor.next?_eq_none (c := ⟨ts ++ rest, i⟩).mpr
      (TypeSpecifier.nextNot_storage ht rest)
    rw [List.nil_append, h₁]
  | static =>
    have hstorage : storage? (.keyword .staticKw) = some .static := rfl
    simp only [List.singleton_append, Cursor.next?_cons, hstorage, Option.map_some]
  | external =>
    have hstorage : storage? (.keyword .externKw) = some .external := rfl
    simp only [List.singleton_append, Cursor.next?_cons, hstorage, Option.map_some]

theorem varHeading_complete {ts rest : List Token} {v : Variable} (h : VarHeading ts v)
    (hr : EndsName rest) (i : Nat) :
    plain (heading ⟨ts ++ rest, i⟩) = .ok (.var v, ⟨rest, i⟩) := by
  obtain @⟨ss, ts, storage, type, name, l, hs, h⟩ := h
  obtain ⟨t, us, n, ns, ht, hd, happly⟩ := typed_complete h hr i
  obtain ⟨hspec, _, _⟩ := h
  rw [List.append_assoc] at ht ⊢
  rw [List.append_assoc, heading_storage hs hspec, plain_typedHeading, ht]
  simp only [ok_bind, hd, Declarator.heading, happly]

theorem funHeading_complete {ts rest : List Token} {p : Prototype} (h : FunHeading ts p)
    (i : Nat) : plain (heading ⟨ts ++ rest, i⟩) = .ok (.function p, ⟨rest, i⟩) := by
  obtain @⟨ss, ts, ps, qs, storage, b, isConst, n, name, params, variadic, l, l', l'',
    hs, ht, hp, hq⟩ := h
  have hstar : mark? .star (.identifier name) = none := rfl
  have hname : identifier? (.identifier name) = some name := rfl
  have hd : plain (declarator ⟨⟨.identifier name, l⟩ :: .ofMark .leftParen l' ::
      (qs ++ .ofMark .rightParen l'' :: rest), i⟩) =
      .ok (⟨0, name, l, .parameters params variadic⟩, ⟨rest, i⟩) := by
    rw [plain_declarator]
    simp only [Cursor.next?_cons, hstar, hname, mark?_self, Option.map_none, Option.map_some,
      paramList_complete hq, plain_expect_cons, ok_bind]
  have htokens : ss ++ (ts ++ (ps ++ ⟨.identifier name, l⟩ :: .ofMark .leftParen l' ::
      (qs ++ [.ofMark .rightParen l'']))) ++ rest =
      ss ++ (ts ++ (ps ++ ⟨.identifier name, l⟩ :: .ofMark .leftParen l' ::
        (qs ++ .ofMark .rightParen l'' :: rest))) := by simp
  rw [htokens, heading_storage hs ht, plain_typedHeading, typeSpecifier_complete ht]
  simp [declarator_stars hp hd, Declarator.heading, Declarator.applyTo]

/-! ## Declarations in blocks -/

/-- What declares a variable or a function without a body is read as such, at file level and
in blocks. -/
theorem localDecl_complete {i j : Nat} {ts rest : List Token} {d : Decl}
    (h : LocalDecl i ts d j) :
    plain (blockDecl ⟨ts ++ rest, i⟩) = .ok (d, ⟨rest, j⟩) ∧
      plain (external ⟨ts ++ rest, i⟩) = .ok (.decl d, ⟨rest, j⟩) := by
  rw [plain_blockDecl, plain_external]
  cases h with
  | @var _ _ l h =>
    have hassign : mark? .assign (.punctuator .semicolon) = none := rfl
    have hh := varHeading_complete h (endsName_of_mark (m := .semicolon) (by simp) l rest) i
    rw [List.append_assoc, List.singleton_append, hh]
    simp only [ok_bind, plain_variableEnd, Cursor.next?_cons, hassign, Option.map_none,
      plain_expect_cons, and_self]
  | @initialized _ _ us v e l l' h he =>
    have hh := varHeading_complete h (endsName_of_mark (m := .assign) (by simp) l
      (us ++ .ofMark .semicolon l' :: rest)) i
    have hexpr := expr_complete (endsExpr_of_mark (m := .semicolon) (by simp) l' rest) he
    rw [List.append_assoc, List.cons_append, List.append_assoc, List.singleton_append, hh]
    simp only [ok_bind, plain_variableEnd, Cursor.next?_cons, mark?_self, Option.map_some, hexpr,
      plain_expect_cons, and_self]
  | @prototype _ _ l h =>
    have hbrace : mark? .leftBrace (.punctuator .semicolon) = none := rfl
    rw [List.append_assoc, List.singleton_append, funHeading_complete h]
    simp only [ok_bind, plain_prototypeEnd, Cursor.next?_cons, hbrace, Option.map_none,
      Option.isSome_none, Bool.false_eq_true, if_false, plain_expect_cons, and_self]

theorem blockDecls_complete {i j : Nat} {ts rest : List Token} {ds : List Decl}
    (hr : EndsDecls rest) (h : Many LocalDecl i ts ds j) :
    plain (blockDecls ⟨ts ++ rest, i⟩) = .ok (ds, ⟨rest, j⟩) := by
  induction h with
  | nil =>
    have hany : ¬ rest.head?.any (fun t => startsDeclaration t.kind) = true := by
      cases h : rest.head? with
      | none => exact nofun
      | some t => simpa using hr t h
    rw [plain_blockDecls, List.nil_append, if_neg hany]
  | cons h hs ih =>
    obtain ⟨t, us, rfl, ht⟩ := h.begins
    rw [plain_blockDecls, List.append_assoc, (localDecl_complete h).1]
    simp only [List.cons_append, List.head?_cons, Option.any_some, ht, if_true, ok_bind, ih]

/-! ## Statements -/

theorem clause_complete {i j : Nat} {ts : List Token} {e : Option Expr} {stop : Punctuator}
    (rest : List Token) (hstop : stop = .semicolon ∨ stop = .rightParen) (h : Clause i ts e j)
    (place : Place) (l : Location) :
    plain (clause stop place ⟨ts ++ .ofMark stop l :: rest, i⟩) = .ok (e, ⟨rest, j⟩) := by
  rw [plain_clause]
  cases h with
  | none =>
    simp only [List.nil_append, Cursor.next?_cons, mark?_self, Option.map_some]
  | some h =>
    have hbegin : startsExpr (.punctuator stop) = false := by
      rcases hstop with rfl | rfl <;> rfl
    have h₁ := Cursor.next?_eq_none (c := ⟨ts ++ .ofMark stop l :: rest, i⟩).mpr
      (h.begins.nextNot_mark hbegin _)
    have h₂ := expr_complete (endsExpr_of_mark (m := stop) (by grind) l rest) h
    rw [h₁, h₂]
    simp only [ok_bind, plain_expect_cons]

theorem condition_complete {i j : Nat} {ts : List Token} {e : Expr} (rest : List Token)
    (h : Assignment i ts e j) (word : Keyword) (l l' : Location) :
    plain (condition word
        ⟨.ofMark .leftParen l :: (ts ++ .ofMark .rightParen l' :: rest), i⟩) =
      .ok (e, ⟨rest, j⟩) := by
  rw [plain_condition, plain_expect_cons, ok_bind]
  simp only [expr_complete (endsExpr_of_mark (m := .rightParen) (by simp) l' rest) h,
    plain_expect_cons, ok_bind]

theorem forClauses_complete {i j k m : Nat} {ts us vs : List Token}
    {first middle step : Option Expr} (rest : List Token) (h₁ : Clause i ts first j)
    (h₂ : Clause j us middle k) (h₃ : Clause k vs step m) (l₁ l₂ l₃ l₄ : Location) :
    plain (forClauses ⟨.ofMark .leftParen l₁ :: (ts ++ .ofMark .semicolon l₂ ::
        (us ++ .ofMark .semicolon l₃ :: (vs ++ .ofMark .rightParen l₄ :: rest))), i⟩) =
      .ok (⟨first, middle, step⟩, ⟨rest, m⟩) := by
  rw [plain_forClauses, plain_expect_cons, ok_bind]
  simp only [clause_complete _ (.inl rfl) h₁, clause_complete _ (.inl rfl) h₂,
    clause_complete _ (.inr rfl) h₃, ok_bind]

/-- A block that is read behind its opening brace. -/
def ReadsBlock (ts rest : List Token) (i : Nat) (b : Block) (j : Nat) : Prop :=
  ∃ l us, ts = .ofMark .leftBrace l :: us ∧ plain (block l ⟨us ++ rest, i⟩) = .ok (b, ⟨rest, j⟩)

theorem ReadsBlock.body {ts rest : List Token} {i j : Nat} {b : Block}
    (h : ReadsBlock ts rest i b j) (owner : Keyword) :
    plain (body owner ⟨ts ++ rest, i⟩) = .ok (b, ⟨rest, j⟩) := by
  obtain ⟨l, us, rfl, hb⟩ := h
  rw [plain_body]
  simp only [List.cons_append, Cursor.next?_cons, mark?_self, Option.map_some, hb]

theorem ReadsBlock.stmt {ts rest : List Token} {i j : Nat} {b : Block}
    (h : ReadsBlock ts rest i b j) :
    plain (stmt ⟨ts ++ rest, i⟩) = .ok (.block b, ⟨rest, j⟩) := by
  obtain ⟨l, us, rfl, hb⟩ := h
  have hlead : leader? (.punctuator .leftBrace) = some .block := rfl
  rw [plain_stmt]
  simp only [List.cons_append, Cursor.next?_cons, hlead, Option.map_some, plain_ledStmt_block, hb,
    ok_bind]

mutual

theorem stmt_complete {i j : Nat} {ts rest : List Token} {s : Stmt}
    (hr : NextNot (keyword? .elseKw) rest) :
    Statement i ts s j → plain (stmt ⟨ts ++ rest, i⟩) = .ok (s, ⟨rest, j⟩)
  | .block h => (compound_complete rest h).stmt
  | @Statement.ifThen _ _ _ _ us _ _ _ l₁ l₂ he hb => by
    have hlead : leader? (.keyword .ifKw) = some .branch := rfl
    have h₁ := condition_complete (us ++ rest) he .ifKw l₁ l₂
    have h₂ := (compound_complete rest hb).body .ifKw
    have h₃ := Cursor.next?_eq_none (c := ⟨rest, j⟩).mpr hr
    rw [plain_stmt, List.cons_append, List.cons_append, List.append_assoc, List.cons_append]
    simp only [Cursor.next?_cons, hlead, Option.map_some, plain_ledStmt_branch, h₁, h₂, h₃, ok_bind]
  | @Statement.ifElse _ _ _ _ _ us vs _ _ _ _ l₁ l₂ l₃ he hb ha => by
    have hlead : leader? (.keyword .ifKw) = some .branch := rfl
    have h₁ := condition_complete (us ++ .ofWord .elseKw l₃ :: (vs ++ rest)) he .ifKw l₁ l₂
    have h₂ := (compound_complete (.ofWord .elseKw l₃ :: (vs ++ rest)) hb).body .ifKw
    have h₃ := (compound_complete rest ha).body .elseKw
    rw [plain_stmt, List.cons_append, List.cons_append, List.append_assoc, List.cons_append,
      List.append_assoc, List.cons_append]
    simp only [Cursor.next?_cons, hlead, Option.map_some, plain_ledStmt_branch, h₁, h₂, h₃,
      keyword?_self, ok_bind]
  | @Statement.whileLoop _ _ _ _ us _ _ _ l₁ l₂ he hb => by
    have hlead : leader? (.keyword .whileKw) = some .whileLoop := rfl
    have h₁ := condition_complete (us ++ rest) he .whileKw l₁ l₂
    have h₂ := (compound_complete rest hb).body .whileKw
    rw [plain_stmt, List.cons_append, List.cons_append, List.append_assoc, List.cons_append]
    simp only [Cursor.next?_cons, hlead, Option.map_some, plain_ledStmt_whileLoop, h₁, h₂, ok_bind]
  | @Statement.forLoop _ _ _ _ _ _ us vs ws _ _ _ _ _ l₁ l₂ l₃ l₄ h₁ h₂ h₃ hb => by
    have hlead : leader? (.keyword .forKw) = some .forLoop := rfl
    have hf := forClauses_complete (ws ++ rest) h₁ h₂ h₃ l₁ l₂ l₃ l₄
    have hb' := (compound_complete rest hb).body .forKw
    rw [plain_stmt, List.cons_append, List.cons_append, List.append_assoc, List.cons_append,
      List.append_assoc, List.cons_append, List.append_assoc, List.cons_append]
    simp only [Cursor.next?_cons, hlead, Option.map_some, plain_ledStmt_forLoop, hf, hb', ok_bind]
  | @Statement.jump _ kind _ _ => by
    have hlead : leader? (.keyword kind.keyword) = some (.jump kind) := leader?_eq_some.mpr rfl
    rw [plain_stmt, List.cons_append, List.singleton_append]
    simp only [Cursor.next?_cons, hlead, Option.map_some, plain_ledStmt_jump, plain_expect_cons,
      ok_bind]
  | @Statement.returnStmt _ _ _ _ _ l₁ h => by
    have hlead : leader? (.keyword .returnKw) = some .returnStmt := rfl
    have h₁ := clause_complete rest (.inl rfl) h .afterReturn l₁
    rw [plain_stmt, List.cons_append, List.append_assoc, List.singleton_append]
    simp only [Cursor.next?_cons, hlead, Option.map_some, plain_ledStmt_returnStmt, h₁, ok_bind]
  | @Statement.expr _ _ t us _ l₁ h => by
    have h₁ := expr_complete (endsExpr_of_mark (m := .semicolon) (by simp) l₁ rest) h
    have hlead : leader? t.kind = none := by
      obtain ⟨t', us', hts, ht⟩ := h.begins
      cases hts
      exact leader?_of_startsExpr ht
    rw [List.cons_append] at h₁
    rw [plain_stmt, List.cons_append, List.append_assoc, List.singleton_append]
    simp only [Cursor.next?_cons, hlead, Option.map_none, h₁, plain_expect_cons, ok_bind]
    rfl

theorem compound_complete {i j : Nat} {ts : List Token} {b : Block} (rest : List Token) :
    Compound i ts b j → ReadsBlock ts rest i b j
  | @Compound.mk _ _ _ ts us _ _ l l' hd hs => by
    have h₁ := blockDecls_complete (hs.endsDecls rest l') hd
    have h₂ := stmts_complete rest l' hs
    refine ⟨l, _, rfl, ?_⟩
    rw [plain_block, List.append_assoc, List.append_assoc, List.singleton_append, h₁]
    simp only [ok_bind, h₂, plain_expect_cons]

theorem stmts_complete {i j : Nat} {ts : List Token} {ss : List Stmt} (rest : List Token)
    (l : Location) :
    Statements i ts ss j →
      plain (stmts ⟨ts ++ .ofMark .rightBrace l :: rest, i⟩) =
        .ok (ss, ⟨.ofMark .rightBrace l :: rest, j⟩)
  | .nil => by
    rw [plain_stmts]
    rfl
  | @Statements.cons _ _ _ _ us _ _ h hs => by
    obtain ⟨t, ts', hts, ht⟩ := h.begins
    have h₁ := stmt_complete (hs.nextNot_else rest l) h
    have h₂ := stmts_complete rest l hs
    rw [plain_stmts, List.append_assoc, h₁, hts]
    simp only [List.cons_append, List.head?_cons, startsStatement_punctuator ht,
      (startsStatement_keyword ht).1, Bool.false_eq_true, if_false, ok_bind, h₂]

end

/-! ## Units -/

theorem external_complete {i j : Nat} {ts : List Token} {d : External} (rest : List Token)
    (h : FileDecl i ts d j) : plain (external ⟨ts ++ rest, i⟩) = .ok (d, ⟨rest, j⟩) := by
  cases h with
  | decl h => exact (localDecl_complete h).2
  | definition h hs hb =>
    obtain ⟨l, us, rfl, hblock⟩ := compound_complete rest hb
    rw [plain_external, List.append_assoc, funHeading_complete h]
    simp only [ok_bind, List.cons_append, Cursor.next?_cons, mark?_self, Option.map_some, hs,
      if_false, hblock]

/-- Derived declarations at file level are read one by one, and then reading goes on behind them. -/
theorem reading_append {i j : Nat} {ts : List Token} {ds : List External} (rest : List Token)
    (h : Many FileDecl i ts ds j) :
    Reading.from ⟨ts ++ rest, i⟩ =
      { Reading.from ⟨rest, j⟩ with decls := ds ++ (Reading.from ⟨rest, j⟩).decls } := by
  induction h with
  | nil => rfl
  | @cons i j k ts us d ds h hs ih =>
    have h₁ := external_complete (us ++ rest) h
    have hlen := length_of_plain h₁
    have hempty : ¬ (ts ++ (us ++ rest)).isEmpty = true := by
      intro h
      rw [List.isEmpty_iff.mp h] at hlen
      cases hlen
    rw [List.append_assoc, Reading.from_eq, if_neg hempty, h₁]
    simp only [ih, List.cons_append]

/-- Derived declarations at file level are read up to the end of the tokens. -/
theorem reading_complete {i j : Nat} {ts : List Token} {ds : List External}
    (h : Many FileDecl i ts ds j) : Reading.from ⟨ts, i⟩ = ⟨ds, none, ⟨[], j⟩⟩ := by
  have hend : Reading.from ⟨[], j⟩ = ⟨[], none, ⟨[], j⟩⟩ := by
    rw [Reading.from_eq]
    rfl
  have hread := reading_append [] h
  rwa [hend, List.append_nil, List.append_nil] at hread

end Parse

end CSubset
