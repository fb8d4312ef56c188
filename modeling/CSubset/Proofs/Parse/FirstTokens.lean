-- SUMMARY: What the phrases of the grammar begin with, as far as the parser asks.
import CSubset.Proofs.Grammar.Shape
import CSubset.Proofs.Parse.Terminal

/-!
# First tokens

The parser chooses between productions by the next token, sometimes the next two. The lemmas
here say of each phrase of the grammar which choices its beginning rules out.
-/

namespace CSubset

open Parse

namespace Grammar

/-! ## Expressions -/

mutual

/-- Only a unary expression that is no suffixed one begins with a unary operator. -/
theorem Suffixed.nextNot_unaryOp {i j : Nat} {ts : List Token} {e : Expr} (rest : List Token) :
    Suffixed i ts e j → NextNot unaryOp? (ts ++ rest)
  | .primary h => h.nextNot_unaryOp rest
  | .call hc _ => by
    rw [List.append_assoc]
    exact hc.nextNot_unaryOp _
  | .index hb _ => by
    rw [List.append_assoc]
    exact hb.nextNot_unaryOp _

theorem Primary.nextNot_unaryOp {i j : Nat} {ts : List Token} {e : Expr} (rest : List Token)
    (h : Primary i ts e j) : NextNot unaryOp? (ts ++ rest) := by
  cases h <;> exact nextNot_cons.mpr rfl

end

theorem BeginsExpr.nextNot_mark {ts : List Token} (h : BeginsExpr ts) {m : Punctuator}
    (hm : startsExpr (.punctuator m) = false) (rest : List Token) :
    NextNot (mark? m) (ts ++ rest) := by
  obtain ⟨t, us, rfl, ht⟩ := h
  refine nextNot_cons.mpr (Option.eq_none_iff_forall_ne_some.mpr fun x hx => ?_)
  rw [mark?_eq_some.mp hx, hm] at ht
  cases ht

/-! ## Declarations -/

/-- A list of tokens that begins like a declaration. -/
def BeginsDecl (ts : List Token) : Prop := ∃ t us, ts = t :: us ∧ startsDeclaration t.kind = true

theorem BeginsDecl.append {ts : List Token} (h : BeginsDecl ts) (us : List Token) :
    BeginsDecl (ts ++ us) := by
  obtain ⟨t, ts', rfl, ht⟩ := h
  exact ⟨t, ts' ++ us, rfl, ht⟩

theorem BeginsDecl.nextNot_mark {ts : List Token} (h : BeginsDecl ts) (m : Punctuator) :
    NextNot (mark? m) ts := by
  obtain ⟨t, us, rfl, ht⟩ := h
  refine nextNot_cons.mpr (Option.eq_none_iff_forall_ne_some.mpr fun x hx => ?_)
  rw [mark?_eq_some.mp hx] at ht
  cases ht

theorem startsDeclaration_baseType (b : BaseType) :
    startsDeclaration (.keyword b.keyword) = true := by
  cases b <;> rfl

theorem TypeSpecifier.begins {ts : List Token} {t : DeclaredType} (h : TypeSpecifier ts t) :
    BeginsDecl ts := by
  cases h with
  | plain => exact ⟨_, _, rfl, startsDeclaration_baseType _⟩
  | const => exact ⟨_, _, rfl, rfl⟩

theorem TypeSpecifier.nextNot_storage {ts : List Token} {t : DeclaredType}
    (h : TypeSpecifier ts t) (rest : List Token) : NextNot storage? (ts ++ rest) := by
  cases h with
  | @plain b _ => cases b <;> exact nextNot_cons.mpr rfl
  | const => exact nextNot_cons.mpr rfl

theorem StorageClass.begins {ss us : List Token} {storage : Storage} (h : StorageClass ss storage)
    (hu : BeginsDecl us) : BeginsDecl (ss ++ us) := by
  cases h with
  | none => exact hu
  | static => exact ⟨_, _, rfl, rfl⟩
  | external => exact ⟨_, _, rfl, rfl⟩

namespace Shape

variable {nested : Prop}

theorem Declarator.nextNot_rightParen {declared : Declared} {ts : List Token}
    (h : Declarator nested declared ts) (rest : List Token) :
    NextNot (mark? .rightParen) (ts ++ rest) := by
  cases h <;> exact nextNot_cons.mpr rfl

theorem Param.begins {ts : List Token} (h : Param nested ts) : BeginsDecl ts := by
  obtain ⟨ht, _, _⟩ := h
  exact ht.begins.append _

theorem Params.begins {ts : List Token} (h : Params nested ts) : BeginsDecl ts := by
  cases h with
  | last h => exact h.begins
  | variadic h => exact h.begins.append _
  | more h _ => exact h.begins.append _

/-- A parameter begins with more than `void`, so `void` does not stand alone there. -/
theorem Param.void_next {ts rest : List Token} (h : Param nested ts) {x : Unit} {l : Location}
    {c : Cursor} {i : Nat}
    (hv : Cursor.next? ⟨ts ++ rest, i⟩ (keyword? .voidKw) = some ((x, l), c)) :
    NextNot (mark? .rightParen) c.rest := by
  obtain ⟨ht, hd, _⟩ := h
  have hts := next?_keyword.mp hv
  cases ht with
  | const => cases hts
  | plain =>
    rw [← (List.cons.inj (congrArg Cursor.rest hts)).2]
    exact hd.nextNot_rightParen rest

theorem Params.void_next {ts rest : List Token} (h : Params nested ts) {x : Unit} {l : Location}
    {c : Cursor} {i : Nat}
    (hv : Cursor.next? ⟨ts ++ rest, i⟩ (keyword? .voidKw) = some ((x, l), c)) :
    NextNot (mark? .rightParen) c.rest := by
  cases h with
  | last h => exact h.void_next hv
  | variadic h =>
    rw [List.append_assoc] at hv
    exact h.void_next hv
  | more h _ =>
    rw [List.append_assoc] at hv
    exact h.void_next hv

theorem Heading.begins {storage : Storage} {declared : Declared} {ts : List Token}
    (h : Heading nested storage declared ts) : BeginsDecl ts := by
  obtain ⟨hs, ht, _⟩ := h
  exact hs.begins (ht.begins.append _)

theorem LocalDecl.begins {ts : List Token} (h : LocalDecl nested ts) : BeginsDecl ts := by
  cases h with
  | plain h => exact h.begins.append _
  | initialized h _ => exact h.begins.append _

end Shape

theorem LocalDecl.begins {i j : Nat} {ts : List Token} {d : Decl} (h : LocalDecl i ts d j) :
    BeginsDecl ts :=
  (h.shape : Shape.LocalDecl False ts).begins

theorem Param.begins {ts : List Token} {p : Parameter} (h : Param ts p) : BeginsDecl ts :=
  (h.shape : Shape.Param False ts).begins

theorem Params.begins {ts : List Token} {ps : List Parameter} {variadic : Bool}
    (h : Params ts ps variadic) : BeginsDecl ts :=
  (h.shape : Shape.Params False ts).begins

theorem Params.void_next {ts rest : List Token} {ps : List Parameter} {variadic : Bool}
    (h : Params ts ps variadic) {x : Unit} {l : Location} {c : Cursor} {i : Nat}
    (hv : Cursor.next? ⟨ts ++ rest, i⟩ (keyword? .voidKw) = some ((x, l), c)) :
    NextNot (mark? .rightParen) c.rest :=
  (h.shape : Shape.Params False ts).void_next hv

/-! ## Statements -/

/-- The kinds of tokens that a statement can begin with. -/
def startsStatement (k : Token.Kind) : Bool := (leader? k).isSome || startsExpr k

theorem leader?_of_startsExpr {k : Token.Kind} (h : startsExpr k = true) : leader? k = none := by
  refine Option.eq_none_iff_forall_ne_some.mpr fun lead hlead => ?_
  rw [leader?_eq_some.mp hlead] at h
  cases lead <;> cases h

theorem startsStatement_punctuator {k : Token.Kind} (h : startsStatement k = true) :
    k ≠ .punctuator .rightBrace := by
  rintro rfl
  cases h

theorem startsStatement_keyword {k : Token.Kind} (h : startsStatement k = true) :
    startsDeclaration k = false ∧ keyword? .elseKw k = none := by
  cases k with
  | keyword w => cases w <;> first | exact ⟨rfl, rfl⟩ | cases h
  | _ => exact ⟨rfl, rfl⟩

/-- The tokens ahead do not go on with a declaration. -/
def EndsDecls (ts : List Token) : Prop := ∀ t ∈ ts.head?, startsDeclaration t.kind = false

namespace Shape

variable {nested : Prop}

theorem Expression.begins {ts : List Token} (h : Expression ts) : BeginsExpr ts := by
  obtain ⟨_, _, _, h⟩ := h
  exact h.begins

theorem Statement.begins {ts : List Token} (h : Statement nested ts) :
    ∃ t us, ts = t :: us ∧ startsStatement t.kind = true := by
  cases h with
  | block h =>
    obtain ⟨_, _⟩ := h
    exact ⟨_, _, rfl, rfl⟩
  | ifThen | ifElse | whileLoop | forLoop | returnStmt => exact ⟨_, _, rfl, rfl⟩
  | @jump kind => exact ⟨_, _, rfl, by cases kind <;> rfl⟩
  | expr h =>
    obtain ⟨t, us, rfl, ht⟩ := h.begins
    exact ⟨_, _, rfl, by simp [startsStatement, ht]⟩

/-- Statements in a block are followed by no `else`. -/
theorem Statements.nextNot_else {ts : List Token} (rest : List Token) (l : Location)
    (h : Statements nested ts) :
    NextNot (keyword? .elseKw) (ts ++ .ofMark .rightBrace l :: rest) := by
  cases h with
  | nil => exact nextNot_cons.mpr rfl
  | cons h _ =>
    obtain ⟨t, us, rfl, ht⟩ := h.begins
    exact nextNot_cons.mpr (startsStatement_keyword ht).2

/-- Statements in a block are followed by no declaration. -/
theorem Statements.endsDecls {ts : List Token} (rest : List Token) (l : Location)
    (h : Statements nested ts) : EndsDecls (ts ++ .ofMark .rightBrace l :: rest) := by
  cases h with
  | nil =>
    rintro t ⟨⟩
    rfl
  | cons h _ =>
    obtain ⟨t, us, rfl, ht⟩ := h.begins
    rintro t' ⟨⟩
    exact (startsStatement_keyword ht).1

end Shape

theorem Statement.begins {i j : Nat} {ts : List Token} {s : Stmt} (h : Statement i ts s j) :
    ∃ t us, ts = t :: us ∧ startsStatement t.kind = true :=
  (h.shape : Shape.Statement False ts).begins

theorem Statements.nextNot_else {i j : Nat} {ts : List Token} {ss : List Stmt}
    (rest : List Token) (l : Location) (h : Statements i ts ss j) :
    NextNot (keyword? .elseKw) (ts ++ .ofMark .rightBrace l :: rest) :=
  (h.shape : Shape.Statements False ts).nextNot_else rest l

theorem Statements.endsDecls {i j : Nat} {ts : List Token} {ss : List Stmt}
    (rest : List Token) (l : Location) (h : Statements i ts ss j) :
    EndsDecls (ts ++ .ofMark .rightBrace l :: rest) :=
  (h.shape : Shape.Statements False ts).endsDecls rest l

end Grammar

end CSubset
