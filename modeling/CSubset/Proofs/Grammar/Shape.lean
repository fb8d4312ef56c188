-- SUMMARY: Which token lists the grammar derives, whatever they form; parameters may be allowed parameters of their own.
import CSubset.Proofs.Grammar.Unit

/-!
# Shapes

The productions of the grammar once more, without the syntax that they build. Without it one
production can be loosened that no syntax would stand for: if `nested` holds, a parameter may be
declared as a function, that is, its declarator may end in a parameter list just as that of a
function at file level.
-/

namespace CSubset.Grammar

/-! ## Expressions -/

mutual

/-- The tokens of an expression form one from every number on. -/
theorem Assignment.renumber {i j : Nat} {ts : List Token} {e : Expr} (k : Nat) :
    Assignment i ts e j → ∃ e' m, Assignment k ts e' m
  | .operand h =>
    have ⟨_, _, h'⟩ := h.renumber k
    ⟨_, _, .operand h'⟩
  | .assign ht hv =>
    have ⟨_, m, ht'⟩ := ht.renumber k
    have ⟨_, _, hv'⟩ := hv.renumber m
    ⟨_, _, .assign ht' hv'⟩

theorem Binary.renumber {p i j : Nat} {ts : List Token} {e : Expr} (k : Nat) :
    Binary p i ts e j → ∃ e' m, Binary p k ts e' m
  | .operand h =>
    have ⟨_, _, h'⟩ := h.renumber k
    ⟨_, _, .operand h'⟩
  | .tighter h =>
    have ⟨_, _, h'⟩ := h.renumber k
    ⟨_, _, .tighter h'⟩
  | .operator hop hl hr =>
    have ⟨_, m, hl'⟩ := hl.renumber k
    have ⟨_, _, hr'⟩ := hr.renumber m
    ⟨_, _, .operator hop hl' hr'⟩

theorem Unary.renumber {i j : Nat} {ts : List Token} {e : Expr} (k : Nat) :
    Unary i ts e j → ∃ e' m, Unary k ts e' m
  | .operand h =>
    have ⟨_, _, h'⟩ := h.renumber k
    ⟨_, _, .operand h'⟩
  | .operator h =>
    have ⟨_, _, h'⟩ := h.renumber k
    ⟨_, _, .operator h'⟩

theorem Suffixed.renumber {i j : Nat} {ts : List Token} {e : Expr} (k : Nat) :
    Suffixed i ts e j → ∃ e' m, Suffixed k ts e' m
  | .primary h =>
    have ⟨_, _, h'⟩ := h.renumber k
    ⟨_, _, .primary h'⟩
  | .call hc ha =>
    have ⟨_, m, hc'⟩ := hc.renumber k
    have ⟨_, _, ha'⟩ := ha.renumber m
    ⟨_, _, .call hc' ha'⟩
  | .index hb hs =>
    have ⟨_, m, hb'⟩ := hb.renumber k
    have ⟨_, _, hs'⟩ := hs.renumber m
    ⟨_, _, .index hb' hs'⟩

theorem Arguments.renumber {i j : Nat} {ts : List Token} {es : List Expr} (k : Nat) :
    Arguments i ts es j → ∃ es' m, Arguments k ts es' m
  | .none => ⟨_, _, .none⟩
  | .some h =>
    have ⟨_, _, h'⟩ := h.renumber k
    ⟨_, _, .some h'⟩

theorem ArgumentList.renumber {i j : Nat} {ts : List Token} {es : List Expr} (k : Nat) :
    ArgumentList i ts es j → ∃ es' m, ArgumentList k ts es' m
  | .last h =>
    have ⟨_, _, h'⟩ := h.renumber k
    ⟨_, _, .last h'⟩
  | .more h hs =>
    have ⟨_, m, h'⟩ := h.renumber k
    have ⟨_, _, hs'⟩ := hs.renumber m
    ⟨_, _, .more h' hs'⟩

theorem Primary.renumber {i j : Nat} {ts : List Token} {e : Expr} (k : Nat) :
    Primary i ts e j → ∃ e' m, Primary k ts e' m
  | .int => ⟨_, _, .int⟩
  | .float => ⟨_, _, .float⟩
  | .char => ⟨_, _, .char⟩
  | .string h => ⟨_, _, .string h⟩
  | .ident => ⟨_, _, .ident⟩
  | .group h =>
    have ⟨_, _, h'⟩ := h.renumber k
    ⟨_, _, .group h'⟩

end

namespace Shape

/-- The tokens form an expression. -/
def Expression (ts : List Token) : Prop := ∃ i e j, Assignment i ts e j

/-! ## Declarators -/

/-- What a declarator declares. -/
inductive Declared where
  | object
  | function
deriving DecidableEq, Repr

variable (nested : Prop)

mutual

/-- Declarators: a name with pointer marks in front and array sizes or a parameter list behind. -/
inductive Declarator : Declared → List Token → Prop where
  | pointer {declared : Declared} {ts : List Token} {l : Location} (h : Declarator declared ts) :
      Declarator declared (.ofMark .star l :: ts)
  | object {ts : List Token} {ns : List Nat} {name : String} {l : Location}
      (h : Dimensions ts ns) : Declarator .object (⟨.identifier name, l⟩ :: ts)
  | function {ts : List Token} {name : String} {l l₁ l₂ : Location} (h : ParamList ts) :
      Declarator .function
        (⟨.identifier name, l⟩ :: .ofMark .leftParen l₁ :: (ts ++ [.ofMark .rightParen l₂]))

/-- Parameters, which are functions only if `nested` holds. -/
inductive Param : List Token → Prop where
  | mk {ts us : List Token} {type : DeclaredType} {declared : Declared}
      (ht : TypeSpecifier ts type) (hd : Declarator declared us)
      (hn : declared = .function → nested) : Param (ts ++ us)

/-- One or more parameters with commas between them, and perhaps an ellipsis at the end. -/
inductive Params : List Token → Prop where
  | last {ts : List Token} (h : Param ts) : Params ts
  | variadic {ts : List Token} {l l' : Location} (h : Param ts) :
      Params (ts ++ [.ofMark .comma l, .ofMark .ellipsis l'])
  | more {ts us : List Token} {l : Location} (h : Param ts) (hs : Params us) :
      Params (ts ++ .ofMark .comma l :: us)

/-- What stands between the parentheses of a function declarator. -/
inductive ParamList : List Token → Prop where
  | nothing : ParamList []
  | void {l : Location} : ParamList [.ofWord .voidKw l]
  | params {ts : List Token} (h : Params ts) : ParamList ts

end

/-- Headings of declarations. -/
inductive Heading : Storage → Declared → List Token → Prop where
  | mk {ss ts us : List Token} {storage : Storage} {type : DeclaredType} {declared : Declared}
      (hs : StorageClass ss storage) (ht : TypeSpecifier ts type)
      (hd : Declarator nested declared us) : Heading storage declared (ss ++ (ts ++ us))

/-! ## Declarations and statements -/

/-- Any number of phrases one behind the other. -/
inductive Sequence (phrase : List Token → Prop) : List Token → Prop where
  | nil : Sequence phrase []
  | cons {ts us : List Token} (h : phrase ts) (hs : Sequence phrase us) :
      Sequence phrase (ts ++ us)

/-- Declarations that can stand in a block. -/
inductive LocalDecl : List Token → Prop where
  | plain {ts : List Token} {storage : Storage} {declared : Declared} {l : Location}
      (h : Heading nested storage declared ts) : LocalDecl (ts ++ [.ofMark .semicolon l])
  | initialized {ts us : List Token} {storage : Storage} {l l' : Location}
      (h : Heading nested storage .object ts) (he : Expression us) :
      LocalDecl (ts ++ .ofMark .assign l :: (us ++ [.ofMark .semicolon l']))

/-- Expressions that may be absent. -/
inductive Clause : List Token → Prop where
  | none : Clause []
  | some {ts : List Token} (h : Expression ts) : Clause ts

mutual

/-- Statements. -/
inductive Statement : List Token → Prop where
  | block {ts : List Token} (h : Compound ts) : Statement ts
  | ifThen {ts us : List Token} {l l₁ l₂ : Location} (he : Expression ts) (hb : Compound us) :
      Statement (.ofWord .ifKw l :: .ofMark .leftParen l₁ :: (ts ++ .ofMark .rightParen l₂ :: us))
  | ifElse {ts us vs : List Token} {l l₁ l₂ l₃ : Location} (he : Expression ts)
      (hb : Compound us) (ha : Compound vs) :
      Statement (.ofWord .ifKw l :: .ofMark .leftParen l₁ ::
        (ts ++ .ofMark .rightParen l₂ :: (us ++ .ofWord .elseKw l₃ :: vs)))
  | whileLoop {ts us : List Token} {l l₁ l₂ : Location} (he : Expression ts) (hb : Compound us) :
      Statement
        (.ofWord .whileKw l :: .ofMark .leftParen l₁ :: (ts ++ .ofMark .rightParen l₂ :: us))
  | forLoop {ts us vs ws : List Token} {l l₁ l₂ l₃ l₄ : Location} (h₁ : Clause ts)
      (h₂ : Clause us) (h₃ : Clause vs) (hb : Compound ws) :
      Statement (.ofWord .forKw l :: .ofMark .leftParen l₁ :: (ts ++ .ofMark .semicolon l₂ ::
        (us ++ .ofMark .semicolon l₃ :: (vs ++ .ofMark .rightParen l₄ :: ws))))
  | jump {kind : Jump} {l l₁ : Location} :
      Statement [.ofWord kind.keyword l, .ofMark .semicolon l₁]
  | returnStmt {ts : List Token} {l l₁ : Location} (h : Clause ts) :
      Statement (.ofWord .returnKw l :: (ts ++ [.ofMark .semicolon l₁]))
  | expr {ts : List Token} {l : Location} (h : Expression ts) :
      Statement (ts ++ [.ofMark .semicolon l])

/-- Any number of statements one behind the other. -/
inductive Statements : List Token → Prop where
  | nil : Statements []
  | cons {ts us : List Token} (h : Statement ts) (hs : Statements us) : Statements (ts ++ us)

/-- Declarations, then statements, between braces. -/
inductive Compound : List Token → Prop where
  | mk {ts us : List Token} {l l' : Location} (hd : Sequence (LocalDecl nested) ts)
      (hs : Statements us) :
      Compound (.ofMark .leftBrace l :: (ts ++ (us ++ [.ofMark .rightBrace l'])))

end

/-! ## Units -/

/-- Declarations at file level; a function that is not external can have a body. -/
inductive FileDecl : List Token → Prop where
  | decl {ts : List Token} (h : LocalDecl nested ts) : FileDecl ts
  | definition {ts us : List Token} {storage : Storage}
      (h : Heading nested storage .function ts) (hs : storage ≠ .external)
      (hb : Compound nested us) : FileDecl (ts ++ us)

end Shape

/-- The tokens are those of a compilation unit in which, if `nested` holds, parameters can be
declared as functions. -/
def Sentence (nested : Prop) : List Token → Prop := Shape.Sequence (Shape.FileDecl nested)

/-! ## Shapes of derived syntax -/

section

variable {nested : Prop}

open Shape

theorem Assignment.shape {i j : Nat} {ts : List Token} {e : Expr} (h : Assignment i ts e j) :
    Expression ts := ⟨i, e, j, h⟩

theorem Shape.Declarator.stars {declared : Declared} {ps us : List Token} {n : Nat}
    (hp : Stars ps n) (h : Shape.Declarator nested declared us) :
    Shape.Declarator nested declared (ps ++ us) := by
  induction hp with
  | nil => exact h
  | cons _ ih => exact .pointer ih

theorem Param.shape {ts : List Token} {p : Parameter} (h : Param ts p) : Shape.Param nested ts := by
  obtain ⟨⟨ht, hp, hd⟩⟩ := h
  exact .mk ht (.stars hp (.object hd)) nofun

theorem Params.shape {ts : List Token} {ps : List Parameter} {variadic : Bool}
    (h : Params ts ps variadic) : Shape.Params nested ts := by
  induction h with
  | last h => exact .last h.shape
  | variadic h => exact .variadic h.shape
  | more h _ ih => exact .more h.shape ih

theorem ParamList.shape {ts : List Token} {ps : List Parameter} {variadic : Bool}
    (h : ParamList ts ps variadic) : Shape.ParamList nested ts := by
  cases h with
  | nothing => exact .nothing
  | void => exact .void
  | params h => exact .params h.shape

theorem VarHeading.shape {ts : List Token} {v : Variable} (h : VarHeading ts v) :
    Heading nested v.storage .object ts := by
  obtain ⟨hs, ⟨ht, hp, hd⟩⟩ := h
  exact .mk hs ht (.stars hp (.object hd))

theorem FunHeading.shape {ts : List Token} {p : Prototype} (h : FunHeading ts p) :
    Heading nested p.storage .function ts := by
  obtain ⟨hs, ht, hp, hq⟩ := h
  exact .mk hs ht (.stars hp (.function hq.shape))

theorem Many.shape {α : Type} {phrase : Nat → List Token → α → Nat → Prop}
    {i j : Nat} {ts : List Token} {xs : List α} (h : Many phrase i ts xs j)
    (shape : List Token → Prop) (hphrase : ∀ i ts x j, phrase i ts x j → shape ts) :
    Sequence shape ts := by
  induction h with
  | nil => exact .nil
  | cons h _ ih => exact .cons (hphrase _ _ _ _ h) ih

theorem LocalDecl.shape {i j : Nat} {ts : List Token} {d : Decl} (h : LocalDecl i ts d j) :
    Shape.LocalDecl nested ts := by
  cases h with
  | var h => exact .plain h.shape
  | initialized h he => exact .initialized h.shape he.shape
  | prototype h => exact .plain h.shape

theorem Clause.shape {i j : Nat} {ts : List Token} {e : Option Expr} (h : Clause i ts e j) :
    Shape.Clause ts := by
  cases h with
  | none => exact .none
  | some h => exact .some h.shape

mutual

theorem Statement.shape {i j : Nat} {ts : List Token} {s : Stmt} :
    Statement i ts s j → Shape.Statement nested ts
  | .block h => .block h.shape
  | .ifThen he hb => .ifThen he.shape hb.shape
  | .ifElse he hb ha => .ifElse he.shape hb.shape ha.shape
  | .whileLoop he hb => .whileLoop he.shape hb.shape
  | .forLoop h₁ h₂ h₃ hb => .forLoop h₁.shape h₂.shape h₃.shape hb.shape
  | .jump => .jump
  | .returnStmt h => .returnStmt h.shape
  | .expr h => .expr h.shape

theorem Statements.shape {i j : Nat} {ts : List Token} {ss : List Stmt} :
    Statements i ts ss j → Shape.Statements nested ts
  | .nil => .nil
  | .cons h hs => .cons h.shape hs.shape

theorem Compound.shape {i j : Nat} {ts : List Token} {b : Block} :
    Compound i ts b j → Shape.Compound nested ts
  | .mk hd hs => .mk (hd.shape _ fun _ _ _ _ => LocalDecl.shape) hs.shape

end

theorem FileDecl.shape {i j : Nat} {ts : List Token} {d : External} (h : FileDecl i ts d j) :
    Shape.FileDecl nested ts := by
  cases h with
  | decl h => exact .decl h.shape
  | definition h hs hb => exact .definition h.shape hs hb.shape

end

end CSubset.Grammar
