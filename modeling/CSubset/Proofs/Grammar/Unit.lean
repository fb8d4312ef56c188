-- SUMMARY: The grammar of declarations, statements and whole compilation units.
import CSubset.Proofs.Grammar.Expr
import CSubset.Syntax.Unit

/-!
# The grammar of units

Headings of declarations hold no expressions, so their derivations carry no node numbers.
What may follow a heading depends on where it stands: a body only follows the heading of a
function that is not external, and only at file level. Bodies of branches and loops are
blocks, and a block holds its declarations before its statements.
-/

namespace CSubset

/-- The keyword that writes a base type. -/
def BaseType.keyword : BaseType → Keyword
  | .int => .intKw
  | .float => .floatKw
  | .char => .charKw
  | .void => .voidKw

namespace Grammar

/-! ## Headings -/

/-- A storage class, perhaps none. -/
inductive StorageClass : List Token → Storage → Prop where
  | none : StorageClass [] .none
  | static {l : Location} : StorageClass [.ofWord .staticKw l] .static
  | external {l : Location} : StorageClass [.ofWord .externKw l] .external

/-- A base type, perhaps constant. -/
inductive TypeSpecifier : List Token → DeclaredType → Prop where
  | plain {b : BaseType} {l : Location} : TypeSpecifier [.ofWord b.keyword l] ⟨b, false, 0, []⟩
  | const {b : BaseType} {l l' : Location} :
      TypeSpecifier [.ofWord .constKw l, .ofWord b.keyword l'] ⟨b, true, 0, []⟩

/-- Pointer marks, and how many they are. -/
inductive Stars : List Token → Nat → Prop where
  | nil : Stars [] 0
  | cons {ts : List Token} {n : Nat} {l : Location} (h : Stars ts n) :
      Stars (.ofMark .star l :: ts) (n + 1)

/-- Array sizes in brackets, perhaps none. -/
inductive Dimensions : List Token → List Nat → Prop where
  | nil : Dimensions [] []
  | cons {ts : List Token} {n : Nat} {ns : List Nat} {l l' l'' : Location}
      (h : Dimensions ts ns) :
      Dimensions (.ofMark .leftBracket l :: ⟨.intLiteral n, l'⟩ :: .ofMark .rightBracket l'' :: ts)
        (n :: ns)

/-- A type, a name and array sizes: what declares a parameter or, behind a storage class, a
variable. -/
inductive Typed : List Token → DeclaredType → String → Location → Prop where
  | mk {ts ps ds : List Token} {b : BaseType} {isConst : Bool} {n : Nat} {ns : List Nat}
      {name : String} {l : Location} (ht : TypeSpecifier ts ⟨b, isConst, 0, []⟩)
      (hp : Stars ps n) (hd : Dimensions ds ns) :
      Typed (ts ++ (ps ++ ⟨.identifier name, l⟩ :: ds)) ⟨b, isConst, n, ns⟩ name l

/-- A parameter, which has no parameters of its own. -/
inductive Param : List Token → Parameter → Prop where
  | mk {ts : List Token} {type : DeclaredType} {name : String} {l : Location}
      (h : Typed ts type name l) : Param ts ⟨type, name, l⟩

/-- One or more parameters with commas between them, and whether an ellipsis ends them. -/
inductive Params : List Token → List Parameter → Bool → Prop where
  | last {ts : List Token} {p : Parameter} (h : Param ts p) : Params ts [p] false
  | variadic {ts : List Token} {p : Parameter} {l l' : Location} (h : Param ts p) :
      Params (ts ++ [.ofMark .comma l, .ofMark .ellipsis l']) [p] true
  | more {ts us : List Token} {p : Parameter} {ps : List Parameter} {variadic : Bool}
      {l : Location} (h : Param ts p) (hs : Params us ps variadic) :
      Params (ts ++ .ofMark .comma l :: us) (p :: ps) variadic

/-- What stands between the parentheses of a function declarator: nothing, a lone `void`, or
parameters. -/
inductive ParamList : List Token → List Parameter → Bool → Prop where
  | nothing : ParamList [] [] false
  | void {l : Location} : ParamList [.ofWord .voidKw l] [] false
  | params {ts : List Token} {ps : List Parameter} {variadic : Bool} (h : Params ts ps variadic) :
      ParamList ts ps variadic

/-- The heading of a variable, which has no initializer yet. -/
inductive VarHeading : List Token → Variable → Prop where
  | mk {ss ts : List Token} {storage : Storage} {type : DeclaredType} {name : String}
      {l : Location} (hs : StorageClass ss storage) (h : Typed ts type name l) :
      VarHeading (ss ++ ts) ⟨type, name, none, storage, l⟩

/-- The heading of a function. -/
inductive FunHeading : List Token → Prototype → Prop where
  | mk {ss ts ps qs : List Token} {storage : Storage} {b : BaseType} {isConst : Bool} {n : Nat}
      {name : String} {params : List Parameter} {variadic : Bool} {l l' l'' : Location}
      (hs : StorageClass ss storage) (ht : TypeSpecifier ts ⟨b, isConst, 0, []⟩) (hp : Stars ps n)
      (hq : ParamList qs params variadic) :
      FunHeading
        (ss ++ (ts ++ (ps ++ ⟨.identifier name, l⟩ :: .ofMark .leftParen l' ::
          (qs ++ [.ofMark .rightParen l'']))))
        ⟨⟨b, isConst, n, []⟩, name, params, variadic, storage, l⟩

/-! ## Declarations -/

/-- Any number of phrases one behind the other. -/
inductive Many {α : Type} (phrase : Nat → List Token → α → Nat → Prop) :
    Nat → List Token → List α → Nat → Prop where
  | nil {i : Nat} : Many phrase i [] [] i
  | cons {i j k : Nat} {ts us : List Token} {x : α} {xs : List α} (h : phrase i ts x j)
      (hs : Many phrase j us xs k) : Many phrase i (ts ++ us) (x :: xs) k

/-- A declaration that can stand in a block. -/
inductive LocalDecl : Nat → List Token → Decl → Nat → Prop where
  | var {i : Nat} {ts : List Token} {v : Variable} {l : Location} (h : VarHeading ts v) :
      LocalDecl i (ts ++ [.ofMark .semicolon l]) (.var v) i
  | initialized {i j : Nat} {ts us : List Token} {v : Variable} {e : Expr} {l l' : Location}
      (h : VarHeading ts v) (he : Assignment i us e j) :
      LocalDecl i (ts ++ .ofMark .assign l :: (us ++ [.ofMark .semicolon l']))
        (.var { v with initializer := some e }) j
  | prototype {i : Nat} {ts : List Token} {p : Prototype} {l : Location} (h : FunHeading ts p) :
      LocalDecl i (ts ++ [.ofMark .semicolon l]) (.function p) i

/-! ## Statements -/

/-- An expression that may be absent. -/
inductive Clause : Nat → List Token → Option Expr → Nat → Prop where
  | none {i : Nat} : Clause i [] none i
  | some {i j : Nat} {ts : List Token} {e : Expr} (h : Assignment i ts e j) :
      Clause i ts (some e) j

mutual

/-- Statements. -/
inductive Statement : Nat → List Token → Stmt → Nat → Prop where
  | block {i j : Nat} {ts : List Token} {b : Block} (h : Compound i ts b j) :
      Statement i ts (.block b) j
  | ifThen {i j k : Nat} {ts us : List Token} {e : Expr} {b : Block} {l l₁ l₂ : Location}
      (he : Assignment i ts e j) (hb : Compound j us b k) :
      Statement i
        (.ofWord .ifKw l :: .ofMark .leftParen l₁ :: (ts ++ .ofMark .rightParen l₂ :: us))
        (.ifThen e b l) k
  | ifElse {i j k m : Nat} {ts us vs : List Token} {e : Expr} {b a : Block}
      {l l₁ l₂ l₃ : Location} (he : Assignment i ts e j) (hb : Compound j us b k)
      (ha : Compound k vs a m) :
      Statement i
        (.ofWord .ifKw l :: .ofMark .leftParen l₁ ::
          (ts ++ .ofMark .rightParen l₂ :: (us ++ .ofWord .elseKw l₃ :: vs)))
        (.ifElse e b a l) m
  | whileLoop {i j k : Nat} {ts us : List Token} {e : Expr} {b : Block} {l l₁ l₂ : Location}
      (he : Assignment i ts e j) (hb : Compound j us b k) :
      Statement i
        (.ofWord .whileKw l :: .ofMark .leftParen l₁ :: (ts ++ .ofMark .rightParen l₂ :: us))
        (.whileLoop e b l) k
  | forLoop {i j k m n : Nat} {ts us vs ws : List Token} {first condition step : Option Expr}
      {b : Block} {l l₁ l₂ l₃ l₄ : Location} (h₁ : Clause i ts first j)
      (h₂ : Clause j us condition k) (h₃ : Clause k vs step m) (hb : Compound m ws b n) :
      Statement i
        (.ofWord .forKw l :: .ofMark .leftParen l₁ :: (ts ++ .ofMark .semicolon l₂ ::
          (us ++ .ofMark .semicolon l₃ :: (vs ++ .ofMark .rightParen l₄ :: ws))))
        (.forLoop first condition step b l) n
  | jump {i : Nat} {kind : Jump} {l l₁ : Location} :
      Statement i [.ofWord kind.keyword l, .ofMark .semicolon l₁] (.jump kind l) i
  | returnStmt {i j : Nat} {ts : List Token} {value : Option Expr} {l l₁ : Location}
      (h : Clause i ts value j) :
      Statement i (.ofWord .returnKw l :: (ts ++ [.ofMark .semicolon l₁]))
        (.returnStmt value l) j
  | expr {i j : Nat} {t : Token} {ts : List Token} {e : Expr} {l₁ : Location}
      (h : Assignment i (t :: ts) e j) :
      Statement i (t :: (ts ++ [.ofMark .semicolon l₁])) (.expr e t.location) j

/-- Any number of statements one behind the other. -/
inductive Statements : Nat → List Token → List Stmt → Nat → Prop where
  | nil {i : Nat} : Statements i [] [] i
  | cons {i j k : Nat} {ts us : List Token} {s : Stmt} {ss : List Stmt}
      (h : Statement i ts s j) (hs : Statements j us ss k) :
      Statements i (ts ++ us) (s :: ss) k

/-- Declarations, then statements, between braces. -/
inductive Compound : Nat → List Token → Block → Nat → Prop where
  | mk {i j k : Nat} {ts us : List Token} {ds : List Decl} {ss : List Stmt} {l l' : Location}
      (hd : Many LocalDecl i ts ds j) (hs : Statements j us ss k) :
      Compound i (.ofMark .leftBrace l :: (ts ++ (us ++ [.ofMark .rightBrace l'])))
        (.mk ds ss l) k

end

/-! ## Units -/

/-- A declaration at file level; a function that is not external can have a body. -/
inductive FileDecl : Nat → List Token → External → Nat → Prop where
  | decl {i j : Nat} {ts : List Token} {d : Decl} (h : LocalDecl i ts d j) :
      FileDecl i ts (.decl d) j
  | definition {i j : Nat} {ts us : List Token} {p : Prototype} {b : Block}
      (h : FunHeading ts p) (hs : p.storage ≠ .external) (hb : Compound i us b j) :
      FileDecl i (ts ++ us) (.definition p b) j

/-- The tokens form a compilation unit whose nodes are numbered from 0. -/
def TranslationUnit (ts : List Token) (u : CompilationUnit) : Prop :=
  ∃ j, Many FileDecl 0 ts u.decls j

end Grammar

end CSubset
