-- SUMMARY: The names in a program, and programs with other names.
import CSubset.Syntax.Unit

/-!
# Names

Names are declared, and names stand in expressions for what was declared. `names` lists both as
they are written, from left to right, and `rename` changes every one of them. Keywords, operators
and literals are not touched, nor are the numbers and positions of nodes.
-/

namespace CSubset

/-! ## Names as they are written -/

namespace Expr

mutual

/-- The names in an expression. -/
def names : Expr → List String
  | .literal _ _ => []
  | .ident _ name => [name]
  | .unary _ _ operand => operand.names
  | .binary _ _ left right => left.names ++ right.names
  | .assign _ _ target value => target.names ++ value.names
  | .call _ callee args => callee.names ++ namesAll args
  | .index _ base subscript => base.names ++ subscript.names

/-- The names in expressions that stand one behind the other. -/
def namesAll : List Expr → List String
  | [] => []
  | e :: rest => e.names ++ namesAll rest

end

/-- The names in an expression that may be absent. -/
def optionalNames (e : Option Expr) : List String := e.elim [] names

end Expr

/-- The names of a function and of its parameters. -/
def Prototype.names (p : Prototype) : List String := p.name :: p.parameters.map Parameter.name

/-- The names in a declaration. -/
def Decl.names : Decl → List String
  | function p => p.names
  | var v => v.name :: Expr.optionalNames v.initializer

mutual

/-- The names in a statement. -/
def Stmt.names : Stmt → List String
  | .block body => body.names
  | .ifThen condition body _ => condition.names ++ body.names
  | .ifElse condition body alternative _ => condition.names ++ (body.names ++ alternative.names)
  | .whileLoop condition body _ => condition.names ++ body.names
  | .forLoop first condition step body _ =>
    Expr.optionalNames first ++ (Expr.optionalNames condition ++
      (Expr.optionalNames step ++ body.names))
  | .jump _ _ => []
  | .returnStmt value _ => Expr.optionalNames value
  | .expr value _ => value.names

/-- The names in statements that stand one behind the other. -/
def Stmt.namesAll : List Stmt → List String
  | [] => []
  | s :: rest => s.names ++ Stmt.namesAll rest

/-- The names in a block. -/
def Block.names : Block → List String
  | .mk decls stmts _ => decls.flatMap Decl.names ++ Stmt.namesAll stmts

end

/-- The names in a declaration at file level. -/
def External.names : External → List String
  | decl d => d.names
  | definition p body => p.names ++ body.names

/-- The names in a unit. -/
def CompilationUnit.names (u : CompilationUnit) : List String := u.decls.flatMap External.names

/-! ## Renaming -/

variable (r : String → String)

namespace Expr

mutual

/-- An expression with other names. -/
def rename : Expr → Expr
  | .literal a value => .literal a value
  | .ident a name => .ident a (r name)
  | .unary a op operand => .unary a op operand.rename
  | .binary a op left right => .binary a op left.rename right.rename
  | .assign a op target value => .assign a op target.rename value.rename
  | .call a callee args => .call a callee.rename (renameAll args)
  | .index a base subscript => .index a base.rename subscript.rename

/-- Expressions that stand one behind the other, with other names. -/
def renameAll : List Expr → List Expr
  | [] => []
  | e :: rest => e.rename :: renameAll rest

end

end Expr

/-- A parameter with another name. -/
def Parameter.rename (p : Parameter) : Parameter := { p with name := r p.name }

/-- A function and its parameters with other names. -/
def Prototype.rename (p : Prototype) : Prototype :=
  { p with name := r p.name, parameters := p.parameters.map (Parameter.rename r) }

/-- A variable with other names. -/
def Variable.rename (v : Variable) : Variable :=
  { v with name := r v.name, initializer := v.initializer.map (Expr.rename r) }

/-- A declaration with other names. -/
def Decl.rename : Decl → Decl
  | function p => .function (p.rename r)
  | var v => .var (v.rename r)

mutual

/-- A statement with other names. -/
def Stmt.rename : Stmt → Stmt
  | .block body => .block body.rename
  | .ifThen condition body l => .ifThen (condition.rename r) body.rename l
  | .ifElse condition body alternative l =>
    .ifElse (condition.rename r) body.rename alternative.rename l
  | .whileLoop condition body l => .whileLoop (condition.rename r) body.rename l
  | .forLoop first condition step body l =>
    .forLoop (first.map (Expr.rename r)) (condition.map (Expr.rename r))
      (step.map (Expr.rename r)) body.rename l
  | .jump kind l => .jump kind l
  | .returnStmt value l => .returnStmt (value.map (Expr.rename r)) l
  | .expr value l => .expr (value.rename r) l

/-- Statements that stand one behind the other, with other names. -/
def Stmt.renameAll : List Stmt → List Stmt
  | [] => []
  | s :: rest => s.rename :: Stmt.renameAll rest

/-- A block with other names. -/
def Block.rename : Block → Block
  | .mk decls stmts l => .mk (decls.map (Decl.rename r)) (Stmt.renameAll stmts) l

end

/-- A declaration at file level with other names. -/
def External.rename : External → External
  | decl d => .decl (d.rename r)
  | definition p body => .definition (p.rename r) (body.rename r)

/-- A unit with other names. -/
def CompilationUnit.rename (u : CompilationUnit) : CompilationUnit :=
  ⟨u.decls.map (External.rename r)⟩

/-! ## What renaming keeps -/

variable {r}

namespace Expr

@[simp] theorem rename_anchor (e : Expr) : (e.rename r).anchor = e.anchor := by cases e <;> rfl

theorem rename_location (e : Expr) : (e.rename r).location = e.location :=
  congrArg Anchor.location e.rename_anchor

end Expr

end CSubset
