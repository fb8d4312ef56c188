-- SUMMARY: Syntax with other node numbers and other positions.
import CSubset.Syntax.Unit

/-!
# Relabeling

Node numbers and positions say where syntax comes from, not what it is. A `Relabeling` changes
the ones and the others throughout; two pieces of syntax are the same up to numbers or positions
if they are equal once these have been wiped out.
-/

namespace CSubset

/-- New numbers for old ones, and new positions. -/
structure Relabeling where
  number : Nat → Nat
  place : Location → Location

namespace Relabeling

/-- Wipes out the numbers and the positions. -/
def bare : Relabeling := ⟨fun _ => 0, fun _ => .start⟩

/-- Wipes out the positions and keeps the numbers. -/
def unplaced : Relabeling := ⟨id, fun _ => .start⟩

end Relabeling

variable (r : Relabeling)

/-- An anchor with its labels changed. -/
def Anchor.relabel (a : Anchor) : Anchor := ⟨r.number a.id, r.place a.location⟩

namespace Expr

mutual

/-- An expression with its labels changed. -/
def relabel : Expr → Expr
  | .literal a value => .literal (a.relabel r) value
  | .ident a name => .ident (a.relabel r) name
  | .unary a op operand => .unary (a.relabel r) op operand.relabel
  | .binary a op left right => .binary (a.relabel r) op left.relabel right.relabel
  | .assign a op target value => .assign (a.relabel r) op target.relabel value.relabel
  | .call a callee args => .call (a.relabel r) callee.relabel (relabelAll args)
  | .index a base subscript => .index (a.relabel r) base.relabel subscript.relabel

/-- Expressions that stand one behind the other, with their labels changed. -/
def relabelAll : List Expr → List Expr
  | [] => []
  | e :: rest => e.relabel :: relabelAll rest

end

end Expr

/-- A parameter with its labels changed. -/
def Parameter.relabel (p : Parameter) : Parameter := { p with location := r.place p.location }

/-- A prototype with its labels changed. -/
def Prototype.relabel (p : Prototype) : Prototype :=
  { p with
    parameters := p.parameters.map (Parameter.relabel r)
    location := r.place p.location }

/-- A variable with its labels changed. -/
def Variable.relabel (v : Variable) : Variable :=
  { v with
    initializer := v.initializer.map (Expr.relabel r)
    location := r.place v.location }

/-- A declaration with its labels changed. -/
def Decl.relabel : Decl → Decl
  | function p => .function (p.relabel r)
  | var v => .var (v.relabel r)

mutual

/-- A statement with its labels changed. -/
def Stmt.relabel : Stmt → Stmt
  | .block body => .block body.relabel
  | .ifThen condition body l => .ifThen (condition.relabel r) body.relabel (r.place l)
  | .ifElse condition body alternative l =>
    .ifElse (condition.relabel r) body.relabel alternative.relabel (r.place l)
  | .whileLoop condition body l => .whileLoop (condition.relabel r) body.relabel (r.place l)
  | .forLoop first condition step body l =>
    .forLoop (first.map (Expr.relabel r)) (condition.map (Expr.relabel r))
      (step.map (Expr.relabel r)) body.relabel (r.place l)
  | .jump kind l => .jump kind (r.place l)
  | .returnStmt value l => .returnStmt (value.map (Expr.relabel r)) (r.place l)
  | .expr value l => .expr (value.relabel r) (r.place l)

/-- Statements that stand one behind the other, with their labels changed. -/
def Stmt.relabelAll : List Stmt → List Stmt
  | [] => []
  | s :: rest => s.relabel :: Stmt.relabelAll rest

/-- A block with its labels changed. -/
def Block.relabel : Block → Block
  | .mk decls stmts l => .mk (decls.map (Decl.relabel r)) (Stmt.relabelAll stmts) (r.place l)

end

/-- A declaration at file level with its labels changed. -/
def External.relabel : External → External
  | decl d => .decl (d.relabel r)
  | definition p body => .definition (p.relabel r) (body.relabel r)

/-- A unit with its labels changed. -/
def CompilationUnit.relabel (u : CompilationUnit) : CompilationUnit :=
  ⟨u.decls.map (External.relabel r)⟩

end CSubset
