-- SUMMARY: Checking declarations, statements and whole units.
import CSubset.Check.Expr
import CSubset.Check.Return
import CSubset.Check.ScopeTree

/-!
# Checking units

A unit is checked in one walk in source order. Declarations bind names as the walk
passes them, so a name can be used from its declaration on: a variable behind its
initializer, a function from its own body on. Every block opens a scope; the parameters
of a function and the declarations of its body share one.

What a scope binds is changed only by its own declarations. Statements open scopes and
yield findings, and leave the scopes that were there as they were.
-/

namespace CSubset

/-- Where in a unit a statement is checked. -/
structure Context where
  returnTypes : Bool
  function : Prototype
  scope : Nat
  inLoop : Bool
deriving DecidableEq, Repr

/-- The scopes behind a piece of a unit, and what was found in it. -/
structure Checked where
  scopes : ScopeTree
  findings : Findings
deriving DecidableEq, Repr

namespace Checked

/-- Goes on with what is checked next. -/
def andThen (c : Checked) (next : ScopeTree → Checked) : Checked :=
  let d := next c.scopes
  ⟨d.scopes, c.findings ++ d.findings⟩

/-- Puts findings in front. -/
def prepend (f : Findings) (c : Checked) : Checked := ⟨c.scopes, f ++ c.findings⟩

end Checked

-- ---------------------------------------------------------------------------
-- Declarations
-- ---------------------------------------------------------------------------

/-- Binds a symbol in a scope, or reports what is bound there already. -/
def ScopeTree.declare (t : ScopeTree) (scope : Nat) (x : Symbol) : Checked :=
  match t.add scope x with
  | .ok t => ⟨t, .none⟩
  | .error held => ⟨t, .ofDiagnostics [.duplicateSymbol x.name held.location x.location]⟩

/-- What is wrong with a variable apart from its name. -/
def Variable.check (names : Names) (v : Variable) : Findings :=
  Findings.ofDiagnostics
      (if v.type.isVoid then [(Mismatch.voidVariable v.name).report v.location] else []) ++
    match v.initializer with
    | none => .none
    | some e =>
      let x := e.check names
      let target := ValueType.ofDeclared v.type
      x.findings ++ .ofDiagnostics (if x.type.assignableTo target then []
        else [(Mismatch.initializer v.name target x.type).report e.location])

/-- Checks a declaration in a scope. -/
def Decl.check (scope : Nat) (d : Decl) (t : ScopeTree) : Checked :=
  (t.declare scope d.symbol).prepend
    (match d with
      | .function _ => .none
      | .var v => v.check (t.lookup scope))

/-- Checks declarations one behind the other. -/
def Decl.checkAll (scope : Nat) : List Decl → ScopeTree → Checked
  | [], t => ⟨t, .none⟩
  | d :: rest, t => (d.check scope t).andThen (checkAll scope rest)

/-- Declares a parameter in the scope of its function. -/
def Parameter.check (scope : Nat) (p : Parameter) (t : ScopeTree) : Checked :=
  (t.declare scope (.parameter p)).prepend (.ofDiagnostics
    (if p.type.isVoid then [(Mismatch.voidParameter p.name).report p.location] else []))

/-- Declares parameters one behind the other. -/
def Parameter.checkAll (scope : Nat) : List Parameter → ScopeTree → Checked
  | [], t => ⟨t, .none⟩
  | p :: rest, t => (p.check scope t).andThen (checkAll scope rest)

-- ---------------------------------------------------------------------------
-- Statements
-- ---------------------------------------------------------------------------

/-- What is wrong with a condition. -/
def Expr.checkCondition (names : Names) (e : Expr) : Findings :=
  let x := e.check names
  x.findings ++ .ofDiagnostics
    (if x.type.isTruthValue then [] else [(Mismatch.condition x.type).report e.location])

/-- What is wrong with the value that a return at `at_` gives to its function. -/
def Prototype.returnFaults (p : Prototype) (value : ValueType) (at_ : Location) : List Diagnostic :=
  if p.returnType.isVoid then [(Mismatch.returnFromVoid p.name).report at_]
  else
    let expected := ValueType.ofDeclared p.returnType
    if value.assignableTo expected then []
    else [(Mismatch.returnValue p.name expected value).report at_]

/-- What is found in an expression that may be absent. -/
def optionalFindings (f : Expr → Findings) : Option Expr → Findings
  | none => .none
  | some e => f e

mutual

/-- Checks a statement. -/
def Stmt.check (ctx : Context) : Stmt → ScopeTree → Checked
  | .block body, t => body.check ctx t
  | .ifThen condition body _, t =>
    (body.check ctx t).prepend (condition.checkCondition (t.lookup ctx.scope))
  | .ifElse condition body alternative _, t =>
    ((body.check ctx t).andThen (alternative.check ctx)).prepend
      (condition.checkCondition (t.lookup ctx.scope))
  | .whileLoop condition body _, t =>
    (body.check { ctx with inLoop := true } t).prepend
      (condition.checkCondition (t.lookup ctx.scope))
  | .forLoop first condition step body _, t =>
    let names := t.lookup ctx.scope
    (body.check { ctx with inLoop := true } t).prepend
      (optionalFindings (fun e => (e.check names).findings) first ++
        (optionalFindings (fun e => e.checkCondition names) condition ++
          optionalFindings (fun e => (e.check names).findings) step))
  | .jump kind l, t =>
    ⟨t, .ofDiagnostics (if ctx.inLoop then [] else [.invalidJump kind.keyword.text l])⟩
  | .returnStmt value l, t =>
    ⟨t, optionalFindings (fun e =>
      let x := e.check (t.lookup ctx.scope)
      x.findings ++
        .ofDiagnostics (if ctx.returnTypes then ctx.function.returnFaults x.type l else [])) value⟩
  | .expr e _, t => ⟨t, (e.check (t.lookup ctx.scope)).findings⟩

/-- Checks statements one behind the other. -/
def Stmt.checkAll (ctx : Context) : List Stmt → ScopeTree → Checked
  | [], t => ⟨t, .none⟩
  | s :: rest, t => (s.check ctx t).andThen (Stmt.checkAll ctx rest)

/-- Checks a block in a scope of its own. -/
def Block.check (ctx : Context) : Block → ScopeTree → Checked
  | .mk decls stmts _, t =>
    let scope := t.size
    let inner := (Decl.checkAll scope decls (t.push ctx.scope)).andThen
      (Stmt.checkAll { ctx with scope := scope } stmts)
    (inner.andThen fun t => ⟨t, .ofEvents [.leaveScope scope]⟩).prepend
      (.ofEvents [.enterScope scope ctx.scope])

end

-- ---------------------------------------------------------------------------
-- Units
-- ---------------------------------------------------------------------------

/-- Checks the body of a function, whose parameters share its scope. -/
def Prototype.checkBody (returnTypes : Bool) (p : Prototype) (body : Block) (t : ScopeTree) :
    Checked :=
  let scope := t.size
  let inner := ((Parameter.checkAll scope p.parameters (t.push ScopeTree.root)).andThen
    (Decl.checkAll scope body.decls)).andThen
      (Stmt.checkAll ⟨returnTypes, p, scope, false⟩ body.stmts)
  let missing :=
    if p.returnType.isVoid || body.returnsValue then []
    else [Event.diagnostic (.missingReturn p.name p.location)]
  (inner.andThen fun t => ⟨t, .ofEvents (.leaveFunction p.name :: missing)⟩).prepend
    (.ofEvents [.enterScope scope ScopeTree.root])

/-- Checks a declaration at file level. -/
def External.check (returnTypes : Bool) (d : External) (t : ScopeTree) : Checked :=
  match d with
  | .decl d => d.check ScopeTree.root t
  | .definition p body =>
    (t.declare ScopeTree.root (.function p true)).andThen (p.checkBody returnTypes body)

/-- Checks declarations at file level one behind the other. -/
def External.checkAll (returnTypes : Bool) : List External → ScopeTree → Checked
  | [], t => ⟨t, .none⟩
  | d :: rest, t => (d.check returnTypes t).andThen (checkAll returnTypes rest)

/-- What is wrong with the number of functions `main` that a unit defines. -/
def CompilationUnit.mainFaults (u : CompilationUnit) : List Diagnostic :=
  let found := (u.decls.filter External.isMain).length
  if found = 1 then [] else [.missingMain found]

/-- The outcome of checking a unit. -/
structure Report where
  scopes : ScopeTree
  findings : Findings
deriving DecidableEq, Repr

/-- Checks a unit; the values of returns are checked only if `returnTypes` is set. -/
def CompilationUnit.check (u : CompilationUnit) (returnTypes : Bool) : Report :=
  let c := External.checkAll returnTypes u.decls .initial
  ⟨c.scopes, c.findings ++ .ofDiagnostics u.mainFaults⟩

namespace Report

/-- The diagnostics in the order in which they were found. -/
def diagnostics (r : Report) : List Diagnostic := r.findings.diagnostics

/-- Whether the unit is a program at all. -/
def ok (r : Report) : Bool := !r.diagnostics.any Diagnostic.isFatal

/-- Whether nothing is wrong. -/
def isClean (r : Report) : Bool := r.diagnostics.isEmpty

/-- How many diagnostics of a kind there are. -/
def count (r : Report) (k : Diagnostic.Kind) : Nat :=
  (r.diagnostics.filter fun d => d.kind = k).length

/-- The type of an expression node. -/
def typeOf? (r : Report) (id : Nat) : Option ValueType := r.findings.types.lookup id

/-- The symbol that an identifier node stands for. -/
def symbolOf? (r : Report) (id : Nat) : Option Symbol := r.findings.symbols.lookup id

end Report

end CSubset
