-- SUMMARY: The kinds of reports that are made about the pieces of a unit.
import CSubset.Check.Unit
import CSubset.Proofs.Check.Expr

/-!
# Kinds of reports in a unit

`Findings.reportsOf` picks the reports of one kind. Conditions, initializers and returned values
add mismatches to what is reported about expressions, and declarations add repeated names. So for
most kinds it is enough to look at the one statement or declaration that makes them.
-/

namespace CSubset

open Diagnostic (Kind)

/-- The reports of a kind, in order. -/
def Findings.reportsOf (k : Kind) (f : Findings) : List Diagnostic :=
  f.diagnostics.filter fun d => d.kind = k

namespace Findings

@[simp] theorem reportsOf_append (k : Kind) (f g : Findings) :
    (f ++ g).reportsOf k = f.reportsOf k ++ g.reportsOf k := by
  rw [reportsOf, diagnostics_append, List.filter_append]
  rfl

@[simp] theorem reportsOf_ofDiagnostics (k : Kind) (ds : List Diagnostic) :
    (ofDiagnostics ds).reportsOf k = ds.filter fun d => d.kind = k := by
  rw [reportsOf, diagnostics_ofDiagnostics]

end Findings

/-- Reports of certain kinds are none of another kind. -/
theorem OfKind.filter_kind {p : Kind → Bool} {ds : List Diagnostic} (h : OfKind p ds) {k : Kind}
    (hk : p k = false) : ds.filter (fun d => d.kind = k) = [] := by
  refine List.filter_eq_nil_iff.mpr fun d hd hkind => ?_
  have hp := h d hd
  rw [of_decide_eq_true hkind, hk] at hp
  cases hp

/-- A report that is only made of something `void`. -/
theorem OfKind.void (type : DeclaredType) (m : Mismatch) (l : Location) :
    OfKind Kind.isExpr (if type.isVoid then [m.report l] else []) := by
  split
  · exact (OfKind.report m l).toExpr
  · exact .nil

/-! ## Expressions -/

variable {k : Kind}

theorem Expr.check_reportsOf (hk : k.isExpr = false) (names : Names) (e : Expr) :
    (e.check names).findings.reportsOf k = [] := e.check_ofKind.filter_kind hk

theorem Expr.checkCondition_ofKind (names : Names) (e : Expr) :
    OfKind Kind.isExpr (e.checkCondition names).diagnostics := by
  rw [checkCondition, Findings.diagnostics_append, Findings.diagnostics_ofDiagnostics]
  exact e.check_ofKind.append (OfKind.guarded (.report _ _)).toExpr

theorem Expr.checkCondition_reportsOf (hk : k.isExpr = false) (names : Names) (e : Expr) :
    (e.checkCondition names).reportsOf k = [] := (e.checkCondition_ofKind names).filter_kind hk

theorem optionalFindings_reportsOf {f : Expr → Findings} (e : Option Expr)
    (hf : ∀ e, (f e).reportsOf k = []) : (optionalFindings f e).reportsOf k = [] := by
  cases e with
  | none => rfl
  | some e => exact hf e

theorem Prototype.returnFaults_ofRule (p : Prototype) (t : ValueType) (l : Location) :
    OfKind Kind.isRule (p.returnFaults t l) := by
  unfold Prototype.returnFaults
  split
  · exact .report _ _
  · exact .guarded (.report _ _)

/-! ## Declarations -/

theorem Variable.check_ofKind (names : Names) (v : Variable) :
    OfKind Kind.isExpr (v.check names).diagnostics := by
  rw [check, Findings.diagnostics_append, Findings.diagnostics_ofDiagnostics]
  refine (OfKind.void _ _ _).append ?_
  cases v.initializer with
  | none => exact .nil
  | some e =>
    dsimp only
    rw [Findings.diagnostics_append, Findings.diagnostics_ofDiagnostics]
    exact e.check_ofKind.append (OfKind.guarded (.report _ _)).toExpr

theorem Variable.check_reportsOf (hk : k.isExpr = false) (names : Names) (v : Variable) :
    (v.check names).reportsOf k = [] := (v.check_ofKind names).filter_kind hk

theorem ScopeTree.declare_reportsOf (hk : k ≠ .duplicateSymbol) (t : ScopeTree) (scope : Nat)
    (x : Symbol) : (t.declare scope x).findings.reportsOf k = [] := by
  unfold declare
  split
  · rfl
  · rw [Findings.reportsOf_ofDiagnostics, List.filter_cons_of_neg]
    · rfl
    · exact fun heq => hk (of_decide_eq_true heq).symm

theorem Decl.check_reportsOf (hk : k.isExpr = false) (hname : k ≠ .duplicateSymbol) (scope : Nat)
    (d : Decl) (t : ScopeTree) : (d.check scope t).findings.reportsOf k = [] := by
  unfold check
  rw [Checked.prepend, Findings.reportsOf_append, t.declare_reportsOf hname, List.append_nil]
  cases d with
  | function p => rfl
  | var v => exact v.check_reportsOf hk _

theorem Decl.checkAll_reportsOf (hk : k.isExpr = false) (hname : k ≠ .duplicateSymbol)
    (scope : Nat) (ds : List Decl) (t : ScopeTree) :
    (Decl.checkAll scope ds t).findings.reportsOf k = [] := by
  induction ds generalizing t with
  | nil => rfl
  | cons d rest ih =>
    rw [checkAll, Checked.andThen, Findings.reportsOf_append, d.check_reportsOf hk hname, ih]
    rfl

theorem Parameter.checkAll_reportsOf (hk : k.isExpr = false) (hname : k ≠ .duplicateSymbol)
    (scope : Nat) (ps : List Parameter) (t : ScopeTree) :
    (Parameter.checkAll scope ps t).findings.reportsOf k = [] := by
  induction ps generalizing t with
  | nil => rfl
  | cons p rest ih =>
    have hvoid := OfKind.void p.type (.voidParameter p.name) p.location
    rw [checkAll, Checked.andThen, Findings.reportsOf_append, ih, Parameter.check,
      Checked.prepend, Findings.reportsOf_append, t.declare_reportsOf hname,
      Findings.reportsOf_ofDiagnostics, hvoid.filter_kind hk]
    rfl

/-! ## Statements -/

mutual

theorem Stmt.check_reportsOf (hk : k.isExpr = false) (hname : k ≠ .duplicateSymbol)
    (hjump : k ≠ .invalidJump) (ctx : Context) : ∀ (s : Stmt) (t : ScopeTree),
      (s.check ctx t).findings.reportsOf k = []
  | .block body, t => body.check_reportsOf hk hname hjump ctx t
  | .ifThen condition body _, t => by
    rw [Stmt.check, Checked.prepend, Findings.reportsOf_append,
      condition.checkCondition_reportsOf hk, body.check_reportsOf hk hname hjump]
    rfl
  | .ifElse condition body alternative _, t => by
    rw [Stmt.check, Checked.prepend, Checked.andThen, Findings.reportsOf_append,
      Findings.reportsOf_append, condition.checkCondition_reportsOf hk,
      body.check_reportsOf hk hname hjump, alternative.check_reportsOf hk hname hjump]
    rfl
  | .whileLoop condition body _, t => by
    rw [Stmt.check, Checked.prepend, Findings.reportsOf_append,
      condition.checkCondition_reportsOf hk, body.check_reportsOf hk hname hjump]
    rfl
  | .forLoop first condition step body _, t => by
    simp only [Stmt.check, Checked.prepend, Findings.reportsOf_append]
    rw [optionalFindings_reportsOf first (Expr.check_reportsOf hk _),
      optionalFindings_reportsOf condition (Expr.checkCondition_reportsOf hk _),
      optionalFindings_reportsOf step (Expr.check_reportsOf hk _),
      body.check_reportsOf hk hname hjump]
    rfl
  | .jump kind l, t => by
    rw [Stmt.check, Findings.reportsOf_ofDiagnostics]
    split
    · rfl
    · exact List.filter_cons_of_neg fun heq => hjump (of_decide_eq_true heq).symm
  | .returnStmt value l, t => by
    refine optionalFindings_reportsOf value fun e => ?_
    rw [Findings.reportsOf_append, e.check_reportsOf hk, Findings.reportsOf_ofDiagnostics,
      List.nil_append]
    split
    · exact (ctx.function.returnFaults_ofRule _ _).toExpr.filter_kind hk
    · rfl
  | .expr e _, t => e.check_reportsOf hk _

theorem Stmt.checkAll_reportsOf (hk : k.isExpr = false) (hname : k ≠ .duplicateSymbol)
    (hjump : k ≠ .invalidJump) (ctx : Context) : ∀ (ss : List Stmt) (t : ScopeTree),
      (Stmt.checkAll ctx ss t).findings.reportsOf k = []
  | [], _ => rfl
  | s :: rest, t => by
    rw [Stmt.checkAll, Checked.andThen, Findings.reportsOf_append,
      s.check_reportsOf hk hname hjump, Stmt.checkAll_reportsOf hk hname hjump ctx rest]
    rfl

theorem Block.check_reportsOf (hk : k.isExpr = false) (hname : k ≠ .duplicateSymbol)
    (hjump : k ≠ .invalidJump) (ctx : Context) : ∀ (b : Block) (t : ScopeTree),
      (b.check ctx t).findings.reportsOf k = []
  | .mk decls stmts _, t => by
    simp only [Block.check, Checked.prepend, Checked.andThen, Findings.reportsOf_append,
      Decl.checkAll_reportsOf hk hname, Stmt.checkAll_reportsOf hk hname hjump]
    rfl

end

/-! ## Functions -/

/-- The report that a function does not return a value, if it is made. -/
def Prototype.missingReturn (p : Prototype) (body : Block) : List Diagnostic :=
  if p.returnType.isVoid || body.returnsValue then [] else [.missingReturn p.name p.location]

theorem Prototype.kind_of_mem_missingReturn (p : Prototype) (body : Block) :
    ∀ d ∈ p.missingReturn body, d.kind = .missingReturn := by
  intro d hd
  unfold missingReturn at hd
  split at hd
  · cases hd
  · rw [List.mem_singleton.mp hd]
    rfl

/-! ## One piece behind the other -/

theorem Checked.andThen_assoc (c : Checked) (f g : ScopeTree → Checked) :
    (c.andThen f).andThen g = c.andThen fun t => (f t).andThen g := by
  simp only [andThen, Findings.append_assoc]

/-- Checking more statements is going on where the check of the first ones has stopped. -/
theorem Stmt.checkAll_append (ctx : Context) (xs ys : List Stmt) (t : ScopeTree) :
    Stmt.checkAll ctx (xs ++ ys) t = (Stmt.checkAll ctx xs t).andThen (Stmt.checkAll ctx ys) := by
  induction xs generalizing t with
  | nil => rfl
  | cons s rest ih =>
    have hrest : Stmt.checkAll ctx (rest ++ ys) =
        fun t => (Stmt.checkAll ctx rest t).andThen (Stmt.checkAll ctx ys) := funext ih
    rw [List.cons_append, Stmt.checkAll, Stmt.checkAll, hrest, Checked.andThen_assoc]

/-- Checking more declarations is going on where the check of the first ones has stopped. -/
theorem External.checkAll_append (returnTypes : Bool) (us vs : List External) (t : ScopeTree) :
    checkAll returnTypes (us ++ vs) t =
      (checkAll returnTypes us t).andThen (checkAll returnTypes vs) := by
  induction us generalizing t with
  | nil => rfl
  | cons d rest ih =>
    have hrest : checkAll returnTypes (rest ++ vs) =
        fun t => (checkAll returnTypes rest t).andThen (checkAll returnTypes vs) := funext ih
    rw [List.cons_append, checkAll, checkAll, hrest, Checked.andThen_assoc]

/-! ## Units -/

/-- A unit is reported as its declarations are, and at last for its functions `main`. -/
theorem CompilationUnit.check_diagnostics (u : CompilationUnit) (returnTypes : Bool) :
    (u.check returnTypes).diagnostics =
      (External.checkAll returnTypes u.decls .initial).findings.diagnostics ++ u.mainFaults := by
  rw [check, Report.diagnostics, Findings.diagnostics_append, Findings.diagnostics_ofDiagnostics]

theorem CompilationUnit.check_typeOf? (u : CompilationUnit) (returnTypes : Bool) (id : Nat) :
    (u.check returnTypes).typeOf? id =
      (External.checkAll returnTypes u.decls .initial).findings.types.lookup id := by
  rw [check, Report.typeOf?, Findings.types_append, Findings.types_ofDiagnostics, List.append_nil]

theorem CompilationUnit.check_symbolOf? (u : CompilationUnit) (returnTypes : Bool) (id : Nat) :
    (u.check returnTypes).symbolOf? id =
      (External.checkAll returnTypes u.decls .initial).findings.symbols.lookup id := by
  rw [check, Report.symbolOf?, Findings.symbols_append, Findings.symbols_ofDiagnostics,
    List.append_nil]

end CSubset
