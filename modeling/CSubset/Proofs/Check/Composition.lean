-- SUMMARY: What holds of the findings about single expressions, and is kept as findings are put together, holds of whole units.
import CSubset.Check.Unit
import CSubset.Proofs.Syntax.Nodes

/-!
# Putting findings together

The findings about a unit are those about its expressions, one behind the other, with reports and
events in between that no table has an entry for. So a property of findings and of the expressions
that they are about need only be shown of single expressions (`Composes`): the walk through
declarations, statements and blocks carries it to the unit (`CompilationUnit.check_composed`).
-/

namespace CSubset

/-- A property of findings and of the expressions that they are about holds where single expressions
are checked and where nothing is recorded, and is kept where findings are put together. -/
structure Composes (P : Findings → List Expr → Prop) : Prop where
  append {f g : Findings} {ds es : List Expr} : P f ds → P g es → P (f ++ g) (ds ++ es)
  bare {f : Findings} : f.types = [] → f.symbols = [] → P f []
  expr (t : ScopeTree) (scope : Nat) (e : Expr) : P (e.check (t.lookup scope)).findings [e]

variable {P : Findings → List Expr → Prop}

namespace Composes

variable {f g : Findings} {es : List Expr}

theorem none (h : Composes P) : P .none [] := h.bare rfl rfl

theorem ofDiagnostics (h : Composes P) (ds : List Diagnostic) : P (.ofDiagnostics ds) [] :=
  h.bare rfl rfl

/-- Findings about no expression may stand in front. -/
theorem append_left (h : Composes P) (hf : P f []) (hg : P g es) : P (f ++ g) es := h.append hf hg

/-- Findings about no expression may stand behind. -/
theorem append_right (h : Composes P) (hf : P f es) (hg : P g []) : P (f ++ g) es := by
  have hfg := h.append hf hg
  rwa [List.append_nil] at hfg

theorem andThen (h : Composes P) {c : Checked} {next : ScopeTree → Checked} {ds es : List Expr}
    (hc : P c.findings ds) (hnext : ∀ t, P (next t).findings es) :
    P (c.andThen next).findings (ds ++ es) := h.append hc (hnext _)

theorem declare (h : Composes P) (t : ScopeTree) (scope : Nat) (x : Symbol) :
    P (t.declare scope x).findings [] := by
  unfold ScopeTree.declare
  split
  · exact h.none
  · exact h.ofDiagnostics _

theorem condition (h : Composes P) (t : ScopeTree) (scope : Nat) (e : Expr) :
    P (e.checkCondition (t.lookup scope)) [e] :=
  h.append_right (h.expr t scope e) (h.ofDiagnostics _)

theorem optional (h : Composes P) {check : Expr → Findings} (e : Option Expr)
    (hcheck : ∀ e, P (check e) [e]) : P (optionalFindings check e) e.toList := by
  cases e with
  | none => exact h.none
  | some e => exact hcheck e

end Composes

/-! ## Declarations -/

theorem Decl.check_composed (h : Composes P) (scope : Nat) (d : Decl) (t : ScopeTree) :
    P (d.check scope t).findings d.exprs := by
  have hname := h.declare t scope d.symbol
  cases d with
  | function p => exact h.append_left h.none hname
  | var v =>
    refine h.append_right (h.append_left (h.ofDiagnostics _) ?_) hname
    obtain ⟨type, name, initializer, storage, l⟩ := v
    cases initializer with
    | none => exact h.none
    | some e => exact h.append_right (h.expr t scope e) (h.ofDiagnostics _)

theorem Decl.checkAll_composed (h : Composes P) (scope : Nat) (ds : List Decl) (t : ScopeTree) :
    P (Decl.checkAll scope ds t).findings (ds.flatMap Decl.exprs) := by
  induction ds generalizing t with
  | nil => exact h.none
  | cons d rest ih => exact h.andThen (d.check_composed h scope t) ih

theorem Parameter.checkAll_composed (h : Composes P) (scope : Nat) (ps : List Parameter)
    (t : ScopeTree) : P (Parameter.checkAll scope ps t).findings [] := by
  induction ps generalizing t with
  | nil => exact h.none
  | cons p rest ih =>
    have hp : P (p.check scope t).findings [] :=
      h.append_left (h.ofDiagnostics _) (h.declare t scope (.parameter p))
    exact h.andThen hp ih

/-! ## Statements -/

mutual

theorem Stmt.check_composed (h : Composes P) (ctx : Context) : ∀ (s : Stmt) (t : ScopeTree),
    P (s.check ctx t).findings s.exprs
  | .block body, t => body.check_composed h ctx t
  | .ifThen condition body _, t =>
    h.append (h.condition t ctx.scope condition) (body.check_composed h ctx t)
  | .ifElse condition body alternative _, t =>
    h.append (h.condition t ctx.scope condition)
      (h.andThen (body.check_composed h ctx t) (alternative.check_composed h ctx))
  | .whileLoop condition body _, t =>
    h.append (h.condition t ctx.scope condition) (body.check_composed h _ t)
  | .forLoop first condition step body _, t => by
    have h₁ := h.optional first (h.expr t ctx.scope)
    have h₂ := h.optional condition (h.condition t ctx.scope)
    have h₃ := h.optional step (h.expr t ctx.scope)
    rw [Stmt.exprs, ← List.append_assoc condition.toList, ← List.append_assoc first.toList]
    exact h.append (h.append h₁ (h.append h₂ h₃)) (body.check_composed h _ t)
  | .jump _ _, _ => h.ofDiagnostics _
  | .returnStmt value _, t =>
    h.optional value fun e => h.append_right (h.expr t ctx.scope e) (h.ofDiagnostics _)
  | .expr e _, t => h.expr t ctx.scope e

theorem Stmt.checkAll_composed (h : Composes P) (ctx : Context) :
    ∀ (ss : List Stmt) (t : ScopeTree), P (Stmt.checkAll ctx ss t).findings (Stmt.exprsAll ss)
  | [], _ => h.none
  | s :: rest, t => h.andThen (s.check_composed h ctx t) (Stmt.checkAll_composed h ctx rest)

theorem Block.check_composed (h : Composes P) (ctx : Context) : ∀ (b : Block) (t : ScopeTree),
    P (b.check ctx t).findings b.exprs
  | .mk decls stmts _, t => by
    have hinner := h.andThen (Decl.checkAll_composed h t.size decls (t.push ctx.scope))
      (Stmt.checkAll_composed h { ctx with scope := t.size } stmts)
    exact h.append_left (h.bare rfl rfl) (h.append_right hinner (h.bare rfl rfl))

end

/-! ## Units -/

theorem Prototype.checkBody_composed (h : Composes P) (returnTypes : Bool) (p : Prototype)
    (body : Block) (t : ScopeTree) : P (p.checkBody returnTypes body t).findings body.exprs := by
  cases body with
  | mk decls stmts l =>
    have hsignature := Parameter.checkAll_composed h t.size p.parameters (t.push ScopeTree.root)
    have hinner := h.andThen (h.andThen hsignature (Decl.checkAll_composed h t.size decls))
      (Stmt.checkAll_composed h ⟨returnTypes, p, t.size, false⟩ stmts)
    exact h.append_left (h.bare rfl rfl) (h.append_right hinner (h.bare rfl rfl))

theorem External.checkAll_composed (h : Composes P) (returnTypes : Bool) (ds : List External)
    (t : ScopeTree) :
    P (External.checkAll returnTypes ds t).findings (ds.flatMap External.exprs) := by
  induction ds generalizing t with
  | nil => exact h.none
  | cons d rest ih =>
    refine h.andThen ?_ ih
    cases d with
    | decl d => exact d.check_composed h _ t
    | definition p body =>
      exact h.append_left (h.declare t _ _) (p.checkBody_composed h returnTypes body _)

/-- The findings about a unit have every property that composes. -/
theorem CompilationUnit.check_composed (h : Composes P) (u : CompilationUnit) (returnTypes : Bool) :
    P (u.check returnTypes).findings u.exprs :=
  h.append_right (External.checkAll_composed h returnTypes u.decls .initial) (h.ofDiagnostics _)

end CSubset
