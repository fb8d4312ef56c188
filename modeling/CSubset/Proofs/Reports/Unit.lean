-- SUMMARY: A check reports nothing twice: its diagnostics differ in kind or position.
import Mathlib.Tactic
import CSubset.Compile
import CSubset.Check.Unit
import CSubset.Proofs.Parse.Exactness
import CSubset.Proofs.Reports.Expr
import CSubset.Proofs.Token.Partition

/-!
# Reports of a check

Statements and declarations report at their keyword or name, and about the type of an expression
they hold, which is left to them. The positions of a unit that comes from a text differ, as they
are those of different tokens, so what is reported in its pieces can be put together.
-/

namespace CSubset

open CSubset.Expr (Settled)

/-- What holds an expression can object to its type, unless `invalid` would do. -/
theorem Expr.Settled.judge {names : Names} {e : Expr} (h : Settled names e) (m : Mismatch)
    (fits : ValueType → Bool) (hfits : fits .invalid = true) :
    Distinct e.positions (e.reports names ++
      if fits (e.check names).type then [] else [m.report e.location]) := by
  have hplace : [e.location] ⊆ e.positions :=
    List.cons_subset.mpr ⟨e.location_mem_positions, List.nil_subset _⟩
  split
  · rw [List.append_nil]
    exact h.distinct
  · next hunfit =>
    refine h.distinct.join ((Distinct.single rfl).widen hplace) fun d hd d' hd' heq => ?_
    cases List.mem_singleton.mp hd'
    have ht : (e.check names).type ≠ .invalid := fun ht => hunfit (ht ▸ hfits)
    exact h.leaves d hd (.inr ⟨congrArg Prod.fst heq, ht⟩) (congrArg Prod.snd heq)

/-- What is reported in an expression that may be absent. -/
theorem optional_distinct {f : Expr → Findings} {e : Option Expr}
    (hf : ∀ e : Expr, e.positions.Nodup → Distinct e.positions (f e).diagnostics)
    (h : (e.toList.flatMap Expr.positions).Nodup) :
    Distinct (e.toList.flatMap Expr.positions) (optionalFindings f e).diagnostics := by
  cases e with
  | none => exact .nil _
  | some e =>
    rw [Option.toList_some, List.flatMap_singleton] at h ⊢
    exact hf e h

theorem checkCondition_distinct (names : Names) {e : Expr} (h : e.positions.Nodup) :
    Distinct e.positions (e.checkCondition names).diagnostics := by
  rw [Expr.checkCondition, Findings.diagnostics_append, Findings.diagnostics_ofDiagnostics]
  exact (Expr.settled _ h).judge _ ValueType.isTruthValue rfl

/-! ## Pieces one behind the other -/

namespace Checked

variable {ls ms : List Location} {c : Checked}

theorem andThen_distinct {next : ScopeTree → Checked} (h : Distinct ls c.findings.diagnostics)
    (h' : ∀ t, Distinct ms (next t).findings.diagnostics) (hd : (ls ++ ms).Nodup) :
    Distinct (ls ++ ms) (c.andThen next).findings.diagnostics := by
  rw [andThen, Findings.diagnostics_append]
  exact h.append (h' _) hd

theorem prepend_distinct {f : Findings} (h : Distinct ls f.diagnostics)
    (h' : Distinct ms c.findings.diagnostics) (hd : (ls ++ ms).Nodup) :
    Distinct (ls ++ ms) (c.prepend f).findings.diagnostics := by
  rw [prepend, Findings.diagnostics_append]
  exact h.append h' hd

/-- Events that report nothing can stand around a piece. -/
theorem enclose_distinct (h : Distinct ls c.findings.diagnostics) {before : Findings}
    {after : ScopeTree → Findings} (hbefore : before.diagnostics = [])
    (hafter : ∀ t, (after t).diagnostics = []) :
    Distinct ls (((c.andThen fun t => ⟨t, after t⟩).prepend before).findings.diagnostics) := by
  simp only [prepend, andThen, Findings.diagnostics_append, hbefore, hafter, List.nil_append,
    List.append_nil]
  exact h

end Checked

/-! ## Declarations -/

/-- A declared name is reported for being declared before, besides for other reasons. -/
theorem declare_distinct (t : ScopeTree) (scope : Nat) {x : Symbol} {ds : List Diagnostic}
    (h : Distinct [x.location] ds) (hkinds : ∀ d ∈ ds, d.kind ≠ .duplicateSymbol) :
    Distinct [x.location] (ds ++ (t.declare scope x).findings.diagnostics) := by
  unfold ScopeTree.declare
  split
  · rw [Findings.diagnostics_none, List.append_nil]
    exact h
  · rw [Findings.diagnostics_ofDiagnostics]
    refine h.join (.single rfl) fun d hd d' hd' heq => ?_
    cases List.mem_singleton.mp hd'
    exact hkinds d hd (congrArg Prod.fst heq)

/-- A declared name is reported for having the type void and for being declared before. -/
theorem declareTyped_distinct (t : ScopeTree) (scope : Nat) (x : Symbol) (isVoid : Bool)
    (m : Mismatch) :
    Distinct [x.location] ((if isVoid then [m.report x.location] else []) ++
      (t.declare scope x).findings.diagnostics) := by
  cases isVoid with
  | false => exact declare_distinct t scope (.nil _) (by simp)
  | true =>
    refine declare_distinct t scope (.single rfl) fun d hd hk => ?_
    cases List.mem_singleton.mp hd
    cases hk

theorem Parameter.check_distinct (scope : Nat) (p : Parameter) (t : ScopeTree) :
    Distinct [p.location] (p.check scope t).findings.diagnostics := by
  rw [Parameter.check, Checked.prepend, Findings.diagnostics_append,
    Findings.diagnostics_ofDiagnostics]
  exact declareTyped_distinct t scope (.parameter p) _ _

theorem Parameter.checkAll_distinct (scope : Nat) {ps : List Parameter}
    (h : (ps.map Parameter.location).Nodup) (t : ScopeTree) :
    Distinct (ps.map Parameter.location) (checkAll scope ps t).findings.diagnostics := by
  induction ps generalizing t with
  | nil => exact .nil _
  | cons p rest ih =>
    exact Checked.andThen_distinct (p.check_distinct scope t)
      (ih (List.nodup_cons.mp h).2) h

theorem Decl.check_distinct (scope : Nat) {d : Decl} (h : d.positions.Nodup) (t : ScopeTree) :
    Distinct d.positions (d.check scope t).findings.diagnostics := by
  cases d with
  | function p =>
    have hname := declare_distinct t scope (x := .function p false) (.nil _) (by simp)
    exact hname.widen (List.cons_subset_cons _ (List.nil_subset _))
  | var v =>
    have hname : Distinct [v.location]
        ((if v.type.isVoid then [(Mismatch.voidVariable v.name).report v.location] else []) ++
          (t.declare scope (Decl.var v).symbol).findings.diagnostics) :=
      declareTyped_distinct t scope (Decl.var v).symbol v.type.isVoid (.voidVariable v.name)
    cases hv : v.initializer with
    | none =>
      simp only [Decl.positions, hv, Decl.check, Variable.check, Checked.prepend]
      simpa using hname
    | some e =>
      simp only [Decl.positions, hv, Option.toList_some, List.flatMap_singleton] at h ⊢
      have hvalue := (Expr.settled (t.lookup scope) (List.nodup_cons.mp h).2).judge
        (.initializer v.name (.ofDeclared v.type) (e.check (t.lookup scope)).type)
        (fun t => t.assignableTo (.ofDeclared v.type)) rfl
      refine (hname.append hvalue h).perm ?_
      simp only [Decl.check, Variable.check, hv, Checked.prepend, Findings.diagnostics_append,
        Findings.diagnostics_ofDiagnostics, List.append_assoc]
      refine .append_left _ ?_
      rw [← List.append_assoc]
      exact List.perm_append_comm

theorem Decl.checkAll_distinct (scope : Nat) {ds : List Decl}
    (h : (ds.flatMap Decl.positions).Nodup) (t : ScopeTree) :
    Distinct (ds.flatMap Decl.positions) (checkAll scope ds t).findings.diagnostics := by
  induction ds generalizing t with
  | nil => exact .nil _
  | cons d rest ih =>
    rw [List.flatMap_cons] at h ⊢
    obtain ⟨hd, hrest, -⟩ := List.nodup_append.mp h
    exact Checked.andThen_distinct (d.check_distinct scope hd t) (ih hrest) h

/-! ## Statements -/

theorem Prototype.returnFaults_distinct (p : Prototype) (value : ValueType) (l : Location) :
    Distinct [l] (p.returnFaults value l) := by
  unfold Prototype.returnFaults
  split
  · exact .single rfl
  · dsimp only
    split
    · exact .nil _
    · exact .single rfl

mutual

theorem Stmt.check_distinct (ctx : Context) : ∀ {s : Stmt}, s.positions.Nodup → ∀ t : ScopeTree,
    Distinct s.positions (s.check ctx t).findings.diagnostics
  | .block body, h, t => body.check_distinct ctx h t
  | .ifThen condition body _, h, t => by
    obtain ⟨hc, hb, -⟩ := List.nodup_append.mp h
    exact Checked.prepend_distinct (checkCondition_distinct _ hc) (body.check_distinct ctx hb t) h
  | .ifElse condition body alternative _, h, t => by
    obtain ⟨hc, hrest, -⟩ := List.nodup_append.mp h
    obtain ⟨hb, ha, -⟩ := List.nodup_append.mp hrest
    exact Checked.prepend_distinct (checkCondition_distinct _ hc)
      (Checked.andThen_distinct (body.check_distinct ctx hb t)
        (fun t => alternative.check_distinct ctx ha t) hrest) h
  | .whileLoop condition body _, h, t => by
    obtain ⟨hc, hb, -⟩ := List.nodup_append.mp h
    exact Checked.prepend_distinct (checkCondition_distinct _ hc) (body.check_distinct _ hb t) h
  | .forLoop first condition step body _, h, t => by
    obtain ⟨h₁, hrest, -⟩ := List.nodup_append.mp h
    obtain ⟨h₂, hrest', -⟩ := List.nodup_append.mp hrest
    obtain ⟨h₃, hb, -⟩ := List.nodup_append.mp hrest'
    simp only [Stmt.check, Checked.prepend, Findings.diagnostics_append, List.append_assoc]
    exact (optional_distinct (fun _ h => (Expr.settled _ h).distinct) h₁).append
      ((optional_distinct (fun _ h => checkCondition_distinct _ h) h₂).append
        ((optional_distinct (fun _ h => (Expr.settled _ h).distinct) h₃).append
          (body.check_distinct _ hb t) hrest') hrest) h
  | .jump kind l, _, t => by
    rw [Stmt.check, Findings.diagnostics_ofDiagnostics]
    split
    · exact .nil _
    · exact .single rfl
  | .returnStmt value l, h, t => by
    cases value with
    | none => exact .nil _
    | some e =>
      simp only [Stmt.positions, Option.toList_some, List.flatMap_singleton] at h ⊢
      have he := Expr.settled (t.lookup ctx.scope) (List.nodup_cons.mp h).2
      have hfaults : Distinct [l] (if ctx.returnTypes then
          ctx.function.returnFaults (e.check (t.lookup ctx.scope)).type l else []) := by
        split
        · exact ctx.function.returnFaults_distinct _ l
        · exact .nil _
      refine (hfaults.append he.distinct h).perm ?_
      simp only [Stmt.check, optionalFindings, Findings.diagnostics_append,
        Findings.diagnostics_ofDiagnostics]
      exact List.perm_append_comm
  | .expr e _, h, t => (Expr.settled _ h).distinct

theorem Stmt.checkAll_distinct (ctx : Context) : ∀ {ss : List Stmt},
    (Stmt.positionsAll ss).Nodup → ∀ t : ScopeTree,
      Distinct (Stmt.positionsAll ss) (Stmt.checkAll ctx ss t).findings.diagnostics
  | [], _, _ => .nil _
  | s :: rest, h, t => by
    obtain ⟨hs, hrest, -⟩ := List.nodup_append.mp h
    exact Checked.andThen_distinct (s.check_distinct ctx hs t)
      (fun t => Stmt.checkAll_distinct ctx hrest t) h

theorem Block.check_distinct (ctx : Context) : ∀ {b : Block}, b.positions.Nodup →
    ∀ t : ScopeTree, Distinct b.positions (b.check ctx t).findings.diagnostics
  | .mk decls stmts _, h, t => by
    obtain ⟨hd, hs, -⟩ := List.nodup_append.mp h
    exact Checked.enclose_distinct (Checked.andThen_distinct (Decl.checkAll_distinct _ hd _)
      (fun t => Stmt.checkAll_distinct _ hs t) h) rfl fun _ => rfl

end

/-! ## Units -/

/-- In a function definition the body reports at its positions, and then its lack of a return at
the position of the name. -/
theorem Prototype.checkBody_distinct (returnTypes : Bool) {p : Prototype} {body : Block}
    (h : (p.parameters.map Parameter.location ++ body.positions).Nodup) (t : ScopeTree) :
    ∃ ds ds', (p.checkBody returnTypes body t).findings.diagnostics = ds ++ ds' ∧
      Distinct (p.parameters.map Parameter.location ++ body.positions) ds ∧
        Distinct [p.location] ds' ∧ ∀ d ∈ ds', d.kind = .missingReturn := by
  cases body with
  | mk decls stmts l =>
    rw [Block.positions, ← List.append_assoc] at h
    obtain ⟨hsignature, hs, -⟩ := List.nodup_append.mp h
    obtain ⟨hp, hd, -⟩ := List.nodup_append.mp hsignature
    have hinner := Checked.andThen_distinct
      (Checked.andThen_distinct (Parameter.checkAll_distinct t.size hp (t.push ScopeTree.root))
        (Decl.checkAll_distinct t.size hd) hsignature)
      (Stmt.checkAll_distinct ⟨returnTypes, p, t.size, false⟩ hs) h
    rw [Block.positions, ← List.append_assoc]
    refine ⟨_, if p.returnType.isVoid || (Block.mk decls stmts l).returnsValue then []
      else [.missingReturn p.name p.location], ?_, hinner, ?_, ?_⟩
    · simp only [Prototype.checkBody, Checked.prepend, Checked.andThen,
        Findings.diagnostics_append]
      split <;> rfl
    · split
      · exact .nil _
      · exact .single rfl
    · intro d hd
      split at hd
      · cases hd
      · cases List.mem_singleton.mp hd
        rfl

/-- A function definition reports at its name before and behind its body. -/
theorem External.check_distinct (returnTypes : Bool) {d : External} (h : d.positions.Nodup)
    (t : ScopeTree) : Distinct d.positions (d.check returnTypes t).findings.diagnostics := by
  cases d with
  | decl d => exact d.check_distinct _ h t
  | definition p body =>
    obtain ⟨ds, ds', hbody, hinner, hmissing, hkinds⟩ :=
      Prototype.checkBody_distinct returnTypes (List.nodup_cons.mp h).2
        (t.declare ScopeTree.root (.function p true)).scopes
    have hname := declare_distinct t ScopeTree.root (x := .function p true) hmissing
      fun d hd hk => Diagnostic.Kind.noConfusion ((hkinds d hd).symm.trans hk)
    refine (hname.append hinner h).perm ?_
    simp only [External.check, Checked.andThen, Findings.diagnostics_append, hbody]
    rw [List.append_assoc, ← List.append_assoc _ ds ds']
    exact List.perm_append_comm

theorem External.checkAll_distinct (returnTypes : Bool) {ds : List External}
    (h : (ds.flatMap External.positions).Nodup) (t : ScopeTree) :
    Distinct (ds.flatMap External.positions) (checkAll returnTypes ds t).findings.diagnostics := by
  induction ds generalizing t with
  | nil => exact .nil _
  | cons d rest ih =>
    rw [List.flatMap_cons] at h ⊢
    obtain ⟨hd, hrest, -⟩ := List.nodup_append.mp h
    exact Checked.andThen_distinct (d.check_distinct returnTypes hd t) (ih hrest) h

/-- In a unit whose positions differ nothing is reported twice. -/
theorem CompilationUnit.check_nodup (returnTypes : Bool) {u : CompilationUnit}
    (h : u.positions.Nodup) : ((u.check returnTypes).diagnostics.map Diagnostic.key).Nodup := by
  have hdecls := External.checkAll_distinct returnTypes h .initial
  rw [Report.diagnostics, CompilationUnit.check, Findings.diagnostics_append,
    Findings.diagnostics_ofDiagnostics, List.map_append]
  refine hdecls.nodup.append ?_ fun k hk hk' => ?_
  · unfold CompilationUnit.mainFaults
    dsimp only
    split <;> simp
  · obtain ⟨d, hd, rfl⟩ := List.mem_map.mp hk
    obtain ⟨d', hd', heq⟩ := List.mem_map.mp hk'
    obtain ⟨l, -, hl⟩ := hdecls.within d hd
    have hnone : d'.location? = none := by
      unfold CompilationUnit.mainFaults at hd'
      dsimp only at hd'
      split at hd'
      · cases hd'
      · cases List.mem_singleton.mp hd'
        rfl
    have hlocation : d'.location? = d.location? := congrArg Prod.snd heq
    rw [← hlocation, hnone] at hl
    cases hl

theorem Report.count_missingMain {r : Report} (h : (r.diagnostics.map Diagnostic.key).Nodup) :
    r.count .missingMain ≤ 1 := by
  have hkeys : (r.diagnostics.filter fun d => d.kind = .missingMain).map Diagnostic.key =
      List.replicate (r.count .missingMain) (.missingMain, none) := by
    refine List.eq_replicate_iff.mpr ⟨List.length_map .., fun k hk => ?_⟩
    obtain ⟨d, hd, rfl⟩ := List.mem_map.mp hk
    have hkind := of_decide_eq_true (List.mem_filter.mp hd).2
    cases d <;> first | rfl | cases hkind
  apply List.nodup_replicate.mp
  rw [← hkeys]
  exact (List.filter_sublist.map _).nodup h

/-- The positions in a compiled unit are those of different tokens. -/
theorem positions_nodup_of_compile {source : String} {c : Compilation}
    (h : compile source = .ok c) : c.unit.positions.Nodup :=
  (Parse.translationUnit_of_ofTokens? (ofTokens?_of_compile h)).marks.nodup
    (scan_locations_nodup source)

/-- No two diagnostics of a compiled source have the same kind and the same position; that `main`
is missing, which has no position, is reported once at most. -/
theorem check_reports_once {source : String} {c : Compilation} (h : compile source = .ok c)
    (returnTypes : Bool) :
    ((c.unit.check returnTypes).diagnostics.map fun d => (d.kind, d.location?)).Nodup ∧
      (c.unit.check returnTypes).count .missingMain ≤ 1 := by
  have hnodup := CompilationUnit.check_nodup returnTypes (positions_nodup_of_compile h)
  exact ⟨hnodup, Report.count_missingMain hnodup⟩

/-- The unit that `void a; void a = 1 = b;` is read as. -/
def clashingUnit : CompilationUnit :=
  ⟨[.decl (.var ⟨⟨.void, false, 0, []⟩, "a", none, .none, ⟨1, 6⟩⟩),
    .decl (.var ⟨⟨.void, false, 0, []⟩, "a",
      some (.assign ⟨2, ⟨1, 20⟩⟩ .plain (.literal ⟨0, ⟨1, 18⟩⟩ (.int 1))
        (.ident ⟨1, ⟨1, 22⟩⟩ "b")), .none, ⟨1, 14⟩⟩)]⟩

/-- Two of the reports share the position of the second name, and two share their kind. -/
theorem check_reports_once_clashing :
    compile "void a; void a = 1 = b;" = .ok ⟨clashingUnit, []⟩ ∧
      ((clashingUnit.check true).diagnostics.map fun d => (d.kind, d.location?)) =
        [(.typeMismatch, some ⟨1, 6⟩), (.typeMismatch, some ⟨1, 14⟩),
          (.undefinedSymbol, some ⟨1, 22⟩), (.notAssignable, some ⟨1, 18⟩),
          (.duplicateSymbol, some ⟨1, 14⟩), (.missingMain, none)] ∧
      ((clashingUnit.check true).diagnostics.map fun d => (d.kind, d.location?)).Nodup ∧
      (clashingUnit.check true).count .missingMain ≤ 1 := by
  have hscan : scan "void a; void a = 1 = b;" =
      ⟨[.ofWord .voidKw ⟨1, 1⟩, ⟨.identifier "a", ⟨1, 6⟩⟩, .ofMark .semicolon ⟨1, 7⟩,
        .ofWord .voidKw ⟨1, 9⟩, ⟨.identifier "a", ⟨1, 14⟩⟩, .ofMark .assign ⟨1, 16⟩,
        ⟨.intLiteral 1, ⟨1, 18⟩⟩, .ofMark .assign ⟨1, 20⟩, ⟨.identifier "b", ⟨1, 22⟩⟩,
        .ofMark .semicolon ⟨1, 23⟩], []⟩ := by decide +kernel
  have hcompile : compile "void a; void a = 1 = b;" = .ok ⟨clashingUnit, []⟩ := by
    rw [compile, hscan]
    cbv
  exact ⟨hcompile, by decide +kernel, check_reports_once hcompile true⟩

end CSubset
