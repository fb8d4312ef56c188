-- SUMMARY: An unknown name in a faultless unit is reported once for each place it is planted, and nothing else is reported.
import CSubset.Proofs.Faults.Absorption
import CSubset.Proofs.Faults.Freshness
import CSubset.Proofs.Grammar.Numbering
import CSubset.Proofs.Parse.Exactness

/-!
# Single faults

The checker is followed through a unit and through the unit with a fresh name planted in it.
The scopes of the two runs are the same throughout, since planting touches no declared name.
Where the first run finds nothing wrong, the second one reports the planted name and finds
nothing else wrong: what a declaration, a condition or a return asks of a type, it does not ask
of `invalid`.
-/

namespace CSubset

open ScopeTree
open Walk (everywhere)

variable {name : String} {p : Nat → Bool}

/-! ## Findings of two runs -/

/-- If the first run finds nothing wrong, the second one reports the name in the place of each
node that is replaced, and nothing else. -/
def Reports (name : String) (second first : Findings) (replaced : List Expr) : Prop :=
  first.diagnostics = [] → second.diagnostics = replaced.map (fault name)

theorem Reports.same (f : Findings) : Reports name f f [] := fun h => h

theorem Reports.append {f f' g g' : Findings} {ds es : List Expr} (hf : Reports name f' f ds)
    (hg : Reports name g' g es) : Reports name (f' ++ g') (f ++ g) (ds ++ es) := by
  intro h
  rw [Findings.diagnostics_append, List.append_eq_nil_iff] at h
  rw [Findings.diagnostics_append, hf h.1, hg h.2, List.map_append]

/-- Findings without expressions may stand in front. -/
theorem Reports.append_left {f f' g g' : Findings} {es : List Expr} (hf : Reports name f' f [])
    (hg : Reports name g' g es) : Reports name (f' ++ g') (f ++ g) es := hf.append hg

section Expressions

variable {names : Names}

theorem Expr.plant_reports (hname : names name = none) (e : Expr) :
    Reports name ((e.plant p name).check names).findings (e.check names).findings
      (e.replaced p) :=
  fun h => (e.plant_faulted hname h).diagnostics

/-- An expression of whose type something is asked that spoiled types do not miss. -/
theorem Expr.plant_reports_asked (hname : names name = none) (e : Expr)
    {asked asked' : List Diagnostic}
    (hasked : Spoiled ((e.plant p name).check names).type (e.check names).type →
      asked = [] → asked' = []) :
    Reports name (((e.plant p name).check names).findings ++ .ofDiagnostics asked')
      ((e.check names).findings ++ .ofDiagnostics asked) (e.replaced p) := by
  intro h
  rw [Findings.diagnostics_append, Findings.diagnostics_ofDiagnostics,
    List.append_eq_nil_iff] at h
  have he := e.plant_faulted (p := p) hname h.1
  rw [Findings.diagnostics_append, Findings.diagnostics_ofDiagnostics, he.diagnostics,
    hasked he.type h.2, List.append_nil]

theorem Expr.plant_reports_condition (hname : names name = none) (e : Expr) :
    Reports name ((e.plant p name).checkCondition names) (e.checkCondition names)
      (e.replaced p) := by
  apply e.plant_reports_asked hname
  intro ht
  exact ht.accepted rfl

theorem optional_reports {f : Expr → Findings} (e : Option Expr)
    (hf : ∀ e, Reports name (f (e.plant p name)) (f e) (e.replaced p)) :
    Reports name (optionalFindings f (e.map (Expr.plant p name))) (optionalFindings f e)
      (e.toList.flatMap (Expr.replaced p)) := by
  cases e with
  | none => exact .same _
  | some e =>
    rw [Option.toList_some, List.flatMap_singleton]
    exact hf e

end Expressions

/-! ## Declarations -/

theorem Variable.plant_reports {names : Names} (hname : names name = none) (v : Variable) :
    Reports name
      (({ v with initializer := v.initializer.map (Expr.plant p name) } : Variable).check names)
      (v.check names) ((Decl.var v).exprs.flatMap (Expr.replaced p)) := by
  obtain ⟨type, x, initializer, storage, l⟩ := v
  apply (Reports.same _).append_left
  cases initializer with
  | none => exact .same _
  | some e =>
    rw [Decl.exprs, Option.toList_some, List.flatMap_singleton]
    apply e.plant_reports_asked hname
    intro ht
    exact ht.accepted (f := fun t => t.assignableTo (.ofDeclared type)) rfl

/-- Two runs end with the same scopes, in which the name is not bound, and the second one
reports it in the place of each node that is replaced. -/
structure Follows (name : String) (second first : Checked) (replaced : List Expr) : Prop where
  scopes : second.scopes = first.scopes
  lacks : first.scopes.Lacks name
  reports : Reports name second.findings first.findings replaced

namespace Follows

variable {t : ScopeTree} {c c' : Checked} {ds es : List Expr}

theorem findings {f f' : Findings} (ht : t.Lacks name) (h : Reports name f' f es) :
    Follows name ⟨t, f'⟩ ⟨t, f⟩ es := ⟨rfl, ht, h⟩

theorem andThen {next next' : ScopeTree → Checked} (h : Follows name c' c ds)
    (hnext : c.scopes.Lacks name → Follows name (next' c.scopes) (next c.scopes) es) :
    Follows name (c'.andThen next') (c.andThen next) (ds ++ es) := by
  obtain ⟨hscopes, hlacks, hreports⟩ := hnext h.lacks
  refine ⟨?_, hlacks, ?_⟩
  · rw [Checked.andThen, h.scopes]
    exact hscopes
  · rw [Checked.andThen, h.scopes]
    exact h.reports.append hreports

theorem prepend {f f' : Findings} (h : Follows name c' c es) (hf : Reports name f' f ds) :
    Follows name (c'.prepend f') (c.prepend f) (ds ++ es) :=
  ⟨h.scopes, h.lacks, hf.append h.reports⟩

/-- A scope that is opened, filled with declarations and left behind. -/
theorem scope {body body' : ScopeTree → Checked} {before after : Findings}
    (hd : Follows name c' c ds)
    (hs : c.scopes.Lacks name → Follows name (body' c.scopes) (body c.scopes) es) :
    Follows name (((c'.andThen body').andThen fun t => ⟨t, after⟩).prepend before)
      (((c.andThen body).andThen fun t => ⟨t, after⟩).prepend before) (ds ++ es) := by
  have hleave : Follows name ((c'.andThen body').andThen fun t => ⟨t, after⟩)
      ((c.andThen body).andThen fun t => ⟨t, after⟩) (ds ++ es ++ []) :=
    (hd.andThen hs).andThen fun ht => findings ht (.same after)
  rw [List.append_nil] at hleave
  exact hleave.prepend (.same before)

theorem declare (ht : t.Lacks name) (n : Nat) {x : Symbol} (hx : x.name ≠ name) :
    Follows name (t.declare n x) (t.declare n x) [] := ⟨rfl, ht.declare n hx, .same _⟩

end Follows

variable {t : ScopeTree}

theorem Decl.plant_follows (n : Nat) {d : Decl} (ht : t.Lacks name) (hd : d.symbol.name ≠ name) :
    Follows name ((d.plant p name).check n t) (d.check n t)
      (d.exprs.flatMap (Expr.replaced p)) := by
  unfold Decl.check
  rw [d.plant_symbol, ← List.append_nil (List.flatMap _ _)]
  apply (Follows.declare ht n hd).prepend
  cases d with
  | function q => exact .same _
  | var v => exact v.plant_reports (ht.lookup n)

theorem Decl.plantAll_follows (n : Nat) {ds : List Decl} (ht : t.Lacks name)
    (hds : ∀ d ∈ ds, d.symbol.name ≠ name) :
    Follows name (Decl.checkAll n (ds.map (Decl.plant p name)) t) (Decl.checkAll n ds t)
      ((ds.flatMap Decl.exprs).flatMap (Expr.replaced p)) := by
  induction ds generalizing t with
  | nil => exact .findings ht (.same _)
  | cons d rest ih =>
    obtain ⟨hd, hrest⟩ := List.forall_mem_cons.mp hds
    rw [List.flatMap_cons, List.flatMap_append]
    apply (Decl.plant_follows n ht hd).andThen
    intro ht
    exact ih ht hrest

theorem Parameter.check_follows (n : Nat) {qs : List Parameter} (ht : t.Lacks name)
    (hqs : ∀ q ∈ qs, (Symbol.parameter q).name ≠ name) :
    Follows name (Parameter.checkAll n qs t) (Parameter.checkAll n qs t) [] := by
  induction qs generalizing t with
  | nil => exact .findings ht (.same _)
  | cons q rest ih =>
    obtain ⟨hq, hrest⟩ := List.forall_mem_cons.mp hqs
    have hhead := (Follows.declare ht n hq).prepend (.same (.ofDiagnostics
      (if q.type.isVoid then [(Mismatch.voidParameter q.name).report q.location] else [])))
    apply hhead.andThen
    intro ht
    exact ih ht hrest

/-! ## Statements -/

/-- A return that gives a value of the right type may also give one of no type. -/
theorem Prototype.returnFaults_spoiled (q : Prototype) {s s' : ValueType} (l : Location)
    (hs : Spoiled s' s) (h : q.returnFaults s l = []) : q.returnFaults s' l = [] := by
  unfold Prototype.returnFaults at h ⊢
  split
  · next hvoid =>
    rw [if_pos hvoid] at h
    cases h
  · next hvoid =>
    rw [if_neg hvoid] at h
    exact hs.accepted (f := fun s => s.assignableTo (.ofDeclared q.returnType)) rfl h

mutual

theorem Stmt.plant_follows {ctx : Context} : ∀ (s : Stmt) {t : ScopeTree}, t.Lacks name →
    Fresh name (Walk.stmt everywhere s) →
      Follows name ((s.plant p name).check ctx t) (s.check ctx t)
        (s.exprs.flatMap (Expr.replaced p))
  | .block body, _, ht, hs => by
    simp only [Walk.stmt, fresh_enter] at hs
    exact body.plant_follows ht hs.2
  | .ifThen condition body _, t, ht, hs => by
    simp only [Walk.stmt, fresh_enter, fresh_append] at hs
    exact (body.plant_follows ht hs.2.2).prepend
      (condition.plant_reports_condition (ht.lookup _))
  | .ifElse condition body alternative _, t, ht, hs => by
    simp only [Walk.stmt, fresh_enter, fresh_append] at hs
    rw [Stmt.exprs, List.flatMap_cons, List.flatMap_append]
    apply Follows.prepend
    · apply (body.plant_follows ht hs.2.2.1).andThen
      intro ht
      exact alternative.plant_follows ht hs.2.2.2
    · exact condition.plant_reports_condition (ht.lookup _)
  | .whileLoop condition body _, t, ht, hs => by
    simp only [Walk.stmt, fresh_enter, fresh_append] at hs
    have hbody : Follows name ((body.plant p name).check { ctx with inLoop := true } t) _ _ :=
      body.plant_follows ht hs.2.2
    exact hbody.prepend (condition.plant_reports_condition (ht.lookup _))
  | .forLoop first condition step body _, t, ht, hs => by
    simp only [Walk.stmt, fresh_enter, fresh_append] at hs
    have hbody : Follows name ((body.plant p name).check { ctx with inLoop := true } t) _ _ :=
      body.plant_follows ht hs.2.2
    have hname := ht.lookup ctx.scope
    have h₁ := optional_reports first fun e => e.plant_reports (p := p) hname
    have h₂ := optional_reports condition fun e =>
      e.plant_reports_condition (p := p) hname
    have h₃ := optional_reports step fun e => e.plant_reports (p := p) hname
    simp only [Stmt.exprs, List.flatMap_append, ← List.append_assoc]
    rw [List.append_assoc (List.flatMap _ first.toList)]
    exact hbody.prepend (h₁.append (h₂.append h₃))
  | .jump kind l, _, ht, _ => .findings ht (.same _)
  | .returnStmt value l, t, ht, _ => by
    apply Follows.findings ht
    apply optional_reports
    intro e
    apply e.plant_reports_asked (ht.lookup _)
    intro hspoiled h
    split
    · next hcheck =>
      rw [if_pos hcheck] at h
      exact ctx.function.returnFaults_spoiled l hspoiled h
    · rfl
  | .expr e _, t, ht, _ => by
    apply Follows.findings ht
    rw [Stmt.exprs, List.flatMap_singleton]
    exact e.plant_reports (ht.lookup _)

theorem Stmt.plantAll_follows {ctx : Context} : ∀ (ss : List Stmt) {t : ScopeTree},
    t.Lacks name → Fresh name (Walk.stmts everywhere ss) →
      Follows name (Stmt.checkAll ctx (Stmt.plantAll p name ss) t) (Stmt.checkAll ctx ss t)
        ((Stmt.exprsAll ss).flatMap (Expr.replaced p))
  | [], _, ht, _ => .findings ht (.same _)
  | s :: rest, _, ht, hss => by
    rw [Walk.stmts, fresh_append] at hss
    rw [Stmt.exprsAll, List.flatMap_append]
    apply (s.plant_follows ht hss.1).andThen
    intro ht
    exact Stmt.plantAll_follows rest ht hss.2

theorem Block.plant_follows {ctx : Context} : ∀ (b : Block) {t : ScopeTree}, t.Lacks name →
    Fresh name (Walk.block everywhere b) →
      Follows name ((b.plant p name).check ctx t) (b.check ctx t)
        (b.exprs.flatMap (Expr.replaced p))
  | .mk decls stmts _, t, ht, hb => by
    have hfresh := hb.block
    rw [Block.exprs, List.flatMap_append]
    apply (Decl.plantAll_follows t.size (ht.push ctx.scope) hfresh.1).scope
    intro ht
    exact Stmt.plantAll_follows stmts ht hfresh.2

end

/-! ## Units -/

theorem Prototype.plant_follows (returnTypes : Bool) (q : Prototype) {body : Block}
    (ht : t.Lacks name) (hqs : ∀ x ∈ q.parameters, (Symbol.parameter x).name ≠ name)
    (hbody : Fresh name (Walk.block everywhere body)) :
    Follows name (q.checkBody returnTypes (body.plant p name) t) (q.checkBody returnTypes body t)
      (body.exprs.flatMap (Expr.replaced p)) := by
  unfold Prototype.checkBody
  rw [body.plant_returnsValue]
  obtain ⟨decls, stmts, l⟩ := body
  have hfresh := hbody.block
  rw [Block.exprs, List.flatMap_append]
  have hparameters := Parameter.check_follows t.size (ht.push root) hqs
  have hdecls := hparameters.andThen fun ht =>
    Decl.plantAll_follows (p := p) t.size ht hfresh.1
  apply hdecls.scope
  intro ht
  exact Stmt.plantAll_follows stmts ht hfresh.2

theorem External.plant_follows (returnTypes : Bool) {d : External} (ht : t.Lacks name)
    (hd : Fresh name (Walk.external everywhere d)) :
    Follows name ((d.plant p name).check returnTypes t) (d.check returnTypes t)
      (d.exprs.flatMap (Expr.replaced p)) := by
  cases d with
  | decl d => exact Decl.plant_follows root ht hd.symbol
  | definition q body =>
    simp only [Walk.external, fresh_enter] at hd
    obtain ⟨hq, hqs, hbody⟩ := hd.2.function
    have hdeclare : Follows name (t.declare root (.function q true)) _ [] := .declare ht root hq
    apply hdeclare.andThen
    intro ht
    exact q.plant_follows returnTypes ht hqs hbody

theorem External.plantAll_follows (returnTypes : Bool) {ds : List External} (ht : t.Lacks name)
    (hds : ∀ d ∈ ds, Fresh name (Walk.external everywhere d)) :
    Follows name (External.checkAll returnTypes (ds.map (External.plant p name)) t)
      (External.checkAll returnTypes ds t)
      ((ds.flatMap External.exprs).flatMap (Expr.replaced p)) := by
  induction ds generalizing t with
  | nil => exact .findings ht (.same _)
  | cons d rest ih =>
    obtain ⟨hd, hrest⟩ := List.forall_mem_cons.mp hds
    rw [List.flatMap_cons, List.flatMap_append]
    apply (External.plant_follows returnTypes ht hd).andThen
    intro ht
    exact ih ht hrest

/-- Planting a fresh name in a faultless unit is reported once for each node that is replaced. -/
theorem CompilationUnit.plant_diagnostics (returnTypes : Bool) {u : CompilationUnit}
    (hclean : (u.check returnTypes).isClean = true)
    (hfresh : ∀ n ∈ (Node.unit u).walk fun _ => true, n.name? ≠ some name) :
    ((u.plant p name).check returnTypes).diagnostics = (u.replaced p).map (fault name) := by
  have hfresh : Fresh name (Walk.unit everywhere u) := hfresh
  simp only [Walk.unit, fresh_enter, fresh_flatMap] at hfresh
  have hfollows := External.plantAll_follows (p := p) returnTypes (lacks_initial name) hfresh.2
  have hreports : Reports name ((u.plant p name).check returnTypes).findings
      (u.check returnTypes).findings (u.replaced p ++ []) := by
    unfold CompilationUnit.check
    rw [u.plant_mainFaults]
    exact hfollows.reports.append (.same _)
  rw [List.append_nil] at hreports
  exact hreports (List.isEmpty_iff.mp hclean)

/-- In a parsed unit in which nothing is wrong, any one expression can be replaced by a fresh
name with its number and position: that name is then reported there, and nothing else is. -/
theorem check_plant_single {ts : List Token} {u : CompilationUnit}
    (h : CompilationUnit.ofTokens? ts = .ok u) (returnTypes : Bool)
    (hclean : (u.check returnTypes).isClean = true) {e : Expr}
    (he : .expr e ∈ (Node.unit u).walk fun _ => true)
    (hfresh : ∀ n ∈ (Node.unit u).walk fun _ => true, n.name? ≠ some name) :
    u.replaced (fun id => id = e.id) = [e] ∧
      ((u.plant (fun id => id = e.id) name).check returnTypes).diagnostics =
        [.undefinedSymbol name e.location] := by
  have hreplaced : u.replaced (fun id => id = e.id) = [e] := by
    obtain ⟨n, hn⟩ := (Parse.translationUnit_of_ofTokens? h).carries
    apply CompilationUnit.replaced_singleton
    · rw [hn.ids]
      exact List.nodup_range'
    · exact (Walk.mem_unit u e).mp he
  refine ⟨hreplaced, ?_⟩
  rw [CompilationUnit.plant_diagnostics returnTypes hclean hfresh, hreplaced]
  rfl

/-- The tokens of `int main() { return 1 + 2; }`. -/
def returnedSumTokens : List Token :=
  [.ofWord .intKw ⟨1, 1⟩, ⟨.identifier "main", ⟨1, 5⟩⟩, .ofMark .leftParen ⟨1, 9⟩,
    .ofMark .rightParen ⟨1, 10⟩, .ofMark .leftBrace ⟨1, 12⟩, .ofWord .returnKw ⟨1, 14⟩,
    ⟨.intLiteral 1, ⟨1, 21⟩⟩, .ofMark .plus ⟨1, 23⟩, ⟨.intLiteral 2, ⟨1, 25⟩⟩,
    .ofMark .semicolon ⟨1, 26⟩, .ofMark .rightBrace ⟨1, 28⟩]

/-- The unit that `int main() { return 1 + 2; }` is read as. -/
def returnedSumUnit : CompilationUnit :=
  ⟨[.definition ⟨⟨.int, false, 0, []⟩, "main", [], false, .none, ⟨1, 5⟩⟩
    (.mk [] [.returnStmt (some (.binary ⟨2, ⟨1, 23⟩⟩ (.arith .add)
      (.literal ⟨0, ⟨1, 21⟩⟩ (.int 1)) (.literal ⟨1, ⟨1, 25⟩⟩ (.int 2)))) ⟨1, 14⟩] ⟨1, 12⟩)]⟩

theorem returnedSum_parses : CompilationUnit.ofTokens? returnedSumTokens = .ok returnedSumUnit := by
  have hadd : BinaryOp.arith .add ∈ Grammar.stratum 5 := by decide
  have hone : Grammar.Binary 7 0 [⟨.intLiteral 1, ⟨1, 21⟩⟩]
      (.literal ⟨0, ⟨1, 21⟩⟩ (.int 1)) 1 := .operand (.operand (.primary .int))
  have htwo : Grammar.Binary 7 1 [⟨.intLiteral 2, ⟨1, 25⟩⟩]
      (.literal ⟨1, ⟨1, 25⟩⟩ (.int 2)) 2 := .operand (.operand (.primary .int))
  have hsum := Grammar.Binary.operator (l := ⟨1, 23⟩) hadd (hone.mono (by decide))
    (htwo.mono (by decide))
  have hheading : Grammar.FunHeading [.ofWord .intKw ⟨1, 1⟩, ⟨.identifier "main", ⟨1, 5⟩⟩,
      .ofMark .leftParen ⟨1, 9⟩, .ofMark .rightParen ⟨1, 10⟩]
      ⟨⟨.int, false, 0, []⟩, "main", [], false, .none, ⟨1, 5⟩⟩ :=
    .mk .none (@Grammar.TypeSpecifier.plain .int _) .nil .nothing
  have hbody : Grammar.Compound 0 (returnedSumTokens.drop 4) _ 3 :=
    .mk .nil (.cons (.returnStmt (.some (.operand (hsum.mono (by decide))))) .nil)
  exact Parse.ofTokens?_of_translationUnit
    ⟨3, .cons (Grammar.FileDecl.definition hheading (by decide) hbody) .nil⟩

theorem check_plant_single_returnedSum :
    CompilationUnit.ofTokens? returnedSumTokens = .ok returnedSumUnit ∧
      (returnedSumUnit.check true).isClean = true ∧
      ((returnedSumUnit.plant (fun id => id = 0) "missing").check true).diagnostics =
        [.undefinedSymbol "missing" ⟨1, 21⟩] := by
  have hclean : (returnedSumUnit.check true).isClean = true := by decide
  have he : .expr (.literal ⟨0, ⟨1, 21⟩⟩ (.int 1)) ∈
      (Node.unit returnedSumUnit).walk fun _ => true :=
    (Walk.mem_unit _ _).mpr List.mem_cons_self
  refine ⟨returnedSum_parses, hclean, ?_⟩
  apply (check_plant_single returnedSum_parses true hclean he _).2
  decide

end CSubset
