-- SUMMARY: The checker reports exactly the declarations that clash with earlier ones of their scope.
import Mathlib.Tactic
import CSubset.Proofs.Scoping.Declarations
import CSubset.Proofs.Scoping.Resolution

/-!
# Reports of repeated declarations

The walk of the checker is followed once more, now for what it says of declared names. In a scope
that shows the declarations passed so far, one more is reported against their binding and against
nothing else (`ScopeTree.declare_redeclarations`), and expressions, conditions and returns say
nothing of the kind. So a block reports its own declarations and then those of the blocks inside
it. At file level the bodies stand between the declarations, hence the permutation in
`CompilationUnit.check_redeclarations`.
-/

namespace CSubset

open ScopeTree Nest

/-! ## Reports of names -/

/-- The reports of repeated names, in order. -/
def Findings.redeclarations (f : Findings) : List Diagnostic :=
  f.diagnostics.filter fun d => d.kind = .duplicateSymbol

@[simp] theorem Findings.redeclarations_append (f g : Findings) :
    (f ++ g).redeclarations = f.redeclarations ++ g.redeclarations := f.reportsOf_append _ g

@[simp] theorem Findings.redeclarations_ofDiagnostics (ds : List Diagnostic) :
    (ofDiagnostics ds).redeclarations = ds.filter fun d => d.kind = .duplicateSymbol :=
  reportsOf_ofDiagnostics _ ds

variable {t : ScopeTree} {n : Nat} {outer : List Passed} {passed : Passed}

theorem Expr.check_redeclarations (names : Names) (e : Expr) :
    (e.check names).findings.redeclarations = [] := e.check_reportsOf rfl names

theorem Expr.checkCondition_redeclarations (names : Names) (e : Expr) :
    (e.checkCondition names).redeclarations = [] := e.checkCondition_reportsOf rfl names

theorem optionalFindings_redeclarations {f : Expr → Findings} (e : Option Expr)
    (hf : ∀ e, (f e).redeclarations = []) : (optionalFindings f e).redeclarations = [] :=
  optionalFindings_reportsOf e hf

theorem Variable.check_redeclarations (names : Names) (v : Variable) :
    (v.check names).redeclarations = [] := v.check_reportsOf rfl names

/-! ## Declarations -/

/-- One more declaration of a scope is reported against what those passed bind its name to. -/
theorem ScopeTree.declare_redeclarations (h : Shows t n (passed :: outer)) (x : Symbol) :
    (t.declare n x).findings.redeclarations = (Declaration.mk passed x).reports := by
  have hfind : (t.scope n).find? x.name = binding passed x.name := h.binds x.name
  unfold declare add Scope.bind Declaration.reports
  rw [hfind]
  cases binding passed x.name with
  | none => rfl
  | some held =>
    dsimp only
    cases held.agrees x <;> cases held.isForward <;> cases x.isForward <;> rfl

theorem Decl.check_redeclarations (h : Shows t n (passed :: outer)) (d : Decl) :
    (d.check n t).findings.redeclarations = (Declaration.mk passed d.symbol).reports := by
  unfold check
  rw [Checked.prepend, Findings.redeclarations_append, declare_redeclarations h]
  cases d with
  | function p => rfl
  | var v => rw [v.check_redeclarations, List.nil_append]

theorem Decl.checkAll_redeclarations (h : Shows t n (passed :: outer)) (ds : List Decl) :
    (Decl.checkAll n ds t).findings.redeclarations =
      (Declaration.behind passed (ds.map Decl.symbol)).flatMap Declaration.reports := by
  induction ds generalizing passed t with
  | nil => rfl
  | cons d rest ih =>
    rw [checkAll, Checked.andThen, Findings.redeclarations_append, d.check_redeclarations h,
      ih (d.check_declares h).shown]
    rfl

theorem Parameter.check_redeclarations (h : Shows t n (passed :: outer)) (p : Parameter) :
    (p.check n t).findings.redeclarations = (Declaration.mk passed (.parameter p)).reports := by
  rw [check, Checked.prepend, Findings.redeclarations_append, declare_redeclarations h]
  split <;> rfl

theorem Parameter.checkAll_redeclarations (h : Shows t n (passed :: outer))
    (ps : List Parameter) :
    (Parameter.checkAll n ps t).findings.redeclarations =
      (Declaration.behind passed (ps.map Symbol.parameter)).flatMap Declaration.reports := by
  induction ps generalizing passed t with
  | nil => rfl
  | cons p rest ih =>
    rw [checkAll, Checked.andThen, Findings.redeclarations_append, p.check_redeclarations h,
      ih (p.check_declares h).shown]
    rfl

/-! ## Statements -/

namespace Nest

/-- What is reported of the declarations of all scopes of some blocks. -/
def reports (bs : List Nest) : List Diagnostic := (declarations bs).flatMap Declaration.reports

theorem reports_append (bs cs : List Nest) :
    reports (bs ++ cs) = reports bs ++ reports cs := by
  rw [reports, declarations_append, List.flatMap_append]
  rfl

theorem reports_mk (node : Node) (declared : Passed) (inner : List Nest) :
    reports [mk node declared inner] =
      (Declaration.behind [] declared).flatMap Declaration.reports ++ reports inner := by
  rw [reports, declarations_mk, List.flatMap_append]
  rfl

end Nest

mutual

theorem Stmt.check_redeclarations {ctx : Context} {blocks : List Passed} :
    ∀ (s : Stmt) {t : ScopeTree}, Shows t ctx.scope blocks →
      (s.check ctx t).findings.redeclarations = reports s.nests
  | .block body, _, h => body.check_redeclarations h
  | .ifThen condition body _, _, h => by
    rw [Stmt.check, Checked.prepend, Findings.redeclarations_append,
      condition.checkCondition_redeclarations, body.check_redeclarations h]
    rfl
  | .ifElse condition body alternative _, _, h => by
    have halternative := alternative.check_redeclarations
      (h.keep (body.check_walks h).keeps h.lt)
    have hnests : reports [body.nest, alternative.nest] =
        reports [body.nest] ++ reports [alternative.nest] := reports_append [body.nest] _
    rw [Stmt.check, Checked.prepend, Checked.andThen, Findings.redeclarations_append,
      Findings.redeclarations_append, condition.checkCondition_redeclarations,
      body.check_redeclarations h, halternative, Stmt.nests, hnests, List.nil_append]
  | .whileLoop condition body _, t, h => by
    have hbody : (body.check { ctx with inLoop := true } t).findings.redeclarations = _ :=
      body.check_redeclarations h
    rw [Stmt.check, Checked.prepend, Findings.redeclarations_append,
      condition.checkCondition_redeclarations, hbody]
    rfl
  | .forLoop first condition step body _, t, h => by
    have hbody : (body.check { ctx with inLoop := true } t).findings.redeclarations = _ :=
      body.check_redeclarations h
    simp only [Stmt.check, Checked.prepend, Findings.redeclarations_append]
    rw [optionalFindings_redeclarations first (Expr.check_redeclarations _),
      optionalFindings_redeclarations condition (Expr.checkCondition_redeclarations _),
      optionalFindings_redeclarations step (Expr.check_redeclarations _), hbody]
    rfl
  | .jump kind l, _, _ => by
    rw [Stmt.check, Findings.redeclarations_ofDiagnostics]
    split <;> rfl
  | .returnStmt value l, t, _ => by
    refine optionalFindings_redeclarations value fun e => ?_
    rw [Findings.redeclarations_append, e.check_redeclarations,
      Findings.redeclarations_ofDiagnostics, List.nil_append]
    split
    · exact (ctx.function.returnFaults_ofRule _ _).filter_kind rfl
    · rfl
  | .expr e _, t, _ => e.check_redeclarations _

theorem Stmt.checkAll_redeclarations {ctx : Context} {blocks : List Passed} :
    ∀ (ss : List Stmt) {t : ScopeTree}, Shows t ctx.scope blocks →
      (Stmt.checkAll ctx ss t).findings.redeclarations = reports (Stmt.nestsAll ss)
  | [], _, _ => rfl
  | s :: rest, _, h => by
    have hrest := Stmt.checkAll_redeclarations rest (h.keep (s.check_walks h).keeps h.lt)
    rw [Stmt.checkAll, Checked.andThen, Findings.redeclarations_append,
      s.check_redeclarations h, hrest, Stmt.nestsAll, reports_append]

theorem Block.check_redeclarations {ctx : Context} {blocks : List Passed} :
    ∀ (b : Block) {t : ScopeTree}, Shows t ctx.scope blocks →
      (b.check ctx t).findings.redeclarations = reports [b.nest]
  | .mk decls stmts _, t, h => by
    have hd := Decl.checkAll_redeclarations h.push decls
    have hs : (Stmt.checkAll { ctx with scope := t.size } stmts _).findings.redeclarations = _ :=
      Stmt.checkAll_redeclarations stmts (Decl.checkAll_declares h.push decls).shown
    rw [Block.nest, reports_mk, ← hd, ← hs]
    simp only [Block.check, Checked.prepend, Checked.andThen, Findings.redeclarations_append]
    exact List.append_nil _

end

/-! ## Units -/

theorem Prototype.checkBody_redeclarations {file : Passed} (returnTypes : Bool) (p : Prototype)
    (body : Block) (h : Shows t root [file]) :
    (p.checkBody returnTypes body t).findings.redeclarations = reports [p.bodyNest body] := by
  have hp := Parameter.checkAll_redeclarations h.push p.parameters
  have hshown := (Parameter.checkAll_declares h.push p.parameters).shown
  have hd := Decl.checkAll_redeclarations hshown body.decls
  have hs : (Stmt.checkAll ⟨returnTypes, p, t.size, false⟩ body.stmts _).findings.redeclarations =
      _ := Stmt.checkAll_redeclarations body.stmts (Decl.checkAll_declares hshown body.decls).shown
  rw [bodyNest, reports_mk, Declaration.behind_append, List.flatMap_append, ← hp, ← hd, ← hs]
  simp only [checkBody, Checked.prepend, Checked.andThen, Findings.redeclarations_append]
  split <;> exact List.append_nil _

/-- A declaration at file level is reported before those inside it. -/
theorem External.check_redeclarations (returnTypes : Bool) (h : Shows t root [passed])
    (d : External) :
    (d.check returnTypes t).findings.redeclarations =
      (Declaration.mk passed d.symbol).reports ++ reports d.nests := by
  cases d with
  | decl d => exact (d.check_redeclarations h).trans (List.append_nil _).symm
  | definition p body =>
    have hshown := (declares_declare h (.function p true)).shown
    rw [check, Checked.andThen, Findings.redeclarations_append, declare_redeclarations h,
      p.checkBody_redeclarations returnTypes body hshown]
    rfl

theorem External.checkAll_redeclarations (returnTypes : Bool) (h : Shows t root [passed])
    (ds : List External) :
    (External.checkAll returnTypes ds t).findings.redeclarations.Perm
      ((Declaration.behind passed (ds.map External.symbol)).flatMap Declaration.reports ++
        reports (ds.flatMap External.nests)) := by
  induction ds generalizing passed t with
  | nil => exact .refl _
  | cons d rest ih =>
    have hrest := ih (d.check_declares returnTypes h).shown
    rw [checkAll, Checked.andThen, Findings.redeclarations_append,
      d.check_redeclarations returnTypes h, List.map_cons, Declaration.behind, List.flatMap_cons,
      List.flatMap_cons, reports_append, List.append_assoc, List.append_assoc]
    -- what a body reports stands in front of what the next declarations do
    exact ((hrest.append_left _).trans (List.perm_append_comm_assoc _ _ _)).append_left _

/-- The reports of repeated names are those of the declarations of all scopes. -/
theorem CompilationUnit.check_redeclarations (u : CompilationUnit) (returnTypes : Bool) :
    (u.check returnTypes).findings.redeclarations.Perm (reports [u.nest]) := by
  have hmain : (Findings.ofDiagnostics u.mainFaults).redeclarations = [] := by
    unfold mainFaults
    dsimp only
    split <;> rfl
  rw [check, Findings.redeclarations_append, hmain, List.append_nil, nest, reports_mk]
  exact External.checkAll_redeclarations returnTypes shows_initial u.decls

namespace Report

/-- The reports of a repeated name at a position. -/
def redeclarationsAt (r : Report) (l : Location) : List Diagnostic :=
  r.findings.redeclarations.filter fun x => x.location? = some l

/-- What a report says of a declaration `d` behind the declarations `earlier` of its scope. It is
reported if its name has been declared there and is bound to a `b` that it clashes with, and then
once and with the position of `b`; and what the name is bound to stands before `d`. -/
structure Answers (r : Report) (earlier : Passed) (d : Symbol) : Prop where
  reported : r.redeclarationsAt d.location ≠ [] ↔
    (∃ x ∈ earlier, x.name = d.name) ∧ ∃ b, binding earlier d.name = some b ∧ b.Clashes d
  once : ∀ b, binding earlier d.name = some b → b.Clashes d →
    r.redeclarationsAt d.location = [.duplicateSymbol d.name b.location d.location]
  before : ∀ b, binding earlier d.name = some b →
    b ∈ earlier ∧ b.name = d.name ∧ b.location.Before d.location

end Report

variable {source : String} {c : Compilation}

/-- At the position of a declaration there are only the reports of it. -/
theorem redeclarationsAt_eq (h : compile source = .ok c) (returnTypes : Bool) {d : Declaration}
    (hd : d ∈ declarations [c.unit.nest]) :
    (c.unit.check returnTypes).redeclarationsAt d.symbol.location = d.reports := by
  have hpairwise := positions_pairwise_of_compile h
  have hnodup : (declaredAt [c.unit.nest]).Nodup :=
    c.unit.declaredAt_nodup (hpairwise.imp Location.Before.ne)
  have hperm := (c.unit.check_redeclarations returnTypes).filter
    fun x => x.location? = some d.symbol.location
  rw [reports, Declaration.filter_reports hnodup hd] at hperm
  rcases d.reports_le_one with hnone | ⟨x, hone⟩
  · rw [hnone] at hperm ⊢
    exact List.perm_nil.mp hperm
  · rw [hone] at hperm ⊢
    exact List.perm_singleton.mp hperm

theorem mem_declarations_iff {file : Nest} {d : Declaration} :
    d ∈ declarations [file] ↔
      ∃ s ∈ file.preorder, ∃ later, s.declared = d.earlier ++ d.symbol :: later := by
  rw [declarations, preorderAll_singleton, List.mem_flatMap]
  exact exists_congr fun s => and_congr_right fun _ => Declaration.mem_behind_iff

/-- In the scope of a block a declaration stands behind the earlier ones. -/
theorem earlier_before (h : compile source = .ok c) {s : Nest} (hs : s ∈ c.unit.nest.preorder)
    {earlier later : Passed} {d : Symbol} (hcut : s.declared = earlier ++ d :: later) :
    ∀ b ∈ earlier, b.location.Before d.location := by
  intro b hb
  have hordered := (positions_pairwise_of_compile h).sublist (c.unit.scope_sublist hs)
  rw [hcut, List.map_append, List.map_cons, List.pairwise_append] at hordered
  exact hordered.2.2 _ (List.mem_map_of_mem hb) _ List.mem_cons_self

/-- A declaration is answered by what its own scope has declared before it. -/
theorem check_answers (h : compile source = .ok c) (returnTypes : Bool) {s : Nest}
    (hs : s ∈ c.unit.nest.preorder) {earlier later : Passed} {d : Symbol}
    (hcut : s.declared = earlier ++ d :: later) :
    (c.unit.check returnTypes).Answers earlier d := by
  have hd : ⟨earlier, d⟩ ∈ declarations [c.unit.nest] :=
    mem_declarations_iff.mpr ⟨s, hs, later, hcut⟩
  have hreports := redeclarationsAt_eq h returnTypes hd
  refine ⟨?_, fun b hb hclash => ?_, fun b hb => ?_⟩
  · rw [hreports]
    constructor
    · intro hne
      obtain ⟨x, hx⟩ := List.exists_mem_of_ne_nil _ hne
      obtain ⟨b, hb, hclash, -⟩ := Declaration.mem_reports_iff.mp hx
      exact ⟨binding_isSome_iff.mp ⟨b, hb⟩, b, hb, hclash⟩
    · rintro ⟨-, b, hb, hclash⟩
      rw [Declaration.reports_of_clash hb hclash]
      exact List.cons_ne_nil _ _
  · rw [hreports, Declaration.reports_of_clash hb hclash]
  · obtain ⟨hmem, hname⟩ := mem_of_binding hb
    exact ⟨hmem, hname, earlier_before h hs hcut b hmem⟩

/-- The declarations of a compiled source stand at different positions. Each is answered by what
its own scope has declared before it, and apart from that no repeated name is reported. -/
theorem check_reports_redeclarations (h : compile source = .ok c) (returnTypes : Bool) :
    ((c.unit.nest.preorder.flatMap Nest.declared).map Symbol.location).Nodup ∧
      (∀ s ∈ c.unit.nest.preorder, ∀ earlier d later, s.declared = earlier ++ d :: later →
        (c.unit.check returnTypes).Answers earlier d) ∧
      ∀ x ∈ (c.unit.check returnTypes).diagnostics, x.kind = .duplicateSymbol →
        ∃ s ∈ c.unit.nest.preorder, ∃ earlier d later b, s.declared = earlier ++ d :: later ∧
          binding earlier d.name = some b ∧ b.Clashes d ∧
            x = .duplicateSymbol d.name b.location d.location := by
  refine ⟨?_, fun s hs earlier d later hcut => check_answers h returnTypes hs hcut,
    fun x hx hkind => ?_⟩
  · have hnodup := c.unit.declaredAt_nodup
      ((positions_pairwise_of_compile h).imp Location.Before.ne)
    rwa [declaredAt_eq, preorderAll_singleton, ← List.map_flatMap] at hnodup
  · have hmem : x ∈ (c.unit.check returnTypes).findings.redeclarations :=
      List.mem_filter.mpr ⟨hx, decide_eq_true hkind⟩
    obtain ⟨d, hd, hx⟩ :=
      List.mem_flatMap.mp ((c.unit.check_redeclarations returnTypes).mem_iff.mp hmem)
    obtain ⟨s, hs, later, hcut⟩ := mem_declarations_iff.mp hd
    obtain ⟨b, hb, hclash, rfl⟩ := Declaration.mem_reports_iff.mp hx
    exact ⟨s, hs, d.earlier, d.symbol, later, b, hcut, hb, hclash, rfl⟩

/-- The unit that `int f(int a); int f(int b) { char b; { int b; } }` is read as. -/
def repeatedUnit : CompilationUnit :=
  ⟨[.decl (.function ⟨⟨.int, false, 0, []⟩, "f", [⟨⟨.int, false, 0, []⟩, "a", ⟨1, 11⟩⟩], false,
      .none, ⟨1, 5⟩⟩),
    .definition ⟨⟨.int, false, 0, []⟩, "f", [⟨⟨.int, false, 0, []⟩, "b", ⟨1, 25⟩⟩], false, .none,
      ⟨1, 19⟩⟩
    (.mk [.var ⟨⟨.char, false, 0, []⟩, "b", none, .none, ⟨1, 35⟩⟩]
      [.block (.mk [.var ⟨⟨.int, false, 0, []⟩, "b", none, .none, ⟨1, 44⟩⟩] [] ⟨1, 38⟩)]
      ⟨1, 28⟩)]⟩

/-- A definition may follow a prototype and a block may declare a name anew, but a body may not
declare the name of a parameter. -/
theorem check_reports_redeclarations_parameter :
    compile "int f(int a); int f(int b) \x7b char b; \x7b int b; \x7d \x7d" =
        .ok ⟨repeatedUnit, []⟩ ∧
      (repeatedUnit.check true).redeclarationsAt ⟨1, 19⟩ = [] ∧
      (repeatedUnit.check true).redeclarationsAt ⟨1, 35⟩ =
        [.duplicateSymbol "b" ⟨1, 25⟩ ⟨1, 35⟩] ∧
      (repeatedUnit.check true).redeclarationsAt ⟨1, 44⟩ = [] := by
  have hscan : scan "int f(int a); int f(int b) \x7b char b; \x7b int b; \x7d \x7d" =
      ⟨[.ofWord .intKw ⟨1, 1⟩, ⟨.identifier "f", ⟨1, 5⟩⟩, .ofMark .leftParen ⟨1, 6⟩,
        .ofWord .intKw ⟨1, 7⟩, ⟨.identifier "a", ⟨1, 11⟩⟩, .ofMark .rightParen ⟨1, 12⟩,
        .ofMark .semicolon ⟨1, 13⟩, .ofWord .intKw ⟨1, 15⟩, ⟨.identifier "f", ⟨1, 19⟩⟩,
        .ofMark .leftParen ⟨1, 20⟩, .ofWord .intKw ⟨1, 21⟩, ⟨.identifier "b", ⟨1, 25⟩⟩,
        .ofMark .rightParen ⟨1, 26⟩, .ofMark .leftBrace ⟨1, 28⟩, .ofWord .charKw ⟨1, 30⟩,
        ⟨.identifier "b", ⟨1, 35⟩⟩, .ofMark .semicolon ⟨1, 36⟩, .ofMark .leftBrace ⟨1, 38⟩,
        .ofWord .intKw ⟨1, 40⟩, ⟨.identifier "b", ⟨1, 44⟩⟩, .ofMark .semicolon ⟨1, 45⟩,
        .ofMark .rightBrace ⟨1, 47⟩, .ofMark .rightBrace ⟨1, 49⟩], []⟩ := by decide +kernel
  have hcompile : compile "int f(int a); int f(int b) \x7b char b; \x7b int b; \x7d \x7d" =
      .ok ⟨repeatedUnit, []⟩ := by
    rw [compile, hscan]
    cbv
  obtain ⟨-, hall, -⟩ := check_reports_redeclarations hcompile true
  have hfile := hall repeatedUnit.nest List.mem_cons_self
    [.function ⟨⟨.int, false, 0, []⟩, "f", [⟨⟨.int, false, 0, []⟩, "a", ⟨1, 11⟩⟩], false, .none,
      ⟨1, 5⟩⟩ false] _ [] rfl
  have hbody := hall _ (List.mem_cons_of_mem _ List.mem_cons_self)
    [.parameter ⟨⟨.int, false, 0, []⟩, "b", ⟨1, 25⟩⟩] _ [] rfl
  have hblock := hall _ (List.mem_cons_of_mem _ (List.mem_cons_of_mem _ List.mem_cons_self))
    [] _ [] rfl
  refine ⟨hcompile, ?_, hbody.once _ rfl (.inl .parameterLeft), ?_⟩
  · by_contra hne
    obtain ⟨-, b, hb, hclash⟩ := hfile.reported.mp hne
    cases hb
    exact Symbol.clashes_iff.mp hclash ⟨rfl, .inl rfl⟩
  · by_contra hne
    obtain ⟨⟨x, hx, -⟩, -⟩ := hblock.reported.mp hne
    cases hx

end CSubset
