-- SUMMARY: A jump is reported exactly if no loop of its function is around it.
import Mathlib.Tactic
import CSubset.Proofs.Check.Unit
import CSubset.Proofs.Parse.Exactness
import CSubset.Proofs.Syntax.Statements

/-!
# Reports of jumps

The checker carries along whether it is in a loop. At every statement this says whether a loop is
among the statements around it (`Stmt.check_jumps`), so what is reported of jumps can be read off
the list of placed statements: nothing that stands beside a statement or in another function has a
part in it.
-/

namespace CSubset

open PlacedStmt (isFree)

/-- The report of a jump outside of loops. -/
def Jump.report (kind : Jump) (l : Location) : Diagnostic := .invalidJump kind.keyword.text l

/-- The jumps among statements that no loop is around. -/
def strayJumps (xs : List PlacedStmt) : List (Jump × Location) :=
  (xs.filter (isFree Stmt.isLoop)).filterMap fun x => x.stmt.jump?

/-- What is reported of the jumps among statements. -/
def jumpReports (xs : List PlacedStmt) : List Diagnostic :=
  (strayJumps xs).map fun j => j.1.report j.2

theorem jumpReports_append (xs ys : List PlacedStmt) :
    jumpReports (xs ++ ys) = jumpReports xs ++ jumpReports ys := by
  rw [jumpReports, strayJumps, List.filter_append, List.filterMap_append, List.map_append]
  rfl

/-- Nothing is reported of a statement that is no jump. -/
theorem jumpReports_cons {x : PlacedStmt} (hx : x.stmt.jump? = none) (xs : List PlacedStmt) :
    jumpReports (x :: xs) = jumpReports xs := by
  have hself : jumpReports [x] = [] := by
    rw [jumpReports, strayJumps, List.filter_cons]
    split
    · rw [List.filterMap_cons_none (f := fun x : PlacedStmt => x.stmt.jump?) hx]
      rfl
    · rfl
  rw [← List.singleton_append, jumpReports_append, hself, List.nil_append]

theorem jumpReports_jump (p : Prototype) (around : List Stmt) (kind : Jump) (l : Location) :
    jumpReports [⟨p, around, .jump kind l⟩] =
      if around.any Stmt.isLoop then [] else [kind.report l] := by
  rw [jumpReports, strayJumps, List.filter_cons, isFree]
  cases around.any Stmt.isLoop <;> rfl

/-- Jumps are not reported for repeating a name. -/
theorem jump_not_repeated : Diagnostic.Kind.invalidJump ≠ .duplicateSymbol := by decide

mutual

theorem Stmt.check_jumps {ctx : Context} (p : Prototype) (around : List Stmt)
    (h : ctx.inLoop = around.any Stmt.isLoop) : ∀ (s : Stmt) (t : ScopeTree),
      (s.check ctx t).findings.reportsOf .invalidJump = jumpReports (s.placed p around)
  | .block body, t => by
    rw [Stmt.placed, jumpReports_cons rfl]
    exact body.check_jumps p (.block body :: around) h t
  | .ifThen condition body l, t => by
    have hbody := body.check_jumps p (.ifThen condition body l :: around) h t
    rw [Stmt.placed, jumpReports_cons rfl, Stmt.check, Checked.prepend,
      Findings.reportsOf_append, condition.checkCondition_reportsOf rfl, hbody]
    rfl
  | .ifElse condition body alternative l, t => by
    have hbody := body.check_jumps p (.ifElse condition body alternative l :: around) h t
    have halternative :=
      alternative.check_jumps p (.ifElse condition body alternative l :: around) h
    rw [Stmt.placed, jumpReports_cons rfl, jumpReports_append, Stmt.check, Checked.prepend,
      Checked.andThen, Findings.reportsOf_append, Findings.reportsOf_append,
      condition.checkCondition_reportsOf rfl, hbody, halternative]
    rfl
  | .whileLoop condition body l, t => by
    have hbody : (body.check { ctx with inLoop := true } t).findings.reportsOf .invalidJump = _ :=
      body.check_jumps p (.whileLoop condition body l :: around) rfl t
    rw [Stmt.placed, jumpReports_cons rfl, Stmt.check, Checked.prepend,
      Findings.reportsOf_append, condition.checkCondition_reportsOf rfl, hbody]
    rfl
  | .forLoop first condition step body l, t => by
    have hbody : (body.check { ctx with inLoop := true } t).findings.reportsOf .invalidJump = _ :=
      body.check_jumps p (.forLoop first condition step body l :: around) rfl t
    rw [Stmt.placed, jumpReports_cons rfl]
    simp only [Stmt.check, Checked.prepend, Findings.reportsOf_append]
    rw [optionalFindings_reportsOf first (Expr.check_reportsOf rfl _),
      optionalFindings_reportsOf condition (Expr.checkCondition_reportsOf rfl _),
      optionalFindings_reportsOf step (Expr.check_reportsOf rfl _), hbody]
    rfl
  | .jump kind l, t => by
    rw [Stmt.placed, jumpReports_jump, Stmt.check, Findings.reportsOf_ofDiagnostics, h]
    cases around.any Stmt.isLoop <;> rfl
  | .returnStmt value l, t => by
    rw [Stmt.placed, jumpReports_cons rfl]
    refine optionalFindings_reportsOf value fun e => ?_
    rw [Findings.reportsOf_append, e.check_reportsOf rfl, Findings.reportsOf_ofDiagnostics,
      List.nil_append]
    split
    · exact (ctx.function.returnFaults_ofRule _ _).filter_kind rfl
    · rfl
  | .expr e _, t => by
    rw [Stmt.placed, jumpReports_cons rfl]
    exact e.check_reportsOf rfl _

theorem Stmt.checkAll_jumps {ctx : Context} (p : Prototype) (around : List Stmt)
    (h : ctx.inLoop = around.any Stmt.isLoop) : ∀ (ss : List Stmt) (t : ScopeTree),
      (Stmt.checkAll ctx ss t).findings.reportsOf .invalidJump =
        jumpReports (Stmt.placedAll p around ss)
  | [], _ => rfl
  | s :: rest, t => by
    rw [Stmt.checkAll, Checked.andThen, Findings.reportsOf_append, s.check_jumps p around h,
      Stmt.checkAll_jumps p around h rest, Stmt.placedAll, jumpReports_append]

theorem Block.check_jumps {ctx : Context} (p : Prototype) (around : List Stmt)
    (h : ctx.inLoop = around.any Stmt.isLoop) : ∀ (b : Block) (t : ScopeTree),
      (b.check ctx t).findings.reportsOf .invalidJump = jumpReports (b.placed p around)
  | .mk decls stmts _, t => by
    have hdecls := Decl.checkAll_reportsOf rfl jump_not_repeated t.size decls (t.push ctx.scope)
    have hstmts (t' : ScopeTree) :
        (Stmt.checkAll { ctx with scope := t.size } stmts t').findings.reportsOf .invalidJump =
          jumpReports (Stmt.placedAll p around stmts) := by
      refine Stmt.checkAll_jumps p around ?_ stmts t'
      exact h
    simp only [Block.check, Checked.prepend, Checked.andThen, Findings.reportsOf_append, hdecls,
      hstmts]
    exact List.append_nil _

end

/-! ## Units -/

theorem Prototype.checkBody_jumps (returnTypes : Bool) (p : Prototype) (body : Block)
    (t : ScopeTree) :
    (p.checkBody returnTypes body t).findings.reportsOf .invalidJump =
      jumpReports (body.placed p []) := by
  cases body with
  | mk decls stmts l =>
    have hparameters := Parameter.checkAll_reportsOf rfl jump_not_repeated t.size p.parameters
      (t.push ScopeTree.root)
    have hdecls := Decl.checkAll_reportsOf rfl jump_not_repeated t.size decls
    have hstmts (t' : ScopeTree) : (Stmt.checkAll ⟨returnTypes, p, t.size, false⟩ stmts
        t').findings.reportsOf .invalidJump = jumpReports (Stmt.placedAll p [] stmts) :=
      Stmt.checkAll_jumps p [] rfl stmts t'
    simp only [Prototype.checkBody, Checked.prepend, Checked.andThen, Findings.reportsOf_append,
      hparameters, Block.decls, hdecls, Block.stmts, hstmts]
    split <;> exact List.append_nil _

theorem External.check_jumps (returnTypes : Bool) (d : External) (t : ScopeTree) :
    (d.check returnTypes t).findings.reportsOf .invalidJump = jumpReports d.placed := by
  cases d with
  | decl d => exact d.check_reportsOf rfl jump_not_repeated _ t
  | definition p body =>
    rw [check, Checked.andThen, Findings.reportsOf_append, t.declare_reportsOf jump_not_repeated,
      p.checkBody_jumps]
    rfl

theorem External.checkAll_jumps (returnTypes : Bool) (ds : List External) (t : ScopeTree) :
    (External.checkAll returnTypes ds t).findings.reportsOf .invalidJump =
      jumpReports (ds.flatMap External.placed) := by
  induction ds generalizing t with
  | nil => rfl
  | cons d rest ih =>
    rw [checkAll, Checked.andThen, Findings.reportsOf_append, d.check_jumps, ih,
      List.flatMap_cons, jumpReports_append]

/-- The jumps that are reported are those that no loop is around. -/
theorem CompilationUnit.check_jumps (u : CompilationUnit) (returnTypes : Bool) :
    (u.check returnTypes).findings.reportsOf .invalidJump = jumpReports u.placed := by
  have hmain : (Findings.ofDiagnostics u.mainFaults).reportsOf .invalidJump = [] := by
    unfold mainFaults
    dsimp only
    split <;> rfl
  rw [check, Findings.reportsOf_append, hmain, List.append_nil]
  exact External.checkAll_jumps returnTypes u.decls .initial

/-- The statements of a unit, each with its function and the statements around it, are those that a
walk meets, and those without a loop around them are the ones met by a walk that goes below no
loop. What is reported of jumps are the jumps among the latter, in source order and each with its
keyword and position; where tokens stand at different positions, nothing of the kind is reported
at a jump that a loop is around. -/
theorem check_reports_stray_jumps {ts : List Token} {u : CompilationUnit}
    (h : CompilationUnit.ofTokens? ts = .ok u) (returnTypes : Bool) :
    ((Node.unit u).walk fun _ => true).filterMap Node.stmt? = u.placed.map PlacedStmt.stmt ∧
      ((Node.unit u).walk fun n => !n.isLoop).filterMap Node.stmt? =
        (u.placed.filter fun x => !x.around.any Stmt.isLoop).map PlacedStmt.stmt ∧
      ((u.check returnTypes).diagnostics.filter fun d => d.kind = .invalidJump) =
        (((u.placed.filter fun x => !x.around.any Stmt.isLoop).filterMap fun x =>
          x.stmt.jump?).map fun j => .invalidJump j.1.keyword.text j.2) ∧
      ((ts.map Token.location).Nodup → ∀ x ∈ u.placed, ∀ kind l, x.stmt.jump? = some (kind, l) →
        x.around.any Stmt.isLoop = true → ∀ d ∈ (u.check returnTypes).diagnostics,
          d.kind = .invalidJump → d.location? ≠ some l) := by
  have hreports : ((u.check returnTypes).diagnostics.filter fun d => d.kind = .invalidJump) =
      jumpReports u.placed := u.check_jumps returnTypes
  refine ⟨u.placed_everywhere, u.placed_avoiding Stmt.isLoop, hreports, ?_⟩
  intro hts x hx kind l hjump hloop d hd hkind hlocation
  have hpositions : u.positions.Nodup :=
    (Parse.translationUnit_of_ofTokens? h).marks.nodup hts
  have hreport : d ∈ jumpReports u.placed := by
    rw [← hreports]
    exact List.mem_filter.mpr ⟨hd, decide_eq_true hkind⟩
  obtain ⟨⟨kind', l'⟩, hj, rfl⟩ := List.mem_map.mp hreport
  obtain ⟨y, hy, hyjump⟩ := List.mem_filterMap.mp hj
  obtain ⟨hy, hfree⟩ := List.mem_filter.mp hy
  obtain rfl : l' = l := Option.some.inj hlocation
  have hxl : x.stmt.keywordAt? = some l' := Stmt.keywordAt?_of_jump hjump
  have hyl : y.stmt.keywordAt? = some l' := Stmt.keywordAt?_of_jump hyjump
  obtain rfl := CompilationUnit.placed_eq_of_keywordAt hpositions hx hy hxl hyl
  rw [isFree, hloop] at hfree
  cases hfree

/-- The tokens of `void f() { while (1) { break; } break; }`. -/
def breakBehindLoopTokens : List Token :=
  [.ofWord .voidKw ⟨1, 1⟩, ⟨.identifier "f", ⟨1, 6⟩⟩, .ofMark .leftParen ⟨1, 7⟩,
    .ofMark .rightParen ⟨1, 8⟩, .ofMark .leftBrace ⟨1, 10⟩, .ofWord .whileKw ⟨1, 12⟩,
    .ofMark .leftParen ⟨1, 18⟩, ⟨.intLiteral 1, ⟨1, 19⟩⟩, .ofMark .rightParen ⟨1, 20⟩,
    .ofMark .leftBrace ⟨1, 22⟩, .ofWord .breakKw ⟨1, 24⟩, .ofMark .semicolon ⟨1, 29⟩,
    .ofMark .rightBrace ⟨1, 31⟩, .ofWord .breakKw ⟨1, 33⟩, .ofMark .semicolon ⟨1, 38⟩,
    .ofMark .rightBrace ⟨1, 40⟩]

/-- The loop of `void f() { while (1) { break; } break; }`. -/
def breakingLoop : Stmt :=
  .whileLoop (.literal ⟨0, ⟨1, 19⟩⟩ (.int 1)) (.mk [] [.jump .breakLoop ⟨1, 24⟩] ⟨1, 22⟩) ⟨1, 12⟩

/-- The unit that `void f() { while (1) { break; } break; }` is read as. -/
def breakBehindLoopUnit : CompilationUnit :=
  ⟨[.definition ⟨⟨.void, false, 0, []⟩, "f", [], false, .none, ⟨1, 6⟩⟩
    (.mk [] [breakingLoop, .jump .breakLoop ⟨1, 33⟩] ⟨1, 10⟩)]⟩

/-- The loop excuses the jump in it, and not the one behind it. -/
theorem check_reports_stray_jumps_behindLoop :
    CompilationUnit.ofTokens? breakBehindLoopTokens = .ok breakBehindLoopUnit ∧
      (breakBehindLoopTokens.map Token.location).Nodup ∧
      ((breakBehindLoopUnit.check true).diagnostics.filter fun d => d.kind = .invalidJump) =
        [.invalidJump "break" ⟨1, 33⟩] ∧
      ∀ d ∈ (breakBehindLoopUnit.check true).diagnostics, d.kind = .invalidJump →
        d.location? ≠ some ⟨1, 24⟩ := by
  have hparse : CompilationUnit.ofTokens? breakBehindLoopTokens = .ok breakBehindLoopUnit := by cbv
  have hnodup : (breakBehindLoopTokens.map Token.location).Nodup := by decide +kernel
  obtain ⟨-, -, hreports, hexcused⟩ := check_reports_stray_jumps hparse true
  refine ⟨hparse, hnodup, hreports.trans rfl, ?_⟩
  exact hexcused hnodup ⟨_, [breakingLoop], .jump .breakLoop ⟨1, 24⟩⟩ (.tail _ (.head _)) _ _ rfl
    rfl

end CSubset
