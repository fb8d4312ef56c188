-- SUMMARY: Statements of one block can change places without a trace in the report.
import CSubset.Proofs.Scoping.BlockNodes
import CSubset.Proofs.Scoping.Views
import CSubset.Proofs.Typing.Annotations

/-!
# Reordering statements

A statement leaves the scopes as they are that were there, so what is found about it does not
depend on the statements in front of it. If the statements of one block change places, what is
found about each of them is found in another place, in one piece, and nothing else changes but
the numbers of scopes. Only whether a function returns a value can depend on their order.
-/

namespace CSubset

open ScopeTree

/-! ## Units in which one block is reordered -/

/-- The second statement is the first one with the block `b'` in the place of `b`. -/
inductive Stmt.Swapped (b b' : Block) : Stmt → Stmt → Prop where
  | block : Stmt.Swapped b b' (.block b) (.block b')
  | ifThen (condition : Expr) (l : Location) :
      Stmt.Swapped b b' (.ifThen condition b l) (.ifThen condition b' l)
  | ifBody (condition : Expr) (alternative : Block) (l : Location) :
      Stmt.Swapped b b' (.ifElse condition b alternative l) (.ifElse condition b' alternative l)
  | ifAlternative (condition : Expr) (body : Block) (l : Location) :
      Stmt.Swapped b b' (.ifElse condition body b l) (.ifElse condition body b' l)
  | whileLoop (condition : Expr) (l : Location) :
      Stmt.Swapped b b' (.whileLoop condition b l) (.whileLoop condition b' l)
  | forLoop (first condition step : Option Expr) (l : Location) :
      Stmt.Swapped b b' (.forLoop first condition step b l) (.forLoop first condition step b' l)

section

variable (ss ss' : List Stmt)

/-- The second block is the first one, but for one block that is it or lies in it: the statements
of that one are `ss` in the first, and `ss'` in the second. -/
inductive Block.Reordered : Block → Block → Prop where
  | here (decls : List Decl) (l : Location) :
      Block.Reordered (.mk decls ss l) (.mk decls ss' l)
  | inside (decls : List Decl) (front back : List Stmt) (l : Location) {s s' : Stmt} {b b' : Block}
      (hs : Stmt.Swapped b b' s s') (h : Block.Reordered b b') :
      Block.Reordered (.mk decls (front ++ s :: back) l) (.mk decls (front ++ s' :: back) l)

/-- The second unit is the first one, but for one block: its statements are `ss` in the first, and
`ss'` in the second. -/
inductive CompilationUnit.Reordered : CompilationUnit → CompilationUnit → Prop where
  | definition (front back : List External) (p : Prototype) {b b' : Block}
      (h : Block.Reordered ss ss' b b') :
      CompilationUnit.Reordered ⟨front ++ .definition p b :: back⟩
        ⟨front ++ .definition p b' :: back⟩

end

theorem Stmt.exists_swapped {s : Stmt} {b : Block} (hb : b ∈ s.bodies) (b' : Block) :
    ∃ s', Stmt.Swapped b b' s s' := by
  cases s with
  | block body =>
    obtain rfl := List.mem_singleton.mp hb
    exact ⟨_, .block⟩
  | ifThen condition body l =>
    obtain rfl := List.mem_singleton.mp hb
    exact ⟨_, .ifThen condition l⟩
  | ifElse condition body alternative l =>
    obtain rfl | hb := List.mem_cons.mp hb
    · exact ⟨_, .ifBody condition alternative l⟩
    · obtain rfl := List.mem_singleton.mp hb
      exact ⟨_, .ifAlternative condition body l⟩
  | whileLoop condition body l =>
    obtain rfl := List.mem_singleton.mp hb
    exact ⟨_, .whileLoop condition l⟩
  | forLoop first condition step body l =>
    obtain rfl := List.mem_singleton.mp hb
    exact ⟨_, .forLoop first condition step l⟩
  | jump | returnStmt | expr => cases hb

theorem Block.exists_reordered (b : Block) {c : Block}
    (hc : .block c ∈ (Walk.block Walk.everywhere b).flatMap Walk.blockList) (ss' : List Stmt) :
    ∃ b', Block.Reordered c.stmts ss' b b' := by
  induction b using Block.bodies_induction with
  | step b ih =>
    obtain ⟨decls, stmts, l⟩ := b
    rw [Walk.ofBlocks_blockList.block _ rfl] at hc
    obtain hc | hc := List.mem_append.mp hc
    · cases List.mem_singleton.mp hc
      exact ⟨_, .here decls l⟩
    · obtain ⟨s, hs, hc⟩ := List.mem_flatMap.mp hc
      rw [Walk.ofBlocks_blockList.stmt s rfl] at hc
      obtain ⟨d, hd, hc⟩ := List.mem_flatMap.mp hc
      obtain ⟨d', hd'⟩ := ih s hs d hd hc
      obtain ⟨s', hs'⟩ := Stmt.exists_swapped hd d'
      obtain ⟨front, back, rfl⟩ := List.append_of_mem hs
      exact ⟨_, .inside decls front back l hs' hd'⟩

/-- Every block that a walk through a unit meets can be reordered. -/
theorem CompilationUnit.exists_reordered (u : CompilationUnit) {c : Block}
    (hc : .block c ∈ (Node.unit u).walk fun _ => true) (ss' : List Stmt) :
    ∃ u', u.Reordered c.stmts ss' u' := by
  have hwalk : (Node.unit u).walk (fun _ => true) =
      .unit u :: u.decls.flatMap (Walk.external Walk.everywhere) := rfl
  have hmem : .block c ∈
      (u.decls.flatMap (Walk.external Walk.everywhere)).flatMap Walk.blockList := by
    rw [← Walk.filter_isBlock]
    rw [hwalk] at hc
    exact List.mem_filter.mpr ⟨(List.mem_cons.mp hc).resolve_left (nomatch ·), rfl⟩
  obtain ⟨decls⟩ := u
  rw [List.flatMap_assoc] at hmem
  obtain ⟨d, hd, hc⟩ := List.mem_flatMap.mp hmem
  cases d with
  | decl d =>
    have hnone : (Walk.external Walk.everywhere (.decl d)).flatMap Walk.blockList = [] :=
      Walk.ofBlocks_blockList.decl_nil d
    rw [hnone] at hc
    cases hc
  | definition p body =>
    rw [Walk.ofBlocks_blockList.definition p body rfl rfl] at hc
    obtain ⟨body', hbody⟩ := body.exists_reordered hc ss'
    obtain ⟨front, back, rfl⟩ := List.append_of_mem hd
    exact ⟨_, .definition front back p hbody⟩

/-! ## Findings in another order -/

namespace Findings

variable {ss ss' : List Stmt} {f f' g g' : Findings}

/-- Apart from the numbers of scopes, `f` holds what is found about the statements `ss` between
other findings, and `f'` holds what is found about `ss'` between the same ones. -/
def Shuffled (ss ss' : List Stmt) (f f' : Findings) : Prop :=
  ∃ (ctx : Context) (t : ScopeTree) (first last : Findings),
    f.scopeless = first ++ (gather (fun s => (s.check ctx t).findings.scopeless) ss ++ last) ∧
      f'.scopeless = first ++ (gather (fun s => (s.check ctx t).findings.scopeless) ss' ++ last)

theorem Shuffled.gathered (ctx : Context) (t : ScopeTree)
    (hf : f.scopeless = gather (fun s => (s.check ctx t).findings.scopeless) ss)
    (hf' : f'.scopeless = gather (fun s => (s.check ctx t).findings.scopeless) ss') :
    Shuffled ss ss' f f' := by
  refine ⟨ctx, t, none, none, ?_, ?_⟩
  · rw [hf, none_append, append_none]
  · rw [hf', none_append, append_none]

theorem Shuffled.prepend (h : Shuffled ss ss' f f') (g : Findings) :
    Shuffled ss ss' (g ++ f) (g ++ f') := by
  obtain ⟨ctx, t, first, last, hf, hf'⟩ := h
  refine ⟨ctx, t, g.scopeless ++ first, last, ?_, ?_⟩
  · rw [scopeless_append, hf, append_assoc]
  · rw [scopeless_append, hf', append_assoc]

theorem Shuffled.append (h : Shuffled ss ss' f f') (hg : g'.scopeless = g.scopeless) :
    Shuffled ss ss' (f ++ g) (f' ++ g') := by
  obtain ⟨ctx, t, first, last, hf, hf'⟩ := h
  refine ⟨ctx, t, first, last ++ g.scopeless, ?_, ?_⟩
  · rw [scopeless_append, hf, append_assoc, append_assoc]
  · rw [scopeless_append, hf', hg, append_assoc, append_assoc]

end Findings

open Findings (Shuffled)

variable {ss ss' : List Stmt} {s s' : Stmt} {b b' : Block} {t : ScopeTree}

/-- A block is found to be shuffled if its statements are, whatever scope it stands in. -/
theorem Block.check_shuffled (hdecls : b'.decls = b.decls)
    (hstmts : ∀ (ctx : Context) (t : ScopeTree), ctx.scope < t.size →
      Shuffled ss ss' (Stmt.checkAll ctx b.stmts t).findings
        (Stmt.checkAll ctx b'.stmts t).findings)
    (ctx : Context) : Shuffled ss ss' (b.check ctx t).findings (b'.check ctx t).findings := by
  obtain ⟨decls, stmts, l⟩ := b
  obtain ⟨decls', stmts', l'⟩ := b'
  obtain rfl : decls' = decls := hdecls
  have hopen := lt_size_push t ctx.scope
  have hscope := (Decl.checkAll_grows decls' hopen).lt hopen
  have hinner := hstmts { ctx with scope := t.size } _ hscope
  exact ((hinner.prepend _).append rfl).prepend _

/-- A statement is found to be shuffled if one of its blocks is. -/
theorem Stmt.Swapped.check_shuffled (h : Stmt.Swapped b b' s s')
    (hb : ∀ (ctx : Context) (t : ScopeTree), ctx.scope < t.size →
      Shuffled ss ss' (b.check ctx t).findings (b'.check ctx t).findings)
    (ctx : Context) (hn : ctx.scope < t.size) :
    Shuffled ss ss' (s.check ctx t).findings (s'.check ctx t).findings := by
  cases h with
  | block => exact hb ctx t hn
  | ifThen condition l => exact (hb ctx t hn).prepend _
  | ifBody condition alternative l =>
    have hkeeps := (b.check_grows ctx hn).keeps
    have hkeeps' := (b'.check_grows ctx hn).keeps
    have hview : SameView t ctx.scope t ctx.scope := (SameScope.refl hn).toSameView
    have halternative := alternative.check_sameView ctx (hview.keep hkeeps hkeeps')
    exact ((hb ctx t hn).append halternative).prepend _
  | ifAlternative condition body l =>
    have hbody := (body.check_grows ctx hn).lt hn
    exact ((hb ctx _ hbody).prepend _).prepend _
  | whileLoop condition l => exact (hb { ctx with inLoop := true } t hn).prepend _
  | forLoop first condition step l => exact (hb { ctx with inLoop := true } t hn).prepend _

namespace Block.Reordered

theorem decls (h : Block.Reordered ss ss' b b') : b'.decls = b.decls := by
  cases h <;> rfl

/-- The statements of a block in which something is reordered are found to be shuffled. -/
theorem stmts_shuffled (h : Block.Reordered ss ss' b b') (ctx : Context) (t : ScopeTree)
    (hn : ctx.scope < t.size) :
    Shuffled ss ss' (Stmt.checkAll ctx b.stmts t).findings
      (Stmt.checkAll ctx b'.stmts t).findings := by
  induction h generalizing ctx t with
  | here decls l =>
    have hview : SameView t ctx.scope t ctx.scope := (SameScope.refl hn).toSameView
    exact .gathered ctx t (Stmt.checkAll_gather ctx ss hview) (Stmt.checkAll_gather ctx ss' hview)
  | @inside decls front back l s s' b b' hs h ih =>
    let t₁ := (Stmt.checkAll ctx front t).scopes
    have hfront : ctx.scope < t₁.size := (Stmt.checkAll_grows ctx front hn).lt hn
    have hblock (ctx : Context) (t : ScopeTree) (_ : ctx.scope < t.size) :
        Shuffled ss ss' (b.check ctx t).findings (b'.check ctx t).findings :=
      Block.check_shuffled h.decls ih ctx
    have hstmt := hs.check_shuffled hblock ctx hfront
    have hview : SameView t₁ ctx.scope t₁ ctx.scope := (SameScope.refl hfront).toSameView
    have hback := Stmt.checkAll_sameView ctx back
      (hview.keep (s.check_grows ctx hfront).keeps (s'.check_grows ctx hfront).keeps)
    rw [stmts, stmts, Stmt.checkAll_append, Stmt.checkAll_append]
    exact (hstmt.append hback).prepend _

end Block.Reordered

/-! ## Units -/

namespace Prototype

/-- A function up to the statements of its body. -/
def checkHeading (p : Prototype) (decls : List Decl) (t : ScopeTree) : Checked :=
  ((Parameter.checkAll t.size p.parameters (t.push root)).andThen
    (Decl.checkAll t.size decls)).prepend (.ofEvents [.enterScope t.size root])

theorem checkHeading_lt (p : Prototype) (decls : List Decl) (t : ScopeTree) :
    t.size < (p.checkHeading decls t).scopes.size := by
  have hparameters := Parameter.checkAll_grows p.parameters (lt_size_push t root)
  have hopen := hparameters.lt (lt_size_push t root)
  exact (Decl.checkAll_grows decls hopen).lt hopen

/-- A function is checked up to its statements, then these are, and at last whether it returns a
value. -/
theorem checkBody_scopeless (returnTypes : Bool) (p : Prototype) (body : Block) (t : ScopeTree) :
    let heading := p.checkHeading body.decls t
    (p.checkBody returnTypes body t).findings.scopeless =
      heading.findings.scopeless ++ ((Stmt.checkAll ⟨returnTypes, p, t.size, false⟩ body.stmts
        heading.scopes).findings.scopeless ++ .ofDiagnostics (p.missingReturn body)) := by
  intro heading
  have hmissing : ∀ returns : Bool,
      (Findings.ofEvents (.leaveFunction p.name :: if returns then [] else
        [.diagnostic (.missingReturn p.name p.location)])).scopeless =
      .ofDiagnostics (if returns then [] else [.missingReturn p.name p.location]) := by
    intro returns
    cases returns <;> rfl
  rw [checkBody, missingReturn, ← hmissing]
  simp only [heading, checkHeading, Checked.prepend_findings, Checked.prepend_scopes,
    Checked.andThen_findings, Checked.andThen_scopes, Findings.scopeless_append,
    Findings.append_assoc]

end Prototype

/-- What is found in a unit is shuffled between the same findings, but for reports that one function
does not return a value. -/
theorem CompilationUnit.Reordered.check_shuffled {u u' : CompilationUnit}
    (h : CompilationUnit.Reordered ss ss' u u') (returnTypes : Bool) :
    ∃ (f f' last : Findings) (missing missing' : List Diagnostic), Shuffled ss ss' f f' ∧
      (∀ d ∈ missing ++ missing', d.kind = .missingReturn) ∧
      (External.checkAll returnTypes u.decls .initial).findings.scopeless =
        f.scopeless ++ (.ofDiagnostics missing ++ last) ∧
      (External.checkAll returnTypes u'.decls .initial).findings.scopeless =
        f'.scopeless ++ (.ofDiagnostics missing' ++ last) := by
  obtain @⟨front, back, p, b, b', h⟩ := h
  let c := External.checkAll returnTypes front .initial
  let d := c.scopes.declare root (.function p true)
  let heading := p.checkHeading b.decls d.scopes
  let stmts (b : Block) :=
    (Stmt.checkAll ⟨returnTypes, p, d.scopes.size, false⟩ b.stmts heading.scopes).findings
  let rest (b : Block) :=
    (External.checkAll returnTypes back (p.checkBody returnTypes b d.scopes).scopes).findings
  have hstmts : Shuffled ss ss' (stmts b) (stmts b') :=
    h.stmts_shuffled _ _ (p.checkHeading_lt b.decls d.scopes)
  have hroot : root < d.scopes.size := by
    rw [size_declare]
    exact (External.checkAll_grows returnTypes front (t := .initial) Nat.one_pos).lt Nat.one_pos
  have hrest : (rest b').scopeless = (rest b).scopeless :=
    External.checkAll_sameScope returnTypes back ((SameScope.refl hroot).keep
      (p.checkBody_keeps returnTypes b) (p.checkBody_keeps returnTypes b'))
  have hwalk : ∀ e : Block, e.decls = b.decls →
      (External.checkAll returnTypes (front ++ .definition p e :: back)
        .initial).findings.scopeless =
      (c.findings ++ (d.findings ++ (heading.findings ++ stmts e))).scopeless ++
        (.ofDiagnostics (p.missingReturn e) ++ (rest e).scopeless) := by
    intro e he
    have hbody := p.checkBody_scopeless returnTypes e d.scopes
    rw [he] at hbody
    simp only [External.checkAll_append, External.checkAll, External.check,
      Checked.andThen_findings, Findings.scopeless_append]
    rw [hbody]
    simp only [Findings.append_assoc]
    rfl
  refine ⟨_, _, (rest b).scopeless, p.missingReturn b, p.missingReturn b',
    ((hstmts.prepend heading.findings).prepend d.findings).prepend c.findings, ?_, hwalk b rfl, ?_⟩
  · exact List.forall_mem_append.mpr
      ⟨p.kind_of_mem_missingReturn b, p.kind_of_mem_missingReturn b'⟩
  · rw [hwalk b' h.decls, hrest]

/-! ## Tables in another order -/

theorem lookup_eq_of_perm {β : Type} {xs ys : List (Nat × β)} (h : xs.Perm ys)
    (hnd : (xs.map Prod.fst).Nodup) (id : Nat) : ys.lookup id = xs.lookup id := by
  induction h with
  | nil => rfl
  | cons x _ ih =>
    rw [List.map_cons, List.nodup_cons] at hnd
    rw [List.lookup_cons, List.lookup_cons, ih hnd.2]
  | swap x y rest =>
    have hne : y.1 ≠ x.1 := by
      intro heq
      rw [List.map_cons, List.map_cons, heq] at hnd
      exact (List.nodup_cons.mp hnd).1 List.mem_cons_self
    rw [List.lookup_cons, List.lookup_cons, List.lookup_cons, List.lookup_cons]
    by_cases hx : id = x.1
    · have hy : (id == y.1) = false := beq_eq_false_iff_ne.mpr (hx ▸ hne.symm)
      rw [hy]
    · rw [beq_eq_false_iff_ne.mpr hx]
  | trans h _ ih ih' => rw [ih' ((h.map _).nodup hnd), ih hnd]

namespace Findings

variable {α : Type} (found : α → Findings)

theorem gather_diagnostics (xs : List α) :
    (gather found xs).diagnostics = xs.flatMap fun x => (found x).diagnostics := by
  induction xs with
  | nil => rfl
  | cons x rest ih => rw [gather, diagnostics_append, ih, List.flatMap_cons]

theorem gather_types (xs : List α) :
    (gather found xs).types = xs.flatMap fun x => (found x).types := by
  induction xs with
  | nil => rfl
  | cons x rest ih => rw [gather, types_append, ih, List.flatMap_cons]

theorem gather_symbols (xs : List α) :
    (gather found xs).symbols = xs.flatMap fun x => (found x).symbols := by
  induction xs with
  | nil => rfl
  | cons x rest ih => rw [gather, symbols_append, ih, List.flatMap_cons]

/-- The diagnostics and the tables of findings that were put together from pieces. -/
theorem of_pieces {f first next last : Findings} {missing : List Diagnostic} {xs : List α}
    (h : f.scopeless = first ++ (gather (fun x => (found x).scopeless) xs ++
      (next ++ (.ofDiagnostics missing ++ last)))) :
    f.diagnostics = first.diagnostics ++ (xs.flatMap (fun x => (found x).diagnostics) ++
        (next.diagnostics ++ (missing ++ last.diagnostics))) ∧
      f.types = first.types ++ (xs.flatMap (fun x => (found x).types) ++
        (next.types ++ last.types)) ∧
      f.symbols = first.symbols ++ (xs.flatMap (fun x => (found x).symbols) ++
        (next.symbols ++ last.symbols)) := by
  refine ⟨?_, ?_, ?_⟩
  · rw [← diagnostics_scopeless, h]
    simp [gather_diagnostics]
  · rw [← types_scopeless, h]
    simp [gather_types]
  · rw [← symbols_scopeless, h]
    simp [gather_symbols]

end Findings

/-! ## Reports of reordered units -/

/-- Diagnostics without those about missing returns. -/
def withoutMissingReturns (ds : List Diagnostic) : List Diagnostic :=
  ds.filter fun d => d.kind ≠ .missingReturn

theorem withoutMissingReturns_append (ds ds' : List Diagnostic) :
    withoutMissingReturns (ds ++ ds') = withoutMissingReturns ds ++ withoutMissingReturns ds' :=
  List.filter_append ds ds'

theorem withoutMissingReturns_eq_nil {ds : List Diagnostic}
    (h : ∀ d ∈ ds, d.kind = .missingReturn) : withoutMissingReturns ds = [] := by
  refine List.filter_eq_nil_iff.mpr fun d hd => ?_
  simpa using h d hd

/-- The two reports hold the same in some order: all diagnostics but those about missing returns,
and all that is recorded about nodes. -/
structure Report.Rearranged (x y : Report) : Prop where
  diagnostics : (withoutMissingReturns x.diagnostics).Perm (withoutMissingReturns y.diagnostics)
  types : x.findings.types.Perm y.findings.types
  symbols : x.findings.symbols.Perm y.findings.symbols

/-- Where nodes have different numbers, the order in which they are recorded cannot be seen. -/
theorem Report.Rearranged.lookup {u : CompilationUnit} {returnTypes : Bool} {y : Report}
    (h : (u.check returnTypes).Rearranged y)
    (hnd : ((u.exprs.flatMap Expr.nodes).map Expr.id).Nodup) (id : Nat) :
    y.typeOf? id = (u.check returnTypes).typeOf? id ∧
      y.symbolOf? id = (u.check returnTypes).symbolOf? id := by
  obtain ⟨os, hannotates, hnodes, -⟩ := u.check_covers returnTypes
  rw [← hnodes] at hnd
  have hkeys : ((u.check returnTypes).findings.types.map Prod.fst).Nodup := by
    rw [hannotates.types_keys]
    exact hnd
  rw [List.map_map] at hnd
  exact ⟨lookup_eq_of_perm h.types hkeys id,
    lookup_eq_of_perm h.symbols (hannotates.symbols_keys_nodup hnd) id⟩

namespace CompilationUnit.Reordered

variable {u u' : CompilationUnit}

theorem mainFaults (h : CompilationUnit.Reordered ss ss' u u') : u'.mainFaults = u.mainFaults := by
  obtain ⟨front, back, p, h⟩ := h
  have hmain : ∀ e : Block, ((front ++ .definition p e :: back).filter External.isMain).length =
      (front.filter External.isMain).length +
        ((if p.name = "main" then 1 else 0) + (back.filter External.isMain).length) := by
    intro e
    by_cases hp : p.name = "main"
    · simp [External.isMain, hp, Nat.add_comm]
    · simp [External.isMain, hp]
  unfold CompilationUnit.mainFaults
  rw [hmain, hmain]

/-- What is reported about a reordered unit, piece by piece. -/
theorem check_pieces (h : CompilationUnit.Reordered ss ss' u u') (returnTypes : Bool) :
    ∃ (ctx : Context) (t : ScopeTree) (first next last : Findings)
      (missing missing' : List Diagnostic),
      let found := fun s : Stmt => (s.check ctx t).findings.scopeless
      (∀ d ∈ missing ++ missing', d.kind = .missingReturn) ∧
      (u.check returnTypes).findings.scopeless = first ++ (Findings.gather found ss ++
        (next ++ (.ofDiagnostics missing ++ last))) ∧
      (u'.check returnTypes).findings.scopeless = first ++ (Findings.gather found ss' ++
        (next ++ (.ofDiagnostics missing' ++ last))) := by
  obtain ⟨f, f', last, missing, missing', hshuffled, hkind, hx, hy⟩ := h.check_shuffled returnTypes
  obtain ⟨ctx, t, first, next, hf, hf'⟩ := hshuffled
  let main := (Findings.ofDiagnostics u.mainFaults).scopeless
  refine ⟨ctx, t, first, next, last ++ main, missing, missing', hkind, ?_, ?_⟩
  · rw [CompilationUnit.check, Findings.scopeless_append, hx, hf]
    simp only [Findings.append_assoc, main]
  · rw [CompilationUnit.check, Findings.scopeless_append, hy, hf', h.mainFaults]
    simp only [Findings.append_assoc, main]

/-- What is found about reordered things stays between what is found about others. -/
theorem perm_between {α β : Type} {xs ys : List α} (h : xs.Perm ys) (found : α → List β)
    (first last : List β) :
    (first ++ (xs.flatMap found ++ last)).Perm (first ++ (ys.flatMap found ++ last)) :=
  ((h.flatMap_right found).append_right last).append_left first

/-- The diagnostics about each statement stay together, and the reports hold the same. -/
theorem check_rearranged (h : CompilationUnit.Reordered ss ss' u u') (hperm : ss.Perm ss')
    (returnTypes : Bool) :
    (∃ (ctx : Context) (t : ScopeTree) (first last last' : List Diagnostic),
      let found := fun s : Stmt => (s.check ctx t).findings.diagnostics
      (u.check returnTypes).diagnostics = first ++ (ss.flatMap found ++ last) ∧
        (u'.check returnTypes).diagnostics = first ++ (ss'.flatMap found ++ last') ∧
        withoutMissingReturns last' = withoutMissingReturns last) ∧
      (u.check returnTypes).Rearranged (u'.check returnTypes) := by
  obtain ⟨ctx, t, first, next, last, missing, missing', hkind, hx, hy⟩ := h.check_pieces returnTypes
  let found := fun s : Stmt => (s.check ctx t).findings
  obtain ⟨hxd, hxt, hxs⟩ := Findings.of_pieces found hx
  obtain ⟨hyd, hyt, hys⟩ := Findings.of_pieces found hy
  obtain ⟨hmissing, hmissing'⟩ := List.forall_mem_append.mp hkind
  have hlast : withoutMissingReturns (next.diagnostics ++ (missing' ++ last.diagnostics)) =
      withoutMissingReturns (next.diagnostics ++ (missing ++ last.diagnostics)) := by
    simp only [withoutMissingReturns_append, withoutMissingReturns_eq_nil hmissing,
      withoutMissingReturns_eq_nil hmissing']
  refine ⟨⟨ctx, t, _, _, _, hxd, hyd, hlast⟩, ⟨?_, ?_, ?_⟩⟩
  · have hsame := (perm_between hperm (fun s => (found s).diagnostics) first.diagnostics
      (next.diagnostics ++ (missing ++ last.diagnostics))).filter fun d => d.kind ≠ .missingReturn
    rw [Report.diagnostics, Report.diagnostics, hxd, hyd]
    refine hsame.trans (.of_eq (Eq.trans ?_ (withoutMissingReturns_append _ _).symm))
    rw [withoutMissingReturns_append (ss'.flatMap _), hlast, ← withoutMissingReturns_append,
      ← withoutMissingReturns_append]
    rfl
  · rw [hxt, hyt]
    exact perm_between hperm (fun s => (found s).types) _ _
  · rw [hxs, hys]
    exact perm_between hperm (fun s => (found s).symbols) _ _

end CompilationUnit.Reordered

/-- A statement leaves the scopes as they are that were there before it, and what is found about it
does not depend on the statements in front of it. -/
theorem Stmt.check_traceless (ctx : Context) {t : ScopeTree} (hn : ctx.scope < t.size)
    (before : List Stmt) (s : Stmt) :
    let u := (Stmt.checkAll ctx before t).scopes
    let c := s.check ctx u
    Keeps u.size u c.scopes ∧
      c.findings.scopeless = (s.check ctx t).findings.scopeless := by
  intro u c
  have hbefore : Grows ctx.scope [] _ t u := Stmt.checkAll_grows ctx before hn
  have hview : SameView t ctx.scope u ctx.scope :=
    (SameScope.refl hn).toSameView.keep (.refl t.size t) hbefore.keeps
  exact ⟨(s.check_grows ctx hview.right).keeps, s.check_sameView ctx hview⟩

/-- Statements leave no trace. Checking one changes no binding and no parent of a scope that was
there, so names seen from these scopes stand for what they stood for; and what is found about it
does not depend on the statements that were checked before it in the same list. Every block that a
walk through a unit meets can be reordered. If its statements change places, the diagnostics about
each of them stay together and in their order, and the reports hold the same in some order, but for
missing returns. Where nodes have different numbers, each has the type and the symbol that it
had. -/
theorem check_statements_traceless :
    (∀ (ctx : Context) (t : ScopeTree), ctx.scope < t.size → ∀ (before : List Stmt) (s : Stmt),
      let u := (Stmt.checkAll ctx before t).scopes
      let c := s.check ctx u
      Keeps u.size u c.scopes ∧ (∀ n < u.size, c.scopes.lookup n = u.lookup n) ∧
        c.findings.diagnostics = (s.check ctx t).findings.diagnostics ∧
        c.findings.types = (s.check ctx t).findings.types ∧
        c.findings.symbols = (s.check ctx t).findings.symbols) ∧
    (∀ (u : CompilationUnit) (b : Block), .block b ∈ ((Node.unit u).walk fun _ => true) →
      ∀ ss' : List Stmt, ∃ u', u.Reordered b.stmts ss' u') ∧
    ∀ (ss ss' : List Stmt) (u u' : CompilationUnit), ss.Perm ss' → u.Reordered ss ss' u' →
      ∀ returnTypes : Bool,
        let x := u.check returnTypes
        let y := u'.check returnTypes
        (∃ (ctx : Context) (t : ScopeTree) (first last last' : List Diagnostic),
          let found := fun s : Stmt => (s.check ctx t).findings.diagnostics
          x.diagnostics = first ++ (ss.flatMap found ++ last) ∧
            y.diagnostics = first ++ (ss'.flatMap found ++ last') ∧
            withoutMissingReturns last' = withoutMissingReturns last) ∧
        x.Rearranged y ∧
        (((((Node.unit u).walk fun _ => true).filterMap Node.expr?).map Expr.id).Nodup →
          ∀ id, y.typeOf? id = x.typeOf? id ∧ y.symbolOf? id = x.symbolOf? id) := by
  refine ⟨?_, fun u b hb => u.exists_reordered hb, ?_⟩
  · intro ctx t hn before s u c
    obtain ⟨hkeeps, hfound⟩ := Stmt.check_traceless ctx hn before s
    exact ⟨hkeeps, fun n hlt => hkeeps.lookup hlt, Findings.of_scopeless hfound⟩
  · intro ss ss' u u' hperm h returnTypes x y
    obtain ⟨hpieces, hrearranged⟩ := h.check_rearranged hperm returnTypes
    refine ⟨hpieces, hrearranged, fun hnd => hrearranged.lookup ?_⟩
    exact ((Walk.found_unit_perm u).map Expr.id).nodup_iff.mp hnd

/-- The statements of `int main() { break; { int a; a; } return b; }`. -/
def brokenStmts : List Stmt :=
  [.jump .breakLoop ⟨1, 14⟩,
    .block (.mk [.var ⟨⟨.int, false, 0, []⟩, "a", none, .none, ⟨1, 27⟩⟩]
      [.expr (.ident ⟨0, ⟨1, 30⟩⟩ "a") ⟨1, 30⟩] ⟨1, 21⟩),
    .returnStmt (some (.ident ⟨1, ⟨1, 42⟩⟩ "b")) ⟨1, 35⟩]

/-- The function that `int main()` declares. -/
def intMain : Prototype := ⟨⟨.int, false, 0, []⟩, "main", [], false, .none, ⟨1, 5⟩⟩

/-- The unit that consists of `int main()` with the given statements. -/
def mainUnit (ss : List Stmt) : CompilationUnit := ⟨[.definition intMain (.mk [] ss ⟨1, 12⟩)]⟩

/-- With the return in front of the jump, the function does return a value. -/
theorem check_statements_traceless_reverse :
    let ctx : Context := ⟨true, intMain, root, false⟩
    ctx.scope < ScopeTree.initial.size ∧
      ((Stmt.jump .breakLoop ⟨1, 14⟩).check ctx
        (Stmt.checkAll ctx brokenStmts.reverse .initial).scopes).findings.diagnostics =
        [.invalidJump "break" ⟨1, 14⟩] ∧
      brokenStmts.Perm brokenStmts.reverse ∧
      (mainUnit brokenStmts).Reordered brokenStmts brokenStmts.reverse
        (mainUnit brokenStmts.reverse) ∧
      ((mainUnit brokenStmts).check true).Rearranged
        ((mainUnit brokenStmts.reverse).check true) ∧
      ((mainUnit brokenStmts).check true).diagnostics =
        [.invalidJump "break" ⟨1, 14⟩, .undefinedSymbol "b" ⟨1, 42⟩,
          .missingReturn "main" ⟨1, 5⟩] ∧
      ((mainUnit brokenStmts.reverse).check true).diagnostics =
        [.undefinedSymbol "b" ⟨1, 42⟩, .invalidJump "break" ⟨1, 14⟩] ∧
      ((mainUnit brokenStmts.reverse).check true).symbolOf? 0 =
        some (.var "a" ⟨.int, false, 0, []⟩ false ⟨1, 27⟩) := by
  intro ctx
  have hscope : ctx.scope < ScopeTree.initial.size := by decide
  have hperm : brokenStmts.Perm brokenStmts.reverse := (List.reverse_perm _).symm
  have hreordered : (mainUnit brokenStmts).Reordered brokenStmts brokenStmts.reverse
      (mainUnit brokenStmts.reverse) := .definition [] [] _ (.here [] _)
  obtain ⟨htraceless, -, hreorder⟩ := check_statements_traceless
  obtain ⟨-, hrearranged, -⟩ := hreorder _ _ _ _ hperm hreordered true
  exact ⟨hscope, (htraceless ctx .initial hscope brokenStmts.reverse _).2.2.1, hperm, hreordered,
    hrearranged, by decide +kernel, by decide +kernel, by decide +kernel⟩

end CSubset
