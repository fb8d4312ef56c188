-- SUMMARY: Checking a piece of a unit depends on what its scope shows, and not on which other scopes there are.
import CSubset.Proofs.Check.Unit
import CSubset.Proofs.Scoping.Growth

/-!
# Views

The checker is handed all scopes there are, but of these it only looks at the one it works in and
at those around it. `SameView` says that two trees show the same from two scopes, whatever their
numbers are, and `SameScope` that the two scopes themselves bind the same. A piece of a unit that
is checked in either is found to be the same, but for the numbers of the scopes it opens; these are
left out by `Findings.scopeless`. Statements open scopes and declare nothing in the one they stand
in, so each of them is checked with the view that the first one has (`Stmt.checkAll_gather`).
-/

namespace CSubset

/-! ## Looking names up -/

namespace ScopeTree

variable {t t' u u' : ScopeTree} {k n n' : Nat}

/-- What is seen from a scope that is kept stays what it was. -/
theorem Keeps.lookup (h : Keeps k t t') (hn : n < k) : t'.lookup n = t.lookup n := by
  funext name
  induction n using Nat.strongRecOn with
  | ind n ih =>
    rw [ScopeTree.lookup, ScopeTree.lookup, Scope.find?, Scope.find?, h.symbols n hn,
      h.parent n hn]
    cases (t.scope n).symbols.find? fun x => x.name = name with
    | some x => rfl
    | none =>
      cases (t.scope n).parent with
      | none => rfl
      | some p =>
        dsimp only
        split
        · next hp => exact ih p hp (Nat.lt_trans hp hn)
        · rfl

/-- A new scope shows what the scope shows that it is opened in. -/
theorem lookup_push (hn : n < t.size) : (t.push n).lookup t.size = t.lookup n := by
  funext name
  rw [ScopeTree.lookup, scope_push_size]
  simp only [Scope.empty, Scope.find?, List.find?_nil, if_pos hn]
  exact congrFun ((keeps_push t n).lookup hn) name

/-- A declaration is seen from its scope, and hides nothing but its own name. -/
theorem lookup_declare (hn : n < t.size) (x : Symbol) (name : String) :
    (t.declare n x).scopes.lookup n name =
      if x.name = name then some (settle ((t.scope n).find? name) x) else t.lookup n name := by
  have hkeeps := keeps_declare t x hn
  rw [ScopeTree.lookup, scope_declare t x hn, if_pos rfl, Scope.bound_find?, Scope.bound_parent]
  by_cases hname : x.name = name
  · rw [if_pos hname, if_pos hname]
  · rw [if_neg hname, if_neg hname, ScopeTree.lookup]
    cases (t.scope n).find? name with
    | some y => rfl
    | none =>
      cases (t.scope n).parent with
      | none => rfl
      | some p =>
        dsimp only
        split
        · next hp => exact congrFun (hkeeps.lookup hp) name
        · rfl

/-! ## Scopes that show the same -/

/-- Names seen from scope `n` of `t` stand for what they stand for from scope `n'` of `t'`. -/
structure SameView (t : ScopeTree) (n : Nat) (t' : ScopeTree) (n' : Nat) : Prop where
  left : n < t.size
  right : n' < t'.size
  lookup : t'.lookup n' = t.lookup n

/-- The two scopes bind the same themselves, too. -/
structure SameScope (t : ScopeTree) (n : Nat) (t' : ScopeTree) (n' : Nat) : Prop
    extends SameView t n t' n' where
  own : ∀ name, (t'.scope n').find? name = (t.scope n).find? name

theorem SameScope.refl (hn : n < t.size) : SameScope t n t n := ⟨⟨hn, hn, rfl⟩, fun _ => rfl⟩

/-- Views stay the same as long as the scopes that were there are kept. -/
theorem SameView.keep (h : SameView t n t' n') (hu : Keeps t.size t u)
    (hu' : Keeps t'.size t' u') : SameView u n u' n' := by
  refine ⟨Nat.lt_of_lt_of_le h.left hu.size, Nat.lt_of_lt_of_le h.right hu'.size, ?_⟩
  rw [hu.lookup h.left, hu'.lookup h.right, h.lookup]

theorem SameScope.keep (h : SameScope t n t' n') (hu : Keeps t.size t u)
    (hu' : Keeps t'.size t' u') : SameScope u n u' n' := by
  refine ⟨h.toSameView.keep hu hu', fun name => ?_⟩
  rw [Scope.find?, Scope.find?, hu.symbols n h.left, hu'.symbols n' h.right]
  exact h.own name

theorem SameView.push (h : SameView t n t' n') :
    SameScope (t.push n) t.size (t'.push n') t'.size := by
  refine ⟨⟨lt_size_push t n, lt_size_push t' n', ?_⟩, fun name => ?_⟩
  · rw [lookup_push h.left, lookup_push h.right, h.lookup]
  · rw [scope_push_size, scope_push_size]
    rfl

theorem SameScope.declare (h : SameScope t n t' n') (x : Symbol) :
    SameScope (t.declare n x).scopes n (t'.declare n' x).scopes n' := by
  refine ⟨⟨?_, ?_, ?_⟩, fun name => ?_⟩
  · rw [size_declare]
    exact h.left
  · rw [size_declare]
    exact h.right
  · funext name
    rw [lookup_declare h.left, lookup_declare h.right, h.own, h.lookup]
  · rw [scope_declare t x h.left, scope_declare t' x h.right, if_pos rfl, if_pos rfl,
      Scope.bound_find?, Scope.bound_find?, h.own]

/-- What a declaration is answered with depends on what its scope binds. -/
theorem SameScope.declare_findings (h : SameScope t n t' n') (x : Symbol) :
    (t'.declare n' x).findings = (t.declare n x).findings := by
  unfold ScopeTree.declare add Scope.bind
  rw [h.own]
  cases (t.scope n).find? x.name with
  | none => rfl
  | some held =>
    dsimp only
    repeat' split
    all_goals grind [Except.map]

end ScopeTree

open ScopeTree

/-! ## Findings without scopes -/

namespace Findings

/-- Findings without the events of scopes and functions. -/
def scopeless (f : Findings) : Findings := ⟨f.diagnostics.map .diagnostic, f.types, f.symbols⟩

@[simp] theorem scopeless_append (f g : Findings) :
    (f ++ g).scopeless = f.scopeless ++ g.scopeless := by
  rw [scopeless, diagnostics_append, List.map_append]
  rfl

@[simp] theorem scopeless_enterScope (n p : Nat) :
    (ofEvents [.enterScope n p]).scopeless = none := rfl

@[simp] theorem scopeless_leaveScope (n : Nat) : (ofEvents [.leaveScope n]).scopeless = none := rfl

@[simp] theorem diagnostics_scopeless (f : Findings) :
    f.scopeless.diagnostics = f.diagnostics := diagnostics_ofDiagnostics _

@[simp] theorem types_scopeless (f : Findings) : f.scopeless.types = f.types := rfl

@[simp] theorem symbols_scopeless (f : Findings) : f.scopeless.symbols = f.symbols := rfl

/-- Nothing but events of scopes and functions is left out. -/
theorem of_scopeless {f g : Findings} (h : f.scopeless = g.scopeless) :
    f.diagnostics = g.diagnostics ∧ f.types = g.types ∧ f.symbols = g.symbols := by
  refine ⟨?_, ?_, ?_⟩
  · rw [← diagnostics_scopeless, h, diagnostics_scopeless]
  · rw [← types_scopeless, h, types_scopeless]
  · rw [← symbols_scopeless, h, symbols_scopeless]

/-- The findings of some things, one behind the other. -/
def gather {α : Type} (found : α → Findings) : List α → Findings
  | [] => none
  | x :: rest => found x ++ gather found rest

end Findings

namespace Checked

@[simp] theorem andThen_findings (c : Checked) (next : ScopeTree → Checked) :
    (c.andThen next).findings = c.findings ++ (next c.scopes).findings := rfl

@[simp] theorem andThen_scopes (c : Checked) (next : ScopeTree → Checked) :
    (c.andThen next).scopes = (next c.scopes).scopes := rfl

@[simp] theorem prepend_findings (f : Findings) (c : Checked) :
    (c.prepend f).findings = f ++ c.findings := rfl

@[simp] theorem prepend_scopes (f : Findings) (c : Checked) :
    (c.prepend f).scopes = c.scopes := rfl

end Checked

/-! ## Declarations -/

variable {t t' : ScopeTree} {n n' : Nat}

theorem Decl.check_sameScope (d : Decl) (h : SameScope t n t' n') :
    (d.check n' t').findings = (d.check n t).findings ∧
      SameScope (d.check n t).scopes n (d.check n' t').scopes n' := by
  refine ⟨?_, h.declare d.symbol⟩
  unfold check
  rw [Checked.prepend_findings, Checked.prepend_findings, h.declare_findings, h.lookup]

theorem Decl.checkAll_sameScope (ds : List Decl) (h : SameScope t n t' n') :
    (checkAll n' ds t').findings = (checkAll n ds t).findings ∧
      SameScope (checkAll n ds t).scopes n (checkAll n' ds t').scopes n' := by
  induction ds generalizing t t' with
  | nil => exact ⟨rfl, h⟩
  | cons d rest ih =>
    obtain ⟨hd, hscope⟩ := d.check_sameScope h
    obtain ⟨hrest, hscope'⟩ := ih hscope
    exact ⟨congrArg₂ Findings.append hd hrest, hscope'⟩

theorem Parameter.checkAll_sameScope (ps : List Parameter) (h : SameScope t n t' n') :
    (checkAll n' ps t').findings = (checkAll n ps t).findings ∧
      SameScope (checkAll n ps t).scopes n (checkAll n' ps t').scopes n' := by
  induction ps generalizing t t' with
  | nil => exact ⟨rfl, h⟩
  | cons p rest ih =>
    obtain ⟨hrest, hscope⟩ := ih (h.declare (.parameter p))
    refine ⟨congrArg₂ Findings.append ?_ hrest, hscope⟩
    rw [check, check, Checked.prepend_findings, Checked.prepend_findings, h.declare_findings]

/-! ## Statements -/

mutual

theorem Stmt.check_sameView (ctx : Context) : ∀ (s : Stmt) {t t' : ScopeTree} {n' : Nat},
    SameView t ctx.scope t' n' →
      (s.check { ctx with scope := n' } t').findings.scopeless = (s.check ctx t).findings.scopeless
  | .block body, _, _, _, h => body.check_sameView ctx h
  | .ifThen condition body _, _, _, _, h => by
    rw [Stmt.check, Stmt.check]
    simp only [Checked.prepend_findings, Findings.scopeless_append, h.lookup,
      body.check_sameView ctx h]
  | .ifElse condition body alternative _, _, _, _, h => by
    have hbody := (body.check_grows ctx h.left).keeps
    have hbody' := (body.check_grows { ctx with scope := _ } h.right).keeps
    rw [Stmt.check, Stmt.check]
    simp only [Checked.prepend_findings, Checked.andThen_findings, Findings.scopeless_append,
      h.lookup, body.check_sameView ctx h, alternative.check_sameView ctx (h.keep hbody hbody')]
  | .whileLoop condition body _, _, _, _, h => by
    have hbody := body.check_sameView { ctx with inLoop := true } h
    rw [Stmt.check, Stmt.check]
    simp only [Checked.prepend_findings, Findings.scopeless_append, h.lookup, hbody]
  | .forLoop first condition step body _, _, _, _, h => by
    have hbody := body.check_sameView { ctx with inLoop := true } h
    rw [Stmt.check, Stmt.check]
    simp only [Checked.prepend_findings, Findings.scopeless_append, h.lookup, hbody]
  | .jump _ _, _, _, _, _ => rfl
  | .returnStmt value l, _, _, _, h => by
    rw [Stmt.check, Stmt.check]
    simp only [h.lookup]
  | .expr e _, _, _, _, h => by
    rw [Stmt.check, Stmt.check]
    simp only [h.lookup]

theorem Stmt.checkAll_sameView (ctx : Context) : ∀ (ss : List Stmt) {t t' : ScopeTree} {n' : Nat},
    SameView t ctx.scope t' n' →
      (Stmt.checkAll { ctx with scope := n' } ss t').findings.scopeless =
        (Stmt.checkAll ctx ss t).findings.scopeless
  | [], _, _, _, _ => rfl
  | s :: rest, _, _, _, h => by
    have hs := (s.check_grows ctx h.left).keeps
    have hs' := (s.check_grows { ctx with scope := _ } h.right).keeps
    rw [Stmt.checkAll, Stmt.checkAll]
    simp only [Checked.andThen_findings, Findings.scopeless_append, s.check_sameView ctx h,
      Stmt.checkAll_sameView ctx rest (h.keep hs hs')]

theorem Block.check_sameView (ctx : Context) : ∀ (b : Block) {t t' : ScopeTree} {n' : Nat},
    SameView t ctx.scope t' n' →
      (b.check { ctx with scope := n' } t').findings.scopeless = (b.check ctx t).findings.scopeless
  | .mk decls stmts _, t, t', n', h => by
    obtain ⟨hdecls, hscope⟩ := Decl.checkAll_sameScope decls h.push
    have hstmts := Stmt.checkAll_sameView { ctx with scope := t.size } stmts hscope.toSameView
    rw [Block.check, Block.check]
    simp only [Checked.prepend_findings, Checked.andThen_findings, Findings.scopeless_append,
      Findings.scopeless_enterScope, Findings.scopeless_leaveScope, hdecls, hstmts]

end

/-- Each statement of a list is found to be what it is found to be in front of all of them. -/
theorem Stmt.checkAll_gather (ctx : Context) (ss : List Stmt)
    (h : SameView t ctx.scope t' ctx.scope) :
    (Stmt.checkAll ctx ss t').findings.scopeless =
      Findings.gather (fun s => (s.check ctx t).findings.scopeless) ss := by
  induction ss generalizing t' with
  | nil => rfl
  | cons s rest ih =>
    have hs := (s.check_grows ctx h.right).keeps
    have hfound : (s.check ctx t').findings.scopeless = (s.check ctx t).findings.scopeless :=
      s.check_sameView ctx h
    rw [Stmt.checkAll, Checked.andThen_findings, Findings.scopeless_append, hfound,
      ih (h.keep (.refl t.size t) hs), Findings.gather]

/-! ## Declarations at file level -/

/-- A function leaves the scopes as they are that were there, and opens one in that of the file. -/
theorem Prototype.checkBody_keeps (returnTypes : Bool) (p : Prototype) (body : Block) :
    Keeps t.size t (p.checkBody returnTypes body t).scopes :=
  (p.checkBody_grows returnTypes body).keeps

theorem Prototype.checkBody_sameScope (returnTypes : Bool) (p : Prototype) (body : Block)
    (h : SameScope t root t' root) :
    (p.checkBody returnTypes body t').findings.scopeless =
        (p.checkBody returnTypes body t).findings.scopeless ∧
      SameScope (p.checkBody returnTypes body t).scopes root
        (p.checkBody returnTypes body t').scopes root := by
  refine ⟨?_, h.keep (p.checkBody_keeps returnTypes body) (p.checkBody_keeps returnTypes body)⟩
  obtain ⟨hparameters, hscope⟩ := Parameter.checkAll_sameScope p.parameters h.toSameView.push
  obtain ⟨hdecls, hscope⟩ := Decl.checkAll_sameScope body.decls hscope
  have hstmts := Stmt.checkAll_sameView ⟨returnTypes, p, t.size, false⟩ body.stmts hscope.toSameView
  rw [checkBody, checkBody]
  simp only [Checked.prepend_findings, Checked.andThen_findings, Checked.andThen_scopes,
    Findings.scopeless_append, Findings.scopeless_enterScope, hparameters, hdecls, hstmts]

theorem External.check_sameScope (returnTypes : Bool) (d : External)
    (h : SameScope t root t' root) :
    (d.check returnTypes t').findings.scopeless = (d.check returnTypes t).findings.scopeless ∧
      SameScope (d.check returnTypes t).scopes root (d.check returnTypes t').scopes root := by
  cases d with
  | decl d =>
    obtain ⟨hfindings, hscope⟩ := d.check_sameScope h
    exact ⟨congrArg Findings.scopeless hfindings, hscope⟩
  | definition p body =>
    have hdeclare := h.declare (.function p true)
    obtain ⟨hbody, hscope⟩ := p.checkBody_sameScope returnTypes body hdeclare
    refine ⟨?_, hscope⟩
    rw [check, check]
    simp only [Checked.andThen_findings, Findings.scopeless_append, h.declare_findings, hbody]

theorem External.checkAll_sameScope (returnTypes : Bool) (ds : List External)
    (h : SameScope t root t' root) :
    (checkAll returnTypes ds t').findings.scopeless =
      (checkAll returnTypes ds t).findings.scopeless := by
  induction ds generalizing t t' with
  | nil => rfl
  | cons d rest ih =>
    obtain ⟨hd, hscope⟩ := d.check_sameScope returnTypes h
    rw [checkAll, checkAll, Checked.andThen_findings, Checked.andThen_findings,
      Findings.scopeless_append, Findings.scopeless_append, hd, ih hscope]

end CSubset
