-- SUMMARY: The events of a check follow the blocks of the program: each scope is entered, filled and left where its block stands.
import CSubset.Proofs.Reports.Expr
import CSubset.Proofs.Reports.MissingReturns
import CSubset.Proofs.Scoping.Growth

/-!
# The course of a check

The events of a check are those of a walk through the block structure. `Course` says what happens
in a scope: diagnostics, and blocks one behind the other, each entered under the next number and
left again behind what happens in it. `FileCourse` says the same of the file, where the blocks are
the bodies of functions. Both also say where diagnostics stand, so all that is to be known about the
events can be read off them; the lemmas behind them follow the functions of the checker.
-/

namespace CSubset

open ScopeTree Nest

/-! ## Where diagnostics stand -/

/-- A diagnostic at one of the positions `ls`, and none about a missing return. -/
def Diagnostic.At (ls : List Location) (d : Diagnostic) : Prop :=
  d.kind ≠ .missingReturn ∧ ∃ l ∈ ls, d.location? = some l

/-- The positions that belong to the file or a block: those of the names declared in it, parameters
of its function among them, and of the nodes below it. -/
def Nest.positions (b : Nest) : List Location :=
  b.declared.map Symbol.location ++ (b.node.walk Walk.everywhere).filterMap Node.location?

namespace Diagnostic.At

variable {ls ms : List Location} {d : Diagnostic}

theorem widen (h : d.At ls) (hs : ls ⊆ ms) : d.At ms :=
  ⟨h.1, h.2.imp fun _ hl => ⟨hs hl.1, hl.2⟩⟩

theorem ofRule {ds : List Diagnostic} (hk : OfKind Kind.isRule ds) (hd : d ∈ ds) {l : Location}
    (hl : l ∈ ls) (hdl : d.location? = some l) : d.At ls := by
  refine ⟨fun hmissing => ?_, l, hl, hdl⟩
  have hrule := hk d hd
  rw [hmissing] at hrule
  cases hrule

/-- The reports of a rule stand at its own node or at the parts. -/
theorem ofJudged {l : Location} {t : ValueType} {parts : List (ValueType × Location)}
    {ds : List Diagnostic} (h : Judged l t parts ds) (hk : OfKind Kind.isRule ds)
    (hs : l :: parts.map Prod.snd ⊆ ls) : ∀ d ∈ ds, d.At ls := by
  intro d hd
  rcases h.about d hd with ⟨hl, -⟩ | ⟨p, hp, hl, -⟩
  · exact ofRule hk hd (hs List.mem_cons_self) hl
  · exact ofRule hk hd (hs (List.mem_cons_of_mem _ (List.mem_map_of_mem hp))) hl

end Diagnostic.At

namespace Rule

variable {ls : List Location} {l : Location}

theorem index_at {base subscript : ValueType} {k m : Location} (hs : [k, m] ⊆ ls) :
    ∀ d ∈ (index base subscript k m).2, d.At ls := by
  intro d hd
  have hkind := index_ofRule base subscript k m
  have hwrong : d ∈ (if subscript = .invalid ∨ subscript.isIntegral then []
      else [(Mismatch.subscript subscript).report m]) → d.location? = some m := by
    intro h
    split at h
    · cases h
    · rw [List.mem_singleton.mp h]
      rfl
  have hlocation : d.location? = some k ∨ d.location? = some m := by
    unfold index at hd
    dsimp only at hd
    split at hd
    · exact .inr (hwrong hd)
    · split at hd
      · exact .inr (hwrong hd)
      · rcases List.mem_append.mp hd with hd | hd
        · exact .inr (hwrong hd)
        · rw [List.mem_singleton.mp hd]
          exact .inl rfl
  rcases hlocation with hl | hl
  · exact .ofRule hkind hd (hs List.mem_cons_self) hl
  · exact .ofRule hkind hd (hs (List.mem_cons_of_mem _ (List.mem_singleton_self m))) hl

theorem call_at (function : Option Prototype) {args : List (ValueType × Location)}
    (hs : l :: args.map Prod.snd ⊆ ls) : ∀ d ∈ (call function args l).2, d.At ls := by
  intro d hd
  have hkind := call_ofRule function args l
  cases function with
  | none => cases hd
  | some p =>
    rcases List.mem_append.mp hd with harity | harguments
    · refine .ofRule hkind hd (hs List.mem_cons_self) ?_
      split at harity
      · cases harity
      · rw [List.mem_singleton.mp harity]
        rfl
    · obtain ⟨-, arg, harg, hl, -⟩ := arguments_about harguments
      exact .ofRule hkind hd (hs (List.mem_cons_of_mem _ (List.mem_map_of_mem harg))) hl

end Rule

/-! ## Findings without scopes -/

namespace Findings

/-- The events are diagnostics at some of the positions `ls`. -/
def Within (ls : List Location) (f : Findings) : Prop :=
  ∀ x ∈ f.events, ∃ d, x = .diagnostic d ∧ d.At ls

namespace Within

variable {ls ms : List Location} {f g : Findings}

theorem none (ls : List Location) : Findings.none.Within ls := List.forall_mem_nil _

theorem ofDiagnostics {ds : List Diagnostic} (h : ∀ d ∈ ds, d.At ls) :
    (Findings.ofDiagnostics ds).Within ls := by
  intro x hx
  obtain ⟨d, hd, rfl⟩ := List.mem_map.mp hx
  exact ⟨d, rfl, h d hd⟩

theorem append (hf : f.Within ls) (hg : g.Within ls) : (f ++ g).Within ls :=
  fun x hx => (List.mem_append.mp hx).elim (hf x) (hg x)

theorem widen (h : f.Within ls) (hs : ls ⊆ ms) : f.Within ms :=
  fun x hx => (h x hx).imp fun _ hd => ⟨hd.1, hd.2.widen hs⟩

theorem conclude {v : Verdict} (hf : f.Within ls) (hv : ∀ d ∈ v.2, d.At ls) (id : Nat) :
    (f.conclude id v).findings.Within ls :=
  hf.append (.append (.ofDiagnostics hv) (none ls))

theorem optional {check : Expr → Findings} (h : ∀ e : Expr, (check e).Within e.positions)
    (e : Option Expr) : (optionalFindings check e).Within (e.toList.flatMap Expr.positions) := by
  cases e with
  | none => exact .none _
  | some e => exact (h e).widen (List.subset_append_left _ _)

end Within

end Findings

/-! ## Expressions -/

namespace Expr

theorem positions_subset {e c : Expr} (hc : c ∈ e.children) : c.positions ⊆ e.positions := by
  intro l hl
  exact e.positions_perm.mem_iff.mpr (List.mem_cons_of_mem _ (List.mem_flatMap.mpr ⟨c, hc, hl⟩))

/-- An expression has its own position and those of its parts. -/
theorem parts_subset (names : Names) (e : Expr) :
    e.location :: (e.children.map (part names)).map Prod.snd ⊆ e.positions := by
  refine List.cons_subset.mpr ⟨e.location_mem_positions, fun l hl => ?_⟩
  obtain ⟨p, hp, rfl⟩ := List.mem_map.mp hl
  obtain ⟨c, hc, rfl⟩ := List.mem_map.mp hp
  exact e.positions_subset hc c.location_mem_positions

theorem checkAll_within {names : Names} {ls : List Location} {es : List Expr}
    (h : ∀ e ∈ es, (e.check names).findings.Within ls) : (checkAll names es).2.Within ls := by
  induction es with
  | nil => exact .none ls
  | cons e rest ih =>
    rw [checkAll_cons]
    obtain ⟨he, hrest⟩ := List.forall_mem_cons.mp h
    exact he.append (ih hrest)

/-- In an expression nothing happens but diagnostics at its positions. -/
theorem check_within (names : Names) (e : Expr) :
    (e.check names).findings.Within e.positions := by
  induction e using children_induction with
  | step e ih =>
    have hparts : ∀ c ∈ e.children, (c.check names).findings.Within e.positions :=
      fun c hc => (ih c hc).widen (e.positions_subset hc)
    have hplaces := e.parts_subset names
    cases e with
    | literal a value => exact .conclude (.none _) (List.forall_mem_nil _) a.id
    | ident a name =>
      rw [check]
      cases names name with
      | some s => exact .conclude (.none _) (List.forall_mem_nil _) a.id
      | none =>
        refine .conclude (.none _) (List.forall_mem_singleton.mpr ?_) a.id
        exact ⟨Diagnostic.Kind.noConfusion, a.location, List.mem_singleton_self _, rfl⟩
    | unary a op operand =>
      obtain ⟨hoperand, -⟩ := List.forall_mem_cons.mp hparts
      exact hoperand.conclude
        (.ofJudged (Rule.unary_judged op _) (Rule.operator_ofRule _ _ _) hplaces) a.id
    | binary a op left right =>
      obtain ⟨hleft, hright⟩ := List.forall_mem_cons.mp hparts
      exact (hleft.append (hright right (List.mem_singleton_self right))).conclude
        (.ofJudged (Rule.binary_judged op _ _) (Rule.operator_ofRule _ _ _) hplaces) a.id
    | assign a op target value =>
      obtain ⟨htarget, hvalue⟩ := List.forall_mem_cons.mp hparts
      exact (htarget.append (hvalue value (List.mem_singleton_self value))).conclude
        (.ofJudged (Rule.assign_judged names op target _ _ _) (Rule.assign_ofRule _ _ _ _ _ _)
          hplaces) a.id
    | call a callee args =>
      obtain ⟨hcallee, hargs⟩ := List.forall_mem_cons.mp hparts
      have hwrong : ∀ d ∈ (Rule.callee names callee (callee.check names).type).2,
          d.At (call a callee args).positions := fun d hd =>
        .ofRule (Rule.callee_ofRule names callee _) hd
          (hplaces (List.mem_cons_of_mem _ List.mem_cons_self)) (Rule.callee_location hd)
      have hcall : a.location :: (args.map (part names)).map Prod.snd ⊆
          (call a callee args).positions :=
        List.Subset.trans (List.cons_subset_cons _ (List.subset_cons_self _ _)) hplaces
      rw [check_call, checkAll_parts]
      exact (hcallee.append (.append (.ofDiagnostics hwrong) (checkAll_within hargs))).conclude
        (Rule.call_at _ hcall) a.id
    | index a base subscript =>
      obtain ⟨hbase, hsubscript⟩ := List.forall_mem_cons.mp hparts
      exact (hbase.append (hsubscript subscript (List.mem_singleton_self subscript))).conclude
        (Rule.index_at (List.Subset.trans (List.subset_cons_self _ _) hplaces)) a.id

theorem checkCondition_within (names : Names) (e : Expr) :
    (e.checkCondition names).Within e.positions := by
  refine (e.check_within names).append (.ofDiagnostics fun d hd => ?_)
  split at hd
  · cases hd
  · rw [List.mem_singleton.mp hd]
    exact ⟨Diagnostic.Kind.noConfusion, e.location, e.location_mem_positions, rfl⟩

end Expr

/-! ## Declarations -/

theorem ScopeTree.declare_within (t : ScopeTree) (scope : Nat) (x : Symbol) :
    (t.declare scope x).findings.Within [x.location] := by
  unfold ScopeTree.declare
  split
  · exact .none _
  · refine .ofDiagnostics (List.forall_mem_singleton.mpr ?_)
    exact ⟨Diagnostic.Kind.noConfusion, x.location, List.mem_singleton_self _, rfl⟩

/-- A name may be declared with the type void, and that is reported at the name. -/
theorem void_at (isVoid : Bool) (m : Mismatch) {l : Location} {ls : List Location} (hl : l ∈ ls) :
    ∀ d ∈ (if isVoid then [m.report l] else []), d.At ls := by
  intro d hd
  split at hd
  · rw [List.mem_singleton.mp hd]
    exact ⟨Diagnostic.Kind.noConfusion, l, hl, rfl⟩
  · cases hd

theorem Variable.check_within (names : Names) (v : Variable) :
    (v.check names).Within (v.location :: v.initializer.toList.flatMap Expr.positions) := by
  refine .append (.ofDiagnostics (void_at _ _ List.mem_cons_self)) ?_
  cases v.initializer with
  | none => exact .none _
  | some e =>
    have hsub : e.positions ⊆ v.location :: (some e).toList.flatMap Expr.positions :=
      List.Subset.trans (List.subset_append_left _ _) (List.subset_cons_self _ _)
    refine ((e.check_within names).widen hsub).append (.ofDiagnostics fun d hd => ?_)
    split at hd
    · cases hd
    · rw [List.mem_singleton.mp hd]
      exact ⟨Diagnostic.Kind.noConfusion, e.location, hsub e.location_mem_positions, rfl⟩

theorem Decl.check_within (scope : Nat) (d : Decl) (t : ScopeTree) :
    (d.check scope t).findings.Within d.positions := by
  have hname := t.declare_within scope d.symbol
  cases d with
  | function p =>
    exact .append (.none _) (hname.widen (List.cons_subset_cons _ (List.nil_subset _)))
  | var v =>
    exact (v.check_within _).append (hname.widen (List.cons_subset_cons _ (List.nil_subset _)))

theorem Decl.checkAll_within (scope : Nat) (ds : List Decl) (t : ScopeTree) :
    (checkAll scope ds t).findings.Within (ds.flatMap Decl.positions) := by
  induction ds generalizing t with
  | nil => exact .none _
  | cons d rest ih =>
    exact ((d.check_within scope t).widen (List.subset_append_left _ _)).append
      ((ih _).widen (List.subset_append_right _ _))

theorem Parameter.checkAll_within (scope : Nat) (ps : List Parameter) (t : ScopeTree) :
    (checkAll scope ps t).findings.Within (ps.map Parameter.location) := by
  induction ps generalizing t with
  | nil => exact .none _
  | cons p rest ih =>
    have hp : (p.check scope t).findings.Within [p.location] :=
      .append (.ofDiagnostics (void_at _ _ (List.mem_singleton_self _)))
        (t.declare_within scope (.parameter p))
    exact (hp.widen (List.cons_subset_cons _ (List.nil_subset _))).append
      ((ih _).widen (List.subset_cons_self _ _))

/-! ## The course of a block -/

/-- What happens in scope `s` while the blocks `bs` are entered, the first of them under number `k`:
diagnostics at positions in `ls`, and the blocks, one behind the other. -/
inductive Course : Nat → Nat → List Nest → List Location → List Event → Prop where
  | nil {s k : Nat} {ls : List Location} : Course s k [] ls []
  | diagnostic {s k : Nat} {bs : List Nest} {ls : List Location} {d : Diagnostic}
      {es : List Event} (hd : d.At ls) (h : Course s k bs ls es) :
      Course s k bs ls (.diagnostic d :: es)
  | block {s k : Nat} {b : Nest} {bs : List Nest} {ls ms : List Location}
      {inside es : List Event} (hb : Course k (k + 1) b.inner ms inside) (hms : ms ⊆ b.positions)
      (hls : ms ⊆ ls) (h : Course s (k + b.preorder.length) bs ls es) :
      Course s k (b :: bs) ls (.enterScope k s :: (inside ++ .leaveScope k :: es))

namespace Course

variable {s k : Nat} {bs cs : List Nest} {ls ms : List Location} {es es' : List Event}

theorem widen (h : Course s k bs ls es) (hs : ls ⊆ ms) : Course s k bs ms es := by
  induction h with
  | nil => exact .nil
  | diagnostic hd _ ih => exact .diagnostic (hd.widen hs) (ih hs)
  | block hb hms hls _ _ ih => exact .block hb hms (List.Subset.trans hls hs) (ih hs)

theorem append (h : Course s k bs ls es)
    (h' : Course s (k + (preorderAll bs).length) cs ls es') :
    Course s k (bs ++ cs) ls (es ++ es') := by
  induction h with
  | nil => exact h'
  | diagnostic hd _ ih => exact .diagnostic hd (ih h')
  | block hb hms hls _ _ ih =>
    rw [preorderAll, List.length_append, ← Nat.add_assoc] at h'
    simp only [List.cons_append, List.append_assoc]
    exact .block hb hms hls (ih h')

/-- Where no scope is entered there are diagnostics alone. -/
theorem ofReports (h : ∀ x ∈ es, ∃ d, x = .diagnostic d ∧ d.At ls) (s k : Nat) :
    Course s k [] ls es := by
  induction es with
  | nil => exact .nil
  | cons x rest ih =>
    obtain ⟨hx, hrest⟩ := List.forall_mem_cons.mp h
    obtain ⟨d, rfl, hd⟩ := hx
    exact .diagnostic hd (ih hrest)

theorem ofWithin {f : Findings} (h : f.Within ls) (s k : Nat) : Course s k [] ls f.events :=
  ofReports h s k

/-- Diagnostics stand at positions in `ls`. -/
theorem diagnostic_at (h : Course s k bs ls es) {d : Diagnostic} (hd : .diagnostic d ∈ es) :
    d.At ls := by
  induction h with
  | nil => cases hd
  | diagnostic hd' _ ih =>
    rcases List.mem_cons.mp hd with heq | hd
    · cases heq
      exact hd'
    · exact ih hd
  | block _ _ hls _ ihb ih =>
    rcases List.mem_append.mp (List.mem_of_ne_of_mem Event.noConfusion hd) with hd | hd
    · exact (ihb hd).widen hls
    · exact ih (List.mem_of_ne_of_mem Event.noConfusion hd)

end Course

theorem Block.positions_subset (b : Block) :
    b.positions ⊆ ((Node.block b).walk Walk.everywhere).filterMap Node.location? :=
  List.Subset.trans b.positions_locations.subset (Node.block b).locations_perm.symm.subset

theorem Prototype.returnFaults_at (p : Prototype) (value : ValueType) {l : Location}
    {ls : List Location} (hl : l ∈ ls) : ∀ d ∈ p.returnFaults value l, d.At ls := by
  intro d hd
  refine .ofRule (p.returnFaults_ofRule value l) hd hl ?_
  unfold returnFaults at hd
  split at hd
  · rw [List.mem_singleton.mp hd]
    rfl
  · dsimp only at hd
    split at hd
    · cases hd
    · rw [List.mem_singleton.mp hd]
      rfl

mutual

theorem Stmt.check_course (ctx : Context) : ∀ (s : Stmt) {t : ScopeTree}, ctx.scope < t.size →
    Course ctx.scope t.size s.nests s.positions (s.check ctx t).findings.events
  | .block body, _, h => body.check_course ctx h
  | .ifThen condition body _, t, h => by
    have hcondition := condition.checkCondition_within (t.lookup ctx.scope)
    exact (Course.ofWithin (hcondition.widen (List.subset_append_left _ _)) _ _).append
      ((body.check_course ctx h).widen (List.subset_append_right _ _))
  | .ifElse condition body alternative _, t, h => by
    have hcondition := condition.checkCondition_within (t.lookup ctx.scope)
    have hgrows := body.check_grows ctx h
    have hbody := (body.check_course ctx h).widen
      (List.subset_append_left body.positions alternative.positions)
    have halternative := (alternative.check_course ctx (hgrows.lt h)).widen
      (List.subset_append_right body.positions alternative.positions)
    rw [hgrows.size] at halternative
    exact (Course.ofWithin (hcondition.widen (List.subset_append_left _ _)) _ _).append
      ((hbody.append halternative).widen (List.subset_append_right _ _))
  | .whileLoop condition body _, t, h => by
    have hcondition := condition.checkCondition_within (t.lookup ctx.scope)
    exact (Course.ofWithin (hcondition.widen (List.subset_append_left _ _)) _ _).append
      ((body.check_course { ctx with inLoop := true } h).widen (List.subset_append_right _ _))
  | .forLoop first condition step body _, t, h => by
    have hfirst := Findings.Within.optional (fun e => e.check_within (t.lookup ctx.scope)) first
    have hcondition :=
      Findings.Within.optional (fun e => e.checkCondition_within (t.lookup ctx.scope)) condition
    have hstep := Findings.Within.optional (fun e => e.check_within (t.lookup ctx.scope)) step
    have hbody := body.check_course { ctx with inLoop := true } h
    rw [Stmt.positions, ← List.append_assoc, ← List.append_assoc]
    refine (Course.ofWithin (Findings.Within.widen ?_ (List.subset_append_left _ _)) _ _).append
      (hbody.widen (List.subset_append_right _ _))
    rw [List.append_assoc]
    refine (hfirst.widen (List.subset_append_left _ _)).append
      (Findings.Within.widen ?_ (List.subset_append_right _ _))
    exact (hcondition.widen (List.subset_append_left _ _)).append
      (hstep.widen (List.subset_append_right _ _))
  | .jump kind l, t, _ => by
    refine .ofWithin (.ofDiagnostics fun d hd => ?_) _ _
    split at hd
    · cases hd
    · rw [List.mem_singleton.mp hd]
      exact ⟨Diagnostic.Kind.noConfusion, l, List.mem_singleton_self l, rfl⟩
  | .returnStmt value l, t, _ => by
    refine .ofWithin ?_ _ _
    cases value with
    | none => exact .none _
    | some e =>
      refine .append ((e.check_within _).widen ?_) (.ofDiagnostics fun d hd => ?_)
      · exact List.Subset.trans (List.subset_append_left _ _) (List.subset_cons_self _ _)
      · split at hd
        · exact ctx.function.returnFaults_at _ List.mem_cons_self d hd
        · cases hd
  | .expr e _, t, _ => .ofWithin (e.check_within _) _ _

theorem Stmt.checkAll_course (ctx : Context) : ∀ (ss : List Stmt) {t : ScopeTree},
    ctx.scope < t.size → Course ctx.scope t.size (Stmt.nestsAll ss) (Stmt.positionsAll ss)
      (Stmt.checkAll ctx ss t).findings.events
  | [], _, _ => .nil
  | s :: rest, _, h => by
    have hgrows := s.check_grows ctx h
    have hrest := Stmt.checkAll_course ctx rest (hgrows.lt h)
    rw [hgrows.size] at hrest
    exact ((s.check_course ctx h).widen (List.subset_append_left _ _)).append
      (hrest.widen (List.subset_append_right _ _))

theorem Block.check_course (ctx : Context) : ∀ (b : Block) {t : ScopeTree}, ctx.scope < t.size →
    Course ctx.scope t.size [b.nest] b.positions (b.check ctx t).findings.events
  | .mk decls stmts l, t, _ => by
    have hopen := lt_size_push t ctx.scope
    have hgrows := Decl.checkAll_grows decls hopen
    have hdecls := Decl.checkAll_within t.size decls (t.push ctx.scope)
    have hstmts := Stmt.checkAll_course { ctx with scope := t.size } stmts (hgrows.lt hopen)
    rw [hgrows.size, size_push] at hstmts
    refine .block ?_ ?_ (List.Subset.refl _) .nil
    · exact (Course.ofWithin (hdecls.widen (List.subset_append_left _ _)) _ _).append
        (hstmts.widen (List.subset_append_right _ _))
    · exact List.Subset.trans (Block.mk decls stmts l).positions_subset
        (List.subset_append_right _ _)

end

/-! ## The course of a file -/

/-- The block structure of a function that is defined. -/
def bodyNestOf (f : Prototype × Block) : Nest := f.1.bodyNest f.2

/-- What happens in the file while the bodies of the functions `fs` are entered, the first of them
under number `k`: diagnostics, and the functions, one behind the other, where the lack of a return
is reported directly behind the function. -/
inductive FileCourse : Nat → List (Prototype × Block) → List Event → Prop where
  | nil {k : Nat} : FileCourse k [] []
  | diagnostic {k : Nat} {fs : List (Prototype × Block)} {d : Diagnostic} {es : List Event}
      (hd : d.kind ≠ .missingReturn) (h : FileCourse k fs es) :
      FileCourse k fs (.diagnostic d :: es)
  | body {k : Nat} {f : Prototype × Block} {fs : List (Prototype × Block)} {ms : List Location}
      {inside es : List Event} (hb : Course k (k + 1) (bodyNestOf f).inner ms inside)
      (hms : ms ⊆ (bodyNestOf f).positions)
      (h : FileCourse (k + (bodyNestOf f).preorder.length) fs es) :
      FileCourse k (f :: fs) (.enterScope k root :: (inside ++ .leaveFunction f.1.name ::
        ((f.1.missingReturn f.2).map Event.diagnostic ++ es)))

/-- Where no function is defined there are diagnostics alone. -/
theorem FileCourse.prepend {k : Nat} {fs : List (Prototype × Block)} {ls : List Location}
    {ds es : List Event} (hds : ∀ x ∈ ds, ∃ d, x = .diagnostic d ∧ d.At ls)
    (h : FileCourse k fs es) : FileCourse k fs (ds ++ es) := by
  induction ds with
  | nil => exact h
  | cons x rest ih =>
    obtain ⟨hx, hrest⟩ := List.forall_mem_cons.mp hds
    obtain ⟨d, rfl, hd⟩ := hx
    exact .diagnostic hd.1 (ih hrest)

theorem Prototype.checkBody_events (returnTypes : Bool) (p : Prototype) (body : Block)
    (t : ScopeTree) : ∃ ms inside,
      (p.checkBody returnTypes body t).findings.events = .enterScope t.size root ::
        (inside ++ .leaveFunction p.name :: (p.missingReturn body).map Event.diagnostic) ∧
      Course t.size (t.size + 1) (p.bodyNest body).inner ms inside ∧
      ms ⊆ (p.bodyNest body).positions := by
  have hopen := lt_size_push t root
  have hgrows := Parameter.checkAll_grows p.parameters hopen
  have hgrows' := Decl.checkAll_grows body.decls (hgrows.lt hopen)
  have hparameters := Parameter.checkAll_within t.size p.parameters (t.push root)
  have hdecls := Decl.checkAll_within t.size body.decls
    (Parameter.checkAll t.size p.parameters (t.push root)).scopes
  have hstmts := Stmt.checkAll_course ⟨returnTypes, p, t.size, false⟩ body.stmts
    (hgrows'.lt (hgrows.lt hopen))
  rw [hgrows'.size, hgrows.size, size_push] at hstmts
  have hbody : body.positions ⊆ p.parameters.map Parameter.location ++ body.positions :=
    List.subset_append_right _ _
  have hdeclared : body.decls.flatMap Decl.positions ⊆ body.positions := by
    cases body
    exact List.subset_append_left _ _
  have hstated : Stmt.positionsAll body.stmts ⊆ body.positions := by
    cases body
    exact List.subset_append_right _ _
  have hheading := (hparameters.widen (List.subset_append_left _ body.positions)).append
    (hdecls.widen (List.Subset.trans hdeclared hbody))
  have hinside := (Course.ofWithin hheading t.size (t.size + 1)).append
    (hstmts.widen (List.Subset.trans hstated hbody))
  refine ⟨_, _, ?_, hinside, List.append_subset.mpr ⟨fun l hl => ?_, ?_⟩⟩
  · have hmissing : (if p.returnType.isVoid || body.returnsValue then []
        else [Event.diagnostic (.missingReturn p.name p.location)]) =
        (p.missingReturn body).map Event.diagnostic := by
      rw [missingReturn]
      split <;> rfl
    rw [← hmissing]
    rfl
  · obtain ⟨x, hx, rfl⟩ := List.mem_map.mp hl
    refine List.mem_append_left _ (List.mem_map.mpr ⟨.parameter x, ?_, rfl⟩)
    exact List.mem_append_left _ (List.mem_map_of_mem hx)
  · exact List.Subset.trans body.positions_subset (List.subset_append_right _ _)

/-- The events of declarations at file level, and others behind them. -/
theorem External.checkAll_course (returnTypes : Bool) (ds : List External) {t : ScopeTree}
    (ht : root < t.size) {es : List Event}
    (h : ∀ k, FileCourse k [] es) :
    FileCourse t.size (CompilationUnit.definitions ⟨ds⟩)
      ((External.checkAll returnTypes ds t).findings.events ++ es) := by
  induction ds generalizing t with
  | nil => exact h _
  | cons d rest ih =>
    rw [checkAll, Checked.andThen, Findings.events_append, List.append_assoc]
    cases d with
    | decl d =>
      have hgrows : Grows root [d.symbol] [] t (d.check root t).scopes := grows_declare d.symbol ht
      have hrest := ih (hgrows.lt ht)
      rw [hgrows.size] at hrest
      have hdefinitions : CompilationUnit.definitions ⟨.decl d :: rest⟩ =
          CompilationUnit.definitions ⟨rest⟩ := by
        cases d <;> rfl
      rw [hdefinitions]
      exact .prepend (d.check_within root t) hrest
    | definition p body =>
      have hgrows := (External.definition p body).check_grows returnTypes ht
      have hrest := ih (hgrows.lt ht)
      have hsize : (t.declare root (.function p true)).scopes.size = t.size :=
        (grows_declare (.function p true) ht).size
      obtain ⟨ms, inside, hevents, hcourse, hms⟩ := p.checkBody_events returnTypes body
        (t.declare root (.function p true)).scopes
      rw [hgrows.size, External.nests, preorderAll_singleton] at hrest
      rw [hsize] at hevents hcourse
      rw [check, Checked.andThen, Findings.events_append, hevents, List.append_assoc,
        List.cons_append, List.append_assoc, List.cons_append]
      exact .prepend (t.declare_within root _) (.body hcourse hms hrest)

/-- The events of a check take the course of its file. -/
theorem CompilationUnit.check_course (u : CompilationUnit) (returnTypes : Bool) :
    FileCourse 1 u.definitions (u.check returnTypes).findings.events := by
  refine External.checkAll_course returnTypes u.decls (t := .initial) Nat.one_pos fun k => ?_
  unfold mainFaults
  dsimp only
  split
  · exact .nil
  · exact .diagnostic Diagnostic.Kind.noConfusion .nil

end CSubset
