-- SUMMARY: The checker copies positions and node numbers, and no rule depends on either.
import CSubset.Proofs.Check.Expr
import CSubset.Proofs.Relabeling.Findings

/-!
# Checking relabeled units

No rule of the checker looks at a position or at the number of a node. So checking a unit with
its labels changed, in scopes whose symbols have theirs changed, has the same outcome with its
labels changed. This is shown along the walk: for the rules of expressions, for expressions,
declarations and statements, and for the whole unit.
-/

namespace CSubset

variable {r : Relabeling}

/-! ## Rules -/

theorem Expr.location_relabel (e : Expr) : (e.relabel r).location = r.place e.location := by
  cases e <;> rfl

namespace Expr

mutual

/-- The prefix form shows no labels. -/
theorem text_relabel : ∀ e : Expr, (e.relabel r).text = e.text
  | .literal _ _ => rfl
  | .ident _ _ => rfl
  | .unary _ _ operand => by rw [relabel, text, text, text_relabel operand]
  | .binary _ _ left right => by
    rw [relabel, text, text, text_relabel left, text_relabel right]
  | .assign _ _ target value => by
    rw [relabel, text, text, text_relabel target, text_relabel value]
  | .call _ callee args => by
    rw [relabel, text, text, text_relabel callee, textArguments_relabel args]
  | .index _ base subscript => by
    rw [relabel, text, text, text_relabel base, text_relabel subscript]

theorem textArguments_relabel : ∀ es : List Expr,
    textArguments (relabelAll r es) = textArguments es
  | [] => rfl
  | e :: rest => by
    rw [relabelAll, textArguments, textArguments, text_relabel e, textArguments_relabel rest]

end

end Expr

namespace Rule

theorem operator_relabel (result : Option ValueType) (m : Mismatch) (l : Location) :
    operator result m (r.place l) = Verdict.relabel r (operator result m l) := by
  cases result <;> rfl

theorem index_relabel (base subscript : ValueType) (l k : Location) :
    index base subscript (r.place l) (r.place k) =
      Verdict.relabel r (index base subscript l k) := by
  unfold index
  by_cases hs : subscript = .invalid ∨ subscript.isIntegral = true
  · simp only [if_pos hs]
    split
    · rfl
    · cases base.pointee? <;> rfl
  · simp only [if_neg hs]
    split
    · rfl
    · cases base.pointee? <;> rfl

theorem writable_relabel (s : Symbol) : writable (s.relabel r) = writable s := by
  cases s <;> rfl

theorem denotesStorage_relabel (names : Names) (e : Expr) :
    denotesStorage (Names.relabel r names) (e.relabel r) = denotesStorage names e := by
  cases e with
  | ident a name =>
    simp only [Expr.relabel, denotesStorage, Names.relabel, Option.all_map]
    congr 1
    funext s
    exact writable_relabel s
  | unary a op operand => cases op <;> rfl
  | literal | binary | assign | call | index => rfl

theorem store_relabel (stored target : ValueType) (l : Location) :
    store stored target (r.place l) = Verdict.relabel r (store stored target l) := by
  unfold store
  cases stored.assignableTo target <;> rfl

theorem assign_relabel (names : Names) (op : AssignOp) (e : Expr) (target value : ValueType)
    (l : Location) :
    assign (Names.relabel r names) op (e.relabel r) target value (r.place l) =
      Verdict.relabel r (assign names op e target value l) := by
  unfold assign
  rw [denotesStorage_relabel, Expr.text_relabel, Expr.location_relabel]
  cases denotesStorage names e with
  | false => rfl
  | true =>
    cases op with
    | plain => exact store_relabel value target l
    | compound arith =>
      simp only [Bool.not_true, Bool.false_eq_true, if_false]
      cases (BinaryOp.arith arith).result? target value with
      | some stored => exact store_relabel stored target l
      | none => rfl

theorem callee_relabel (names : Names) (e : Expr) (type : ValueType) :
    callee (Names.relabel r names) (e.relabel r) type =
      ((callee names e type).1.map (Prototype.relabel r),
        (callee names e type).2.map (Diagnostic.relabel r)) := by
  cases e with
  | ident a name =>
    simp only [Expr.relabel, callee, Names.relabel]
    rcases names name with _ | ⟨_ | _ | _⟩ <;> rfl
  | literal | unary | binary | assign | call | index =>
    by_cases h : type = .invalid
    · simp [callee, Expr.relabel, h]
    · simp [callee, Expr.relabel, h]
      rfl

theorem arguments_relabel (function : String) (position : Nat) (ps : List Parameter)
    (args : List (ValueType × Location)) :
    arguments function position (ps.map (Parameter.relabel r))
        (args.map fun x => (x.1, r.place x.2)) =
      (arguments function position ps args).map (Diagnostic.relabel r) := by
  induction ps generalizing position args with
  | nil => rfl
  | cons p ps ih =>
    rcases args with _ | ⟨⟨t, l⟩, rest⟩
    · rfl
    · simp only [List.map_cons, arguments, List.map_append, ih, Parameter.relabel]
      cases t.assignableTo (.ofDeclared p.type) <;> rfl

theorem call_relabel (function : Option Prototype) (args : List (ValueType × Location))
    (l : Location) :
    call (function.map (Prototype.relabel r)) (args.map fun x => (x.1, r.place x.2)) (r.place l) =
      Verdict.relabel r (call function args l) := by
  cases function with
  | none => rfl
  | some p =>
    have htakes : takes (p.relabel r) args.length = takes p args.length := by
      simp only [takes, Prototype.relabel, List.length_map]
    simp only [Option.map_some, call, List.length_map, htakes, Verdict.relabel, List.map_append]
    simp only [Prototype.relabel, arguments_relabel, List.length_map]
    cases takes p args.length <;> rfl

end Rule

/-! ## Expressions -/

namespace Expr

mutual

theorem check_relabel (names : Names) :
    ∀ e : Expr, (e.relabel r).check (Names.relabel r names) = (e.check names).relabel r
  | .literal a value => Findings.conclude_relabel a.id rfl rfl
  | .ident a name => by
    simp only [relabel, check, Names.relabel]
    cases names name with
    | none => exact Findings.conclude_relabel a.id rfl rfl
    | some s =>
      refine Findings.conclude_relabel a.id rfl ?_
      rw [Symbol.relabel_valueType]
      rfl
  | .unary a op operand => by
    have h := check_relabel names operand
    refine Findings.conclude_relabel a.id ?_ ?_
    · rw [h]
      rfl
    · rw [h]
      exact Rule.operator_relabel _ _ _
  | .binary a op left right => by
    have hl := check_relabel names left
    have hr := check_relabel names right
    refine Findings.conclude_relabel a.id ?_ ?_
    · rw [hl, hr, Findings.relabel_append]
      rfl
    · rw [hl, hr]
      exact Rule.operator_relabel _ _ _
  | .assign a op target value => by
    have ht := check_relabel names target
    have hv := check_relabel names value
    refine Findings.conclude_relabel a.id ?_ ?_
    · rw [ht, hv, Findings.relabel_append]
      rfl
    · rw [ht, hv, location_relabel]
      exact Rule.assign_relabel names op target _ _ _
  | .call a callee args => by
    have hf := check_relabel names callee
    have hargs := checkAll_relabel names args
    have hrule := Rule.callee_relabel (r := r) names callee (callee.check names).type
    rw [relabel, check_call, check_call]
    refine Findings.conclude_relabel a.id ?_ ?_
    · rw [hf, hargs, Typed.relabel, hrule, Findings.relabel_append, Findings.relabel_append,
        Findings.relabel_ofDiagnostics]
    · rw [hf, hargs, Typed.relabel, hrule]
      exact Rule.call_relabel _ _ _
  | .index a base subscript => by
    have hb := check_relabel names base
    have hs := check_relabel names subscript
    refine Findings.conclude_relabel a.id ?_ ?_
    · rw [hb, hs, Findings.relabel_append]
      rfl
    · rw [hb, hs, location_relabel, location_relabel]
      exact Rule.index_relabel _ _ _ _

theorem checkAll_relabel (names : Names) :
    ∀ es : List Expr, checkAll (Names.relabel r names) (relabelAll r es) =
      ((checkAll names es).1.map fun x => (x.1, r.place x.2), (checkAll names es).2.relabel r)
  | [] => rfl
  | e :: rest => by
    rw [relabelAll, checkAll_cons, checkAll_cons, check_relabel names e, location_relabel,
      checkAll_relabel names rest, Findings.relabel_append]
    rfl

end

end Expr

/-! ## Declarations -/

namespace Checked

theorem andThen_relabel {c c' : Checked} {next next' : ScopeTree → Checked}
    (hc : c' = c.relabel r) (hnext : ∀ t, next' (t.relabel r) = (next t).relabel r) :
    c'.andThen next' = (c.andThen next).relabel r := by
  subst hc
  have h := hnext c.scopes
  simp only [andThen, relabel] at h ⊢
  rw [h, Findings.relabel_append]

theorem prepend_relabel {f f' : Findings} {c c' : Checked} (hf : f' = f.relabel r)
    (hc : c' = c.relabel r) : c'.prepend f' = (c.prepend f).relabel r := by
  subst hf hc
  rw [prepend, relabel, relabel, prepend, Findings.relabel_append]

end Checked

theorem Mismatch.unless_relabel (m : Mismatch) (l : Location) (fits : Prop) [Decidable fits] :
    (if fits then [] else [m.report (r.place l)]) =
      (if fits then [] else [m.report l]).map (Diagnostic.relabel r) := by
  split <;> rfl

theorem Mismatch.if_relabel (m : Mismatch) (l : Location) (wrong : Prop) [Decidable wrong] :
    (if wrong then [m.report (r.place l)] else []) =
      (if wrong then [m.report l] else []).map (Diagnostic.relabel r) := by
  split <;> rfl

theorem Variable.check_relabel (names : Names) (v : Variable) :
    (v.relabel r).check (Names.relabel r names) = (v.check names).relabel r := by
  unfold check
  rw [Findings.relabel_append, Findings.relabel_ofDiagnostics]
  congr 1
  · exact congrArg Findings.ofDiagnostics (Mismatch.if_relabel _ _ _)
  · rcases v with ⟨type, name, _ | e, storage, l⟩
    · rfl
    · dsimp only [relabel, Option.map_some]
      rw [Expr.check_relabel, Expr.location_relabel, Findings.relabel_append,
        Findings.relabel_ofDiagnostics]
      exact congrArg (_ ++ Findings.ofDiagnostics ·) (Mismatch.unless_relabel _ _ _)

theorem Decl.check_relabel (scope : Nat) (d : Decl) (t : ScopeTree) :
    (d.relabel r).check scope (t.relabel r) = (d.check scope t).relabel r := by
  refine Checked.prepend_relabel ?_ ?_
  · cases d with
    | function p => rfl
    | var v =>
      exact (congrArg (v.relabel r).check (t.lookup_relabel scope)).trans (v.check_relabel _)
  · rw [Decl.symbol_relabel, ScopeTree.declare_relabel]

theorem Decl.checkAll_relabel (scope : Nat) (ds : List Decl) (t : ScopeTree) :
    checkAll scope (ds.map (Decl.relabel r)) (t.relabel r) = (checkAll scope ds t).relabel r := by
  induction ds generalizing t with
  | nil => rfl
  | cons d rest ih => exact Checked.andThen_relabel (d.check_relabel scope t) ih

theorem Parameter.check_relabel (scope : Nat) (p : Parameter) (t : ScopeTree) :
    (p.relabel r).check scope (t.relabel r) = (p.check scope t).relabel r := by
  refine Checked.prepend_relabel ?_ (t.declare_relabel scope (.parameter p))
  rw [Findings.relabel_ofDiagnostics]
  exact congrArg Findings.ofDiagnostics (Mismatch.if_relabel _ _ _)

theorem Parameter.checkAll_relabel (scope : Nat) (ps : List Parameter) (t : ScopeTree) :
    checkAll scope (ps.map (Parameter.relabel r)) (t.relabel r) =
      (checkAll scope ps t).relabel r := by
  induction ps generalizing t with
  | nil => rfl
  | cons p rest ih => exact Checked.andThen_relabel (p.check_relabel scope t) ih

/-! ## Statements -/

theorem Expr.checkCondition_relabel (names : Names) (e : Expr) :
    (e.relabel r).checkCondition (Names.relabel r names) = (e.checkCondition names).relabel r := by
  simp only [checkCondition, check_relabel, location_relabel, Typed.relabel,
    Findings.relabel_append, Findings.relabel_ofDiagnostics, Mismatch.unless_relabel]

theorem Prototype.returnFaults_relabel (p : Prototype) (value : ValueType) (l : Location) :
    (p.relabel r).returnFaults value (r.place l) =
      (p.returnFaults value l).map (Diagnostic.relabel r) := by
  have hreturn : (p.relabel r).returnType = p.returnType := rfl
  rw [returnFaults, returnFaults, hreturn]
  by_cases hvoid : p.returnType.isVoid = true
  · rw [if_pos hvoid, if_pos hvoid]
    rfl
  · rw [if_neg hvoid, if_neg hvoid]
    exact Mismatch.unless_relabel _ _ _

theorem optionalFindings_relabel {f f' : Expr → Findings}
    (h : ∀ e, f' (e.relabel r) = (f e).relabel r) (e : Option Expr) :
    optionalFindings f' (e.map (Expr.relabel r)) = (optionalFindings f e).relabel r := by
  cases e with
  | none => rfl
  | some e => exact h e

theorem Expr.checkCondition_lookup (n : Nat) (t : ScopeTree) (e : Expr) :
    (e.relabel r).checkCondition ((t.relabel r).lookup n) =
      (e.checkCondition (t.lookup n)).relabel r := by
  rw [ScopeTree.lookup_relabel, checkCondition_relabel]

theorem Expr.findings_lookup (n : Nat) (t : ScopeTree) (e : Expr) :
    ((e.relabel r).check ((t.relabel r).lookup n)).findings =
      (e.check (t.lookup n)).findings.relabel r := by
  rw [ScopeTree.lookup_relabel, check_relabel]
  rfl

mutual

theorem Stmt.check_relabel (ctx : Context) : ∀ (s : Stmt) (t : ScopeTree),
    (s.relabel r).check (ctx.relabel r) (t.relabel r) = (s.check ctx t).relabel r
  | .block body, t => body.check_relabel ctx t
  | .ifThen condition body l, t =>
    Checked.prepend_relabel (condition.checkCondition_lookup _ t) (body.check_relabel ctx t)
  | .ifElse condition body alternative l, t =>
    Checked.prepend_relabel (condition.checkCondition_lookup _ t)
      (Checked.andThen_relabel (body.check_relabel ctx t) (alternative.check_relabel ctx))
  | .whileLoop condition body l, t =>
    Checked.prepend_relabel (condition.checkCondition_lookup _ t)
      (body.check_relabel { ctx with inLoop := true } t)
  | .forLoop first condition step body l, t => by
    refine Checked.prepend_relabel ?_ (body.check_relabel { ctx with inLoop := true } t)
    rw [Findings.relabel_append, Findings.relabel_append]
    congr 1
    · exact optionalFindings_relabel (Expr.findings_lookup _ t) first
    · congr 1
      · exact optionalFindings_relabel (Expr.checkCondition_lookup _ t) condition
      · exact optionalFindings_relabel (Expr.findings_lookup _ t) step
  | .jump kind l, t => by
    rcases ctx with ⟨returnTypes, function, scope, _ | _⟩ <;> rfl
  | .returnStmt value l, t => by
    refine congrArg (Checked.mk (t.relabel r)) (optionalFindings_relabel (fun e => ?_) value)
    rcases ctx with ⟨returnTypes, function, scope, inLoop⟩
    dsimp only [Context.relabel]
    rw [ScopeTree.lookup_relabel, Expr.check_relabel, Findings.relabel_append,
      Findings.relabel_ofDiagnostics]
    cases returnTypes with
    | false => rfl
    | true => exact congrArg (_ ++ Findings.ofDiagnostics ·) (function.returnFaults_relabel _ l)
  | .expr e l, t => congrArg (Checked.mk (t.relabel r)) (e.findings_lookup _ t)

theorem Stmt.checkAll_relabel (ctx : Context) : ∀ (ss : List Stmt) (t : ScopeTree),
    Stmt.checkAll (ctx.relabel r) (Stmt.relabelAll r ss) (t.relabel r) =
      (Stmt.checkAll ctx ss t).relabel r
  | [], _ => rfl
  | s :: rest, t => Checked.andThen_relabel (s.check_relabel ctx t) (Stmt.checkAll_relabel ctx rest)

theorem Block.check_relabel (ctx : Context) : ∀ (b : Block) (t : ScopeTree),
    (b.relabel r).check (ctx.relabel r) (t.relabel r) = (b.check ctx t).relabel r
  | .mk decls stmts l, t => by
    have hinner : (Decl.checkAll t.size (decls.map (Decl.relabel r))
          ((t.relabel r).push ctx.scope)).andThen
          (Stmt.checkAll { ctx.relabel r with scope := t.size } (Stmt.relabelAll r stmts)) =
        ((Decl.checkAll t.size decls (t.push ctx.scope)).andThen
          (Stmt.checkAll { ctx with scope := t.size } stmts)).relabel r := by
      rw [ScopeTree.push_relabel]
      exact Checked.andThen_relabel (Decl.checkAll_relabel t.size decls _)
        (Stmt.checkAll_relabel { ctx with scope := t.size } stmts)
    rw [Block.relabel, Block.check, Block.check, ScopeTree.size_relabel]
    exact Checked.prepend_relabel rfl (Checked.andThen_relabel hinner fun _ => rfl)

end

/-! ## Units -/

mutual

theorem Stmt.returnsValue_relabel : ∀ s : Stmt, (s.relabel r).returnsValue = s.returnsValue
  | .block body => body.returnsValue_relabel
  | .ifThen _ body _ => body.returnsValue_relabel
  | .ifElse _ body alternative _ => by
    rw [Stmt.relabel, Stmt.returnsValue, Stmt.returnsValue, body.returnsValue_relabel,
      alternative.returnsValue_relabel]
  | .whileLoop _ body _ => body.returnsValue_relabel
  | .forLoop _ _ _ body _ => body.returnsValue_relabel
  | .jump _ _ => rfl
  | .returnStmt value _ => Option.isSome_map
  | .expr _ _ => rfl

theorem Stmt.anyReturnsValue_relabel : ∀ ss : List Stmt,
    Stmt.anyReturnsValue (Stmt.relabelAll r ss) = Stmt.anyReturnsValue ss
  | [] => rfl
  | s :: rest => by
    have hleaves : (s.relabel r).leaves = s.leaves := by cases s <;> rfl
    rw [Stmt.relabelAll, Stmt.anyReturnsValue, Stmt.anyReturnsValue, s.returnsValue_relabel,
      hleaves, Stmt.anyReturnsValue_relabel rest]

theorem Block.returnsValue_relabel : ∀ b : Block, (b.relabel r).returnsValue = b.returnsValue
  | .mk _ stmts _ => Stmt.anyReturnsValue_relabel stmts

end

theorem Prototype.checkBody_relabel (returnTypes : Bool) (p : Prototype) (body : Block)
    (t : ScopeTree) :
    (p.relabel r).checkBody returnTypes (body.relabel r) (t.relabel r) =
      (p.checkBody returnTypes body t).relabel r := by
  have hinner : ((Parameter.checkAll t.size (p.relabel r).parameters
        ((t.relabel r).push ScopeTree.root)).andThen
        (Decl.checkAll t.size (body.relabel r).decls)).andThen
        (Stmt.checkAll ⟨returnTypes, p.relabel r, t.size, false⟩ (body.relabel r).stmts) =
      (((Parameter.checkAll t.size p.parameters (t.push ScopeTree.root)).andThen
        (Decl.checkAll t.size body.decls)).andThen
        (Stmt.checkAll ⟨returnTypes, p, t.size, false⟩ body.stmts)).relabel r := by
    rcases body with ⟨decls, stmts, l⟩
    rw [ScopeTree.push_relabel]
    exact Checked.andThen_relabel (Checked.andThen_relabel
        (Parameter.checkAll_relabel t.size p.parameters _) (Decl.checkAll_relabel t.size decls))
      (Stmt.checkAll_relabel ⟨returnTypes, p, t.size, false⟩ stmts)
  unfold checkBody
  rw [ScopeTree.size_relabel, Block.returnsValue_relabel]
  refine Checked.prepend_relabel rfl (Checked.andThen_relabel hinner fun t => ?_)
  have hreturn : (p.relabel r).returnType = p.returnType := rfl
  rw [hreturn]
  cases p.returnType.isVoid || body.returnsValue <;> rfl

theorem External.check_relabel (returnTypes : Bool) (d : External) (t : ScopeTree) :
    (d.relabel r).check returnTypes (t.relabel r) = (d.check returnTypes t).relabel r := by
  cases d with
  | decl d => exact d.check_relabel ScopeTree.root t
  | definition p body =>
    exact Checked.andThen_relabel (t.declare_relabel ScopeTree.root (.function p true))
      (p.checkBody_relabel returnTypes body)

theorem External.checkAll_relabel (returnTypes : Bool) (ds : List External) (t : ScopeTree) :
    checkAll returnTypes (ds.map (External.relabel r)) (t.relabel r) =
      (checkAll returnTypes ds t).relabel r := by
  induction ds generalizing t with
  | nil => rfl
  | cons d rest ih => exact Checked.andThen_relabel (d.check_relabel returnTypes t) ih

theorem CompilationUnit.mainFaults_relabel (u : CompilationUnit) :
    (u.relabel r).mainFaults = u.mainFaults.map (Diagnostic.relabel r) := by
  have hmain : External.isMain ∘ External.relabel r = External.isMain := by
    funext d
    cases d <;> rfl
  have hfound : ((u.relabel r).decls.filter External.isMain).length =
      (u.decls.filter External.isMain).length := by
    rw [relabel, List.filter_map, List.length_map, hmain]
  rw [mainFaults, mainFaults, hfound]
  by_cases h : (u.decls.filter External.isMain).length = 1 <;> simp only [h] <;> rfl

/-- The report of a unit with its labels changed is its report with its labels changed. -/
theorem CompilationUnit.check_relabel (u : CompilationUnit) (returnTypes : Bool) :
    (u.relabel r).check returnTypes = (u.check returnTypes).relabel r := by
  have hwalk : External.checkAll returnTypes (u.decls.map (External.relabel r)) .initial =
      (External.checkAll returnTypes u.decls .initial).relabel r :=
    External.checkAll_relabel returnTypes u.decls .initial
  rw [check, check, mainFaults_relabel, ← Findings.relabel_ofDiagnostics, relabel, hwalk]
  simp only [Checked.relabel, Report.relabel, Findings.relabel_append]

end CSubset
