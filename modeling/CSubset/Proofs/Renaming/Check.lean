-- SUMMARY: The checker treats all names alike, apart from main.
import CSubset.Proofs.Check.Expr
import CSubset.Proofs.Renaming.Findings
import CSubset.Proofs.Typing.Annotations

/-!
# Checking with other names

Two runs of the checker are followed side by side: one over a program, and one over the program
with other names. They open the same scopes, bind the same declarations and come to the same
types, and every diagnostic of the second run has the cause of its counterpart. This is shown
along the walk, for rules, expressions, declarations, statements and declarations at file level.
Only the number of functions `main` depends on a name as such.
-/

namespace CSubset

open Diagnostic (RenamedAll)

variable {r : String → String} {P : String → Prop} {names names' : Names}

/-! ## Rules -/

namespace Rule

theorem operator_renamed (result : Option ValueType) {m : Mismatch} (hm : m.Uses P)
    (l : Location) :
    Verdict.Renamed r P (operator result m l) (operator result (m.rename r) l) := by
  cases result with
  | some t => exact ⟨rfl, .nil⟩
  | none => exact ⟨rfl, .single (.mismatch m l) hm⟩

theorem unary_renamed (op : UnaryOp) (operand : ValueType) (l : Location) :
    Verdict.Renamed r P (unary op operand l) (unary op operand l) := by
  have hsymbol : (Mismatch.operand op.symbol operand).Uses P := ⟨op, rfl⟩
  exact operator_renamed _ hsymbol l

theorem binary_renamed (op : BinaryOp) (left right : ValueType) (l : Location) :
    Verdict.Renamed r P (binary op left right l) (binary op left right l) := by
  have hsymbol : (Mismatch.operands op.symbol left right).Uses P := .inl ⟨op, rfl⟩
  exact operator_renamed _ hsymbol l

theorem index_renamed (base subscript : ValueType) (l k : Location) :
    Verdict.Renamed r P (index base subscript l k) (index base subscript l k) := by
  have hsubscript := RenamedAll.fitting (r := r) (P := P) (.mismatch (.subscript subscript) k)
    trivial (subscript = .invalid ∨ subscript.isIntegral)
  unfold index
  dsimp only
  split
  · exact ⟨rfl, hsubscript⟩
  · cases base.pointee? with
    | some t => exact ⟨rfl, hsubscript⟩
    | none => exact ⟨rfl, hsubscript.append (.single (.mismatch (.indexed base) l) trivial)⟩

theorem writable_rename (s : Symbol) : writable (s.rename r) = writable s := by
  cases s <;> rfl

theorem denotesStorage_rename (hnames : Names.Renamed r names names') (e : Expr) :
    denotesStorage names' (e.rename r) = denotesStorage names e := by
  cases e with
  | ident a name =>
    simp only [Expr.rename, denotesStorage, hnames name, Option.all_map]
    congr 1
    funext s
    exact writable_rename s
  | unary a op operand => cases op <;> rfl
  | literal | binary | assign | call | index => rfl

theorem store_renamed (stored target : ValueType) (l : Location) :
    Verdict.Renamed r P (store stored target l) (store stored target l) :=
  ⟨rfl, .fitting (.mismatch (.assigned stored target) l) trivial _⟩

theorem assign_renamed (hnames : Names.Renamed r names names') (op : AssignOp) {e : Expr}
    (he : ∀ name ∈ e.names, P name) (target value : ValueType) (l : Location) :
    Verdict.Renamed r P (assign names op e target value l)
      (assign names' op (e.rename r) target value l) := by
  unfold assign
  rw [denotesStorage_rename hnames, Expr.rename_location]
  cases denotesStorage names e with
  | false => exact ⟨rfl, .single (.notAssignable e e.location) he⟩
  | true =>
    cases op with
    | plain => exact store_renamed value target l
    | compound arith =>
      simp only [Bool.not_true, Bool.false_eq_true, if_false]
      cases (BinaryOp.arith arith).result? target value with
      | some stored => exact store_renamed stored target l
      | none =>
        exact ⟨rfl, .single (.mismatch (.operands (AssignOp.compound arith).symbol target value) l)
          (.inr ⟨_, rfl⟩)⟩

/-- The function that is reached is the same one, and it bears the name by which it is called. -/
theorem callee_renamed (hnames : Names.Renamed r names names') (hproper : names.Proper) {e : Expr}
    (he : ∀ name ∈ e.names, P name) (type : ValueType) :
    (callee names' (e.rename r) type).1 = (callee names e type).1.map (Prototype.rename r) ∧
      RenamedAll r P (callee names e type).2 (callee names' (e.rename r) type).2 ∧
      ∀ p ∈ (callee names e type).1, P p.name := by
  have hother : RenamedAll r P
      (if type = .invalid then [] else [(Mismatch.calledValue type).report e.location])
      (if type = .invalid then [] else [(Mismatch.calledValue type).report e.location]) :=
    .fitting (.mismatch (.calledValue type) e.location) trivial _
  have hnone : ∀ p ∈ (none : Option Prototype), P p.name := by
    intro p hp
    cases hp
  cases e with
  | ident a name =>
    have hname : P name := he name (List.mem_singleton.mpr rfl)
    simp only [Expr.rename, callee, hnames name]
    cases hs : names name with
    | none => exact ⟨rfl, .nil, hnone⟩
    | some s =>
      cases s with
      | function p defined =>
        refine ⟨rfl, .nil, ?_⟩
        intro q hq
        obtain rfl := Option.some.inj hq
        have hp : p.name = name := hproper name _ hs
        rwa [hp]
      | var | parameter =>
        exact ⟨rfl, .single (.mismatch (.calledName name) a.location) hname, hnone⟩
  | literal | unary | binary | assign | call | index => exact ⟨rfl, hother, hnone⟩

theorem arguments_renamed {function : String} (hfunction : P function) (position : Nat)
    (ps : List Parameter) (args : List (ValueType × Location)) :
    RenamedAll r P (arguments function position ps args)
      (arguments (r function) position (ps.map (Parameter.rename r)) args) := by
  induction ps generalizing position args with
  | nil => exact .nil
  | cons p ps ih =>
    rcases args with _ | ⟨⟨t, l⟩, rest⟩
    · exact .nil
    · exact (RenamedAll.fitting
        (.mismatch (.argument position function (.ofDeclared p.type) t) l) hfunction _).append
        (ih (position + 1) rest)

theorem call_renamed {function : Option Prototype} (hfunction : ∀ p ∈ function, P p.name)
    (args : List (ValueType × Location)) (l : Location) :
    Verdict.Renamed r P (call function args l)
      (call (function.map (Prototype.rename r)) args l) := by
  cases function with
  | none => exact ⟨rfl, .nil⟩
  | some p =>
    have hp : P p.name := hfunction p rfl
    have htakes : takes (p.rename r) args.length = takes p args.length := by
      simp only [takes, Prototype.rename, List.length_map]
    have hlength : (p.rename r).parameters.length = p.parameters.length := List.length_map ..
    refine ⟨rfl, ?_⟩
    rw [Option.map_some, call, call, htakes, hlength]
    exact (RenamedAll.fitting
      (.arity p.name p.parameters.length args.length p.variadic l) hp _).append
      (arguments_renamed hp 1 p.parameters args)

end Rule

/-! ## Expressions -/

namespace Expr

mutual

theorem check_renamed (hnames : Names.Renamed r names names') (hproper : names.Proper) :
    ∀ e : Expr, (∀ name ∈ e.names, P name) →
      (e.check names).Renamed r P ((e.rename r).check names')
  | .literal a value, _ => Findings.Renamed.conclude a.id .none ⟨rfl, .nil⟩
  | .ident a name, he => by
    have hname : P name := he name (List.mem_singleton.mpr rfl)
    simp only [rename, check, hnames name]
    cases names name with
    | none =>
      exact Findings.Renamed.conclude a.id .none
        ⟨rfl, .single (.undefined name a.location) hname⟩
    | some s =>
      exact Findings.Renamed.conclude a.id (.ofSymbol a.id s) ⟨s.rename_valueType, .nil⟩
  | .unary a op operand, he => by
    have h := check_renamed hnames hproper operand he
    rw [rename, check, check, h.1]
    exact Findings.Renamed.conclude a.id h.2 (Rule.unary_renamed op _ _)
  | .binary a op left right, he => by
    obtain ⟨hleft, hright⟩ := List.forall_mem_append.mp he
    have hl := check_renamed hnames hproper left hleft
    have hr := check_renamed hnames hproper right hright
    rw [rename, check, check, hl.1, hr.1]
    exact Findings.Renamed.conclude a.id (hl.2.append hr.2)
      (Rule.binary_renamed op _ _ _)
  | .assign a op target value, he => by
    obtain ⟨htarget, hvalue⟩ := List.forall_mem_append.mp he
    have ht := check_renamed hnames hproper target htarget
    have hv := check_renamed hnames hproper value hvalue
    rw [rename, check, check, ht.1, hv.1, rename_location]
    exact Findings.Renamed.conclude a.id (ht.2.append hv.2)
      (Rule.assign_renamed hnames op htarget _ _ _)
  | .call a callee args, he => by
    obtain ⟨hcallee, hargs⟩ := List.forall_mem_append.mp he
    have hf := check_renamed hnames hproper callee hcallee
    have ha := checkAll_renamed hnames hproper args hargs
    obtain ⟨hfunction, hwrong, hname⟩ :=
      Rule.callee_renamed (r := r) hnames hproper hcallee (callee.check names).type
    rw [rename, check_call, check_call, hf.1, hfunction, ha.1]
    have hbefore := hf.2.append ((Findings.Renamed.ofDiagnostics hwrong).append ha.2)
    exact Findings.Renamed.conclude a.id hbefore (Rule.call_renamed hname _ _)
  | .index a base subscript, he => by
    obtain ⟨hbase, hsubscript⟩ := List.forall_mem_append.mp he
    have hb := check_renamed hnames hproper base hbase
    have hs := check_renamed hnames hproper subscript hsubscript
    rw [rename, check, check, hb.1, hs.1, rename_location, rename_location]
    exact Findings.Renamed.conclude a.id (hb.2.append hs.2) (Rule.index_renamed _ _ _ _)

theorem checkAll_renamed (hnames : Names.Renamed r names names') (hproper : names.Proper) :
    ∀ es : List Expr, (∀ name ∈ namesAll es, P name) →
      (checkAll names' (renameAll r es)).1 = (checkAll names es).1 ∧
        (checkAll names es).2.Renamed r P (checkAll names' (renameAll r es)).2
  | [], _ => ⟨rfl, .none⟩
  | e :: rest, hes => by
    obtain ⟨hfirst, hrest⟩ := List.forall_mem_append.mp hes
    have he := check_renamed hnames hproper e hfirst
    have hs := checkAll_renamed hnames hproper rest hrest
    rw [renameAll, checkAll_cons, checkAll_cons, he.1, hs.1, rename_location]
    exact ⟨rfl, he.2.append hs.2⟩

end

theorem checkCondition_renamed (hnames : Names.Renamed r names names') (hproper : names.Proper)
    {e : Expr} (he : ∀ name ∈ e.names, P name) :
    (e.checkCondition names).Renamed r P ((e.rename r).checkCondition names') := by
  have h := e.check_renamed hnames hproper he
  unfold checkCondition
  dsimp only
  rw [h.1, rename_location]
  exact h.2.append (.ofDiagnostics (.fitting (.mismatch (.condition _) _) trivial _))

end Expr

theorem optionalFindings_renamed {f f' : Expr → Findings} {e : Option Expr}
    (he : ∀ name ∈ Expr.optionalNames e, P name)
    (h : ∀ e : Expr, (∀ name ∈ e.names, P name) → (f e).Renamed r P (f' (e.rename r))) :
    (optionalFindings f e).Renamed r P (optionalFindings f' (e.map (Expr.rename r))) := by
  cases e with
  | none => exact .none
  | some e => exact h e he

/-! ## Declarations -/

theorem Variable.check_renamed (hnames : Names.Renamed r names names') (hproper : names.Proper)
    {v : Variable} (hv : ∀ name ∈ (Decl.var v).names, P name) :
    (v.check names).Renamed r P ((v.rename r).check names') := by
  obtain ⟨hname, hinitializer⟩ := List.forall_mem_cons.mp hv
  obtain ⟨type, name, initializer, storage, l⟩ := v
  refine Findings.Renamed.append
    (.ofDiagnostics ((RenamedAll.single (.mismatch (.voidVariable name) l) hname).guarded _)) ?_
  cases initializer with
  | none => exact .none
  | some e =>
    have h := e.check_renamed hnames hproper hinitializer
    dsimp only [rename, Option.map_some]
    rw [h.1, e.rename_location]
    exact h.2.append (.ofDiagnostics
      (.fitting (.mismatch (.initializer name (.ofDeclared type) _) _) hname _))

section

variable (hr : Function.Injective r)

include hr

theorem Decl.check_renamed (scope : Nat) {d : Decl} (hd : ∀ name ∈ d.names, P name)
    (t : ScopeTree) :
    (d.check scope t).Renamed r P ((d.rename r).check scope (t.rename r)) := by
  have hname : P d.symbol.name := by
    refine hd _ ?_
    cases d <;> exact List.mem_cons_self
  unfold check
  rw [Decl.symbol_rename]
  refine Checked.Renamed.prepend ?_ (t.declare_renamed hr scope hname)
  cases d with
  | function p => exact .none
  | var v => exact Variable.check_renamed (t.lookup_renamed hr scope) (t.lookup_proper scope) hd

theorem Decl.checkAll_renamed (scope : Nat) {ds : List Decl}
    (hds : ∀ name ∈ ds.flatMap Decl.names, P name) (t : ScopeTree) :
    (checkAll scope ds t).Renamed r P
      (checkAll scope (ds.map (Decl.rename r)) (t.rename r)) := by
  induction ds generalizing t with
  | nil => exact .still .none t
  | cons d rest ih =>
    rw [List.flatMap_cons] at hds
    obtain ⟨hd, hrest⟩ := List.forall_mem_append.mp hds
    exact (Decl.check_renamed hr scope hd t).andThen (ih hrest)

theorem Parameter.checkAll_renamed (scope : Nat) {ps : List Parameter}
    (hps : ∀ name ∈ ps.map Parameter.name, P name) (t : ScopeTree) :
    (checkAll scope ps t).Renamed r P
      (checkAll scope (ps.map (Parameter.rename r)) (t.rename r)) := by
  induction ps generalizing t with
  | nil => exact .still .none t
  | cons p rest ih =>
    obtain ⟨hp, hrest⟩ := List.forall_mem_cons.mp hps
    have hdeclare : (t.declare scope (.parameter p)).Renamed r P _ :=
      t.declare_renamed hr scope hp
    have hvoid := RenamedAll.single (r := r) (.mismatch (.voidParameter p.name) p.location) hp
    exact Checked.Renamed.andThen (hdeclare.prepend (.ofDiagnostics (hvoid.guarded _))) (ih hrest)

end

/-! ## Statements -/

/-- Where a statement is checked, with other names for its function. -/
def Context.rename (r : String → String) (ctx : Context) : Context :=
  { ctx with function := ctx.function.rename r }

theorem Prototype.returnFaults_renamed {p : Prototype} (hp : P p.name) (value : ValueType)
    (l : Location) :
    RenamedAll r P (p.returnFaults value l) ((p.rename r).returnFaults value l) := by
  have hreturn : (p.rename r).returnType = p.returnType := rfl
  rw [returnFaults, returnFaults, hreturn]
  by_cases hvoid : p.returnType.isVoid = true
  · rw [if_pos hvoid, if_pos hvoid]
    exact .single (.mismatch (.returnFromVoid p.name) l) hp
  · rw [if_neg hvoid, if_neg hvoid]
    exact .fitting (.mismatch (.returnValue p.name (.ofDeclared p.returnType) value) l) hp _

section

variable (hr : Function.Injective r)

include hr

theorem Expr.findings_renamed (t : ScopeTree) (n : Nat) (e : Expr) (he : ∀ name ∈ e.names, P name) :
    (e.check (t.lookup n)).findings.Renamed r P
      ((e.rename r).check ((t.rename r).lookup n)).findings :=
  (e.check_renamed (t.lookup_renamed hr n) (t.lookup_proper n) he).2

theorem Expr.condition_renamed (t : ScopeTree) (n : Nat) (e : Expr)
    (he : ∀ name ∈ e.names, P name) :
    (e.checkCondition (t.lookup n)).Renamed r P
      ((e.rename r).checkCondition ((t.rename r).lookup n)) :=
  checkCondition_renamed (t.lookup_renamed hr n) (t.lookup_proper n) he

end

mutual

theorem Stmt.check_renamed (hr : Function.Injective r) {ctx : Context}
    (hctx : P ctx.function.name) :
    ∀ s : Stmt, (∀ name ∈ s.names, P name) → ∀ t : ScopeTree,
      (s.check ctx t).Renamed r P ((s.rename r).check (ctx.rename r) (t.rename r))
  | .block body, hs, t => body.check_renamed hr hctx hs t
  | .ifThen condition body l, hs, t => by
    obtain ⟨hcondition, hbody⟩ := List.forall_mem_append.mp hs
    have h := body.check_renamed hr hctx hbody t
    exact h.prepend (condition.condition_renamed hr t _ hcondition)
  | .ifElse condition body alternative l, hs, t => by
    obtain ⟨hcondition, hbodies⟩ := List.forall_mem_append.mp hs
    obtain ⟨hbody, halternative⟩ := List.forall_mem_append.mp hbodies
    exact ((body.check_renamed hr hctx hbody t).andThen
      (alternative.check_renamed hr hctx halternative)).prepend
      (condition.condition_renamed hr t _ hcondition)
  | .whileLoop condition body l, hs, t => by
    obtain ⟨hcondition, hbody⟩ := List.forall_mem_append.mp hs
    have hloop : P { ctx with inLoop := true }.function.name := hctx
    have h := body.check_renamed hr hloop hbody t
    exact h.prepend (condition.condition_renamed hr t _ hcondition)
  | .forLoop first condition step body l, hs, t => by
    obtain ⟨hfirst, hs⟩ := List.forall_mem_append.mp hs
    obtain ⟨hcondition, hs⟩ := List.forall_mem_append.mp hs
    obtain ⟨hstep, hbody⟩ := List.forall_mem_append.mp hs
    have hloop : P { ctx with inLoop := true }.function.name := hctx
    have h := body.check_renamed hr hloop hbody t
    refine h.prepend ((optionalFindings_renamed hfirst ?_).append
      ((optionalFindings_renamed hcondition ?_).append (optionalFindings_renamed hstep ?_)))
    · exact Expr.findings_renamed hr t ctx.scope
    · exact Expr.condition_renamed hr t ctx.scope
    · exact Expr.findings_renamed hr t ctx.scope
  | .jump kind l, _, t =>
    .still (.ofDiagnostics (.fitting (.jump kind l) trivial _)) t
  | .returnStmt value l, hs, t => by
    refine .still (optionalFindings_renamed hs fun e he => ?_) t
    have h := e.check_renamed (t.lookup_renamed hr ctx.scope) (t.lookup_proper ctx.scope) he
    dsimp only [Context.rename]
    rw [h.1]
    exact h.2.append (.ofDiagnostics ((Prototype.returnFaults_renamed hctx _ l).guarded _))
  | .expr e l, hs, t => .still (e.findings_renamed hr t _ hs) t

theorem Stmt.checkAll_renamed (hr : Function.Injective r) {ctx : Context}
    (hctx : P ctx.function.name) :
    ∀ ss : List Stmt, (∀ name ∈ Stmt.namesAll ss, P name) → ∀ t : ScopeTree,
      (Stmt.checkAll ctx ss t).Renamed r P
        (Stmt.checkAll (ctx.rename r) (Stmt.renameAll r ss) (t.rename r))
  | [], _, t => .still .none t
  | s :: rest, hss, t => by
    obtain ⟨hs, hrest⟩ := List.forall_mem_append.mp hss
    exact (s.check_renamed hr hctx hs t).andThen (Stmt.checkAll_renamed hr hctx rest hrest)

theorem Block.check_renamed (hr : Function.Injective r) {ctx : Context}
    (hctx : P ctx.function.name) :
    ∀ b : Block, (∀ name ∈ b.names, P name) → ∀ t : ScopeTree,
      (b.check ctx t).Renamed r P ((b.rename r).check (ctx.rename r) (t.rename r))
  | .mk decls stmts l, hb, t => by
    obtain ⟨hdecls, hstmts⟩ := List.forall_mem_append.mp hb
    have hd := Decl.checkAll_renamed hr t.size hdecls (t.push ctx.scope)
    have hinner : P { ctx with scope := t.size }.function.name := hctx
    have hs := Stmt.checkAll_renamed hr hinner stmts hstmts
    rw [Block.rename, Block.check, Block.check, ScopeTree.size_rename]
    refine Checked.Renamed.prepend (.ofEvents (.cons (.enterScope _ _) .nil)) ?_
    refine Checked.Renamed.andThen ?_ fun t' => .still (.ofEvents (.cons (.leaveScope _) .nil)) t'
    rw [← ScopeTree.push_rename] at hd
    exact hd.andThen hs

end

/-! ## Declarations at file level -/

mutual

theorem Stmt.returnsValue_rename : ∀ s : Stmt, (s.rename r).returnsValue = s.returnsValue
  | .block body => body.returnsValue_rename
  | .ifThen _ body _ => body.returnsValue_rename
  | .ifElse _ body alternative _ => by
    rw [Stmt.rename, Stmt.returnsValue, Stmt.returnsValue, body.returnsValue_rename,
      alternative.returnsValue_rename]
  | .whileLoop _ body _ => body.returnsValue_rename
  | .forLoop _ _ _ body _ => body.returnsValue_rename
  | .jump _ _ => rfl
  | .returnStmt value _ => Option.isSome_map
  | .expr _ _ => rfl

theorem Stmt.anyReturnsValue_rename : ∀ ss : List Stmt,
    Stmt.anyReturnsValue (Stmt.renameAll r ss) = Stmt.anyReturnsValue ss
  | [] => rfl
  | s :: rest => by
    have hleaves : (s.rename r).leaves = s.leaves := by cases s <;> rfl
    rw [Stmt.renameAll, Stmt.anyReturnsValue, Stmt.anyReturnsValue, s.returnsValue_rename,
      hleaves, Stmt.anyReturnsValue_rename rest]

theorem Block.returnsValue_rename : ∀ b : Block, (b.rename r).returnsValue = b.returnsValue
  | .mk _ stmts _ => Stmt.anyReturnsValue_rename stmts

end

section

variable (hr : Function.Injective r)

include hr

theorem Prototype.checkBody_renamed (returnTypes : Bool) {p : Prototype} {body : Block}
    (hp : ∀ name ∈ p.names, P name) (hbody : ∀ name ∈ body.names, P name) (t : ScopeTree) :
    (p.checkBody returnTypes body t).Renamed r P
      ((p.rename r).checkBody returnTypes (body.rename r) (t.rename r)) := by
  obtain ⟨decls, stmts, l⟩ := body
  obtain ⟨hname, hparameters⟩ := List.forall_mem_cons.mp hp
  obtain ⟨hdecls, hstmts⟩ := List.forall_mem_append.mp hbody
  have hsignature := Parameter.checkAll_renamed hr t.size hparameters (t.push ScopeTree.root)
  have hd := Decl.checkAll_renamed hr t.size hdecls
  have hcontext : P (Context.mk returnTypes p t.size false).function.name := hname
  have hs := Stmt.checkAll_renamed hr hcontext stmts hstmts
  have hreturn : (p.rename r).returnType = p.returnType := rfl
  rw [← ScopeTree.push_rename] at hsignature
  unfold checkBody
  rw [ScopeTree.size_rename, Block.returnsValue_rename, hreturn]
  refine Checked.Renamed.prepend (.ofEvents (.cons (.enterScope _ _) .nil)) ?_
  refine Checked.Renamed.andThen ((hsignature.andThen hd).andThen hs) fun t' => ?_
  refine .still (.ofEvents (.cons (.leaveFunction p.name) ?_)) t'
  split
  · exact .nil
  · exact .cons (.diagnostic ⟨.missingReturn p.name p.location, hname, rfl, rfl⟩) .nil

theorem External.check_renamed (returnTypes : Bool) {d : External} (hd : ∀ name ∈ d.names, P name)
    (t : ScopeTree) :
    (d.check returnTypes t).Renamed r P ((d.rename r).check returnTypes (t.rename r)) := by
  cases d with
  | decl d => exact Decl.check_renamed hr ScopeTree.root hd t
  | definition p body =>
    obtain ⟨hp, hbody⟩ := List.forall_mem_append.mp hd
    have hdeclare := t.declare_renamed hr (x := .function p true) ScopeTree.root
      (hp p.name List.mem_cons_self)
    exact hdeclare.andThen (Prototype.checkBody_renamed hr returnTypes hp hbody)

/-- Declarations at file level with other names are checked like the declarations themselves. -/
theorem External.checkAll_renamed (returnTypes : Bool) {ds : List External}
    (hds : ∀ name ∈ ds.flatMap External.names, P name) (t : ScopeTree) :
    (checkAll returnTypes ds t).Renamed r P
      (checkAll returnTypes (ds.map (External.rename r)) (t.rename r)) := by
  induction ds generalizing t with
  | nil => exact .still .none t
  | cons d rest ih =>
    rw [List.flatMap_cons] at hds
    obtain ⟨hd, hrest⟩ := List.forall_mem_append.mp hds
    exact (External.check_renamed hr returnTypes hd t).andThen (ih hrest)

end

/-- Every diagnostic about declarations at file level has a cause that is made of their names. -/
theorem External.checkAll_causes (returnTypes : Bool) {ds : List External}
    (hds : ∀ name ∈ ds.flatMap External.names, P name) (t : ScopeTree) :
    ∀ d ∈ (checkAll returnTypes ds t).findings.diagnostics,
      ∃ c : Cause, c.Uses P ∧ d = c.diagnostic :=
  (checkAll_renamed Function.injective_id returnTypes hds t).2.diagnostics.causes

end CSubset
