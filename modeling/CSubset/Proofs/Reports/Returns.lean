-- SUMMARY: Not checking the types of returned values takes away the reports at return keywords, and changes nothing else.
import Mathlib.Tactic
import CSubset.Proofs.Grammar.Returns
import CSubset.Proofs.Reports.Unit
import CSubset.Proofs.Typing.Annotations

/-!
# Reports of returned values

A unit is checked twice, strictly and without a look at the types of returned values. The two runs
go through the same scopes and fill the same tables, and what the second leaves out is what the
first says at return keywords. That the left out reports can be told by their positions is due to
the tokens: all other mismatches are at positions in expressions and at declared names, and those
are read from tokens that are no `return`. So the runs are compared along the derivation of the
unit, where the tokens of every piece are at hand.
-/

namespace CSubset

open Grammar

/-! ## Reports at marked positions -/

/-- Whether a diagnostic is a mismatch at a marked position. -/
def Diagnostic.mismatchAt (marked : Location → Bool) (d : Diagnostic) : Bool :=
  d.kind = .typeMismatch && d.location?.any marked

/-- Whether a function can return a value of a type; what is wrong already is let pass. -/
def Prototype.accepts (p : Prototype) (t : ValueType) : Bool :=
  !p.returnType.isVoid && (t = .invalid || t.assignableTo (.ofDeclared p.returnType))

/-- What is wrong with a value of a type that a function cannot return. -/
def Prototype.returnMismatch (p : Prototype) (t : ValueType) : Mismatch :=
  if p.returnType.isVoid then .returnFromVoid p.name
  else .returnValue p.name (.ofDeclared p.returnType) t

/-- What is reported of a return with a value that its function cannot return, if `typeOf` gives
the types of expression nodes. -/
def PlacedStmt.returnReport? (typeOf : Nat → Option ValueType) (x : PlacedStmt) :
    Option Diagnostic :=
  x.stmt.return?.bind fun r => r.1.bind fun e => (typeOf e.id).bind fun t =>
    if x.function.accepts t then none else some ((x.function.returnMismatch t).report r.2)

theorem Prototype.returnFaults_eq (p : Prototype) (t : ValueType) (l : Location) :
    p.returnFaults t l = if p.accepts t then [] else [(p.returnMismatch t).report l] := by
  unfold returnFaults accepts returnMismatch
  cases p.returnType.isVoid with
  | true => rfl
  | false =>
    by_cases ht : t = .invalid
    · subst ht
      rfl
    · simp [ht]

/-- The tokens stand at different positions, of which those of return keywords are marked. -/
structure MarksReturns (marked : Location → Bool) (ts : List Token) : Prop where
  nodup : (ts.map Token.location).Nodup
  tells : ∀ t ∈ ts, marked t.location = t.isReturn

/-- Nothing of what is reported is a mismatch at a marked position. -/
def Clear (marked : Location → Bool) (ds : List Diagnostic) : Prop :=
  ∀ d ∈ ds, d.mismatchAt marked = false

variable {marked : Location → Bool} {ts us : List Token} {ls : List Location}
  {ds ds' : List Diagnostic}

namespace MarksReturns

theorem narrow (h : MarksReturns marked us) (hs : ts.Sublist us) : MarksReturns marked ts :=
  ⟨(hs.map _).nodup h.nodup, fun t ht => h.tells t (hs.subset ht)⟩

theorem tail {t : Token} (h : MarksReturns marked (t :: ts)) : MarksReturns marked ts :=
  h.narrow (List.sublist_cons_self _ _)

theorem left (h : MarksReturns marked (ts ++ us)) : MarksReturns marked ts :=
  h.narrow (List.sublist_append_left _ _)

theorem right (h : MarksReturns marked (ts ++ us)) : MarksReturns marked us :=
  h.narrow (List.sublist_append_right _ _)

/-- The positions in a phrase without a return keyword are not marked. -/
theorem unmarked (h : MarksReturns marked ts) (hr : Returns ts []) (hm : Marks ts ls) :
    ∀ l ∈ ls, marked l = false := by
  intro l hl
  obtain ⟨t, ht, rfl⟩ := List.mem_map.mp (hm.subset hl)
  rw [h.tells t ht, ← Bool.not_eq_true]
  exact List.filter_eq_nil_iff.mp (List.map_eq_nil_iff.mp hr) t ht

/-- What is reported at the positions in such a phrase is no mismatch at a marked one. -/
theorem clear (h : MarksReturns marked ts) (hr : Returns ts []) (hm : Marks ts ls)
    (hd : ls.Nodup → Distinct ls ds) : Clear marked ds := by
  intro d hmem
  obtain ⟨l, hl, hlocation⟩ := (hd (List.Sublist.nodup hm h.nodup)).within d hmem
  rw [Diagnostic.mismatchAt, hlocation, Option.any_some, h.unmarked hr hm l hl, Bool.and_false]

end MarksReturns

namespace Clear

theorem append (h : Clear marked ds) (h' : Clear marked ds') : Clear marked (ds ++ ds') :=
  List.forall_mem_append.mpr ⟨h, h'⟩

theorem nil : Clear marked [] := List.forall_mem_nil _

theorem ofKind {p : Diagnostic.Kind → Bool} (h : OfKind p ds) (hp : p .typeMismatch = false) :
    Clear marked ds := by
  intro d hd
  have hkind : d.kind ≠ .typeMismatch := by
    intro heq
    have hpd := h d hd
    rw [heq, hp] at hpd
    cases hpd
  rw [Diagnostic.mismatchAt, decide_eq_false hkind, Bool.false_and]

theorem filter_eq_nil (h : Clear marked ds) : ds.filter (Diagnostic.mismatchAt marked) = [] :=
  List.filter_eq_nil_iff.mpr fun d hd => by rw [h d hd]; exact Bool.false_ne_true

theorem filter_eq_self (h : Clear marked ds) :
    ds.filter (fun d => !d.mismatchAt marked) = ds :=
  List.filter_eq_self.mpr fun d hd => by rw [h d hd]; rfl

end Clear

/-! ## Two runs over a piece -/

/-- Two runs over a piece with these statements: the lenient one is like the strict one, only that
it leaves out the mismatches at marked positions. If `typeOf` gives the types that the strict run
records, those are what is reported of the returns in the piece. -/
structure Relaxed (marked : Location → Bool) (typeOf : Nat → Option ValueType)
    (xs : List PlacedStmt) (strict lenient : Checked) : Prop where
  scopes : lenient.scopes = strict.scopes
  types : lenient.findings.types = strict.findings.types
  symbols : lenient.findings.symbols = strict.findings.symbols
  kept : lenient.findings.diagnostics =
    strict.findings.diagnostics.filter fun d => !d.mismatchAt marked
  removed : (∀ e ∈ strict.findings.types, typeOf e.1 = some e.2) →
    strict.findings.diagnostics.filter (Diagnostic.mismatchAt marked) =
      xs.filterMap (PlacedStmt.returnReport? typeOf)
  recorded : ∀ x ∈ xs, ∀ e l, x.stmt.return? = some (some e, l) →
    e.id ∈ strict.findings.types.map Prod.fst

namespace Relaxed

variable {typeOf : Nat → Option ValueType} {xs ys : List PlacedStmt} {c c' : Checked} {f : Findings}

/-- A piece that is checked in one way. -/
theorem same (h : Clear marked c.findings.diagnostics) : Relaxed marked typeOf [] c c := by
  refine ⟨rfl, rfl, rfl, h.filter_eq_self.symm, fun _ => h.filter_eq_nil, ?_⟩
  exact List.forall_mem_nil _

/-- Pieces one behind the other; what comes next depends on the scopes alone. -/
theorem andThen {next next' : ScopeTree → Checked} (h : Relaxed marked typeOf xs c c')
    (h' : ∀ t, Relaxed marked typeOf ys (next t) (next' t)) :
    Relaxed marked typeOf (xs ++ ys) (c.andThen next) (c'.andThen next') := by
  have hnext := h' c.scopes
  unfold Checked.andThen
  rw [h.scopes]
  refine ⟨hnext.scopes, ?_, ?_, ?_, ?_, ?_⟩
  · rw [Findings.types_append, Findings.types_append, h.types, hnext.types]
  · rw [Findings.symbols_append, Findings.symbols_append, h.symbols, hnext.symbols]
  · rw [Findings.diagnostics_append, Findings.diagnostics_append, List.filter_append, h.kept,
      hnext.kept]
  · intro htypes
    obtain ⟨hc, hd⟩ := List.forall_mem_append.mp htypes
    rw [Findings.diagnostics_append, List.filter_append, List.filterMap_append, h.removed hc,
      hnext.removed hd]
  · rw [Findings.types_append, List.map_append]
    refine List.forall_mem_append.mpr ⟨fun x hx e l he => ?_, fun x hx e l he => ?_⟩
    · exact List.mem_append_left _ (h.recorded x hx e l he)
    · exact List.mem_append_right _ (hnext.recorded x hx e l he)

/-- Something that is checked in one way can stand behind a piece. -/
theorem close {next : ScopeTree → Checked} (h : Relaxed marked typeOf xs c c')
    (h' : ∀ t, Clear marked (next t).findings.diagnostics) :
    Relaxed marked typeOf xs (c.andThen next) (c'.andThen next) := by
  have happend := h.andThen fun t => same (h' t)
  rwa [List.append_nil] at happend

/-- Findings that are made in one way can stand in front of a piece. -/
theorem prepend (hf : Clear marked f.diagnostics) (h : Relaxed marked typeOf xs c c') :
    Relaxed marked typeOf xs (c.prepend f) (c'.prepend f) := by
  have hfront : Relaxed marked typeOf [] ⟨c.scopes, f⟩ ⟨c.scopes, f⟩ := same hf
  have hbehind : Relaxed marked typeOf xs ⟨c.scopes, c.findings⟩ ⟨c.scopes, c'.findings⟩ :=
    ⟨rfl, h.types, h.symbols, h.kept, h.removed, h.recorded⟩
  have happend := hfront.andThen fun _ => hbehind
  exact ⟨h.scopes, happend.types, happend.symbols, happend.kept, happend.removed,
    happend.recorded⟩

/-- A statement that returns no value is like the statements inside it. -/
theorem cons {x : PlacedStmt} (hx : x.stmt.return?.bind Prod.fst = none)
    (h : Relaxed marked typeOf xs c c') : Relaxed marked typeOf (x :: xs) c c' := by
  have hnone : ∀ e l, x.stmt.return? ≠ some (some e, l) := by
    intro e l he
    rw [he] at hx
    cases hx
  refine ⟨h.scopes, h.types, h.symbols, h.kept, fun htypes => ?_, ?_⟩
  · have hreport : x.returnReport? typeOf = none := by
      unfold PlacedStmt.returnReport?
      rcases hr : x.stmt.return? with _ | ⟨_ | e, l⟩
      · rfl
      · rfl
      · exact absurd hr (hnone e l)
    rw [h.removed htypes, List.filterMap_cons_none hreport]
  · exact List.forall_mem_cons.mpr ⟨fun e l he => absurd he (hnone e l), h.recorded⟩

end Relaxed

/-! ## Statements -/

variable {typeOf : Nat → Option ValueType} {i j : Nat}

theorem Expr.id_mem_types (names : Names) (e : Expr) :
    (e.id, (e.check names).type) ∈ (e.check names).findings.types := by
  rw [e.check_types]
  have hself : e ∈ e.nodes := by
    cases e <;> simp [nodes]
  exact List.mem_map.mpr ⟨e, hself, rfl⟩

/-- A return with a value: the strict run looks at the type of the value. -/
theorem relaxed_return {e : Expr} {names : Names} {l : Location} (p : Prototype)
    (around : List Stmt) (t : ScopeTree) (hl : marked l = true)
    (he : Clear marked (e.check names).findings.diagnostics) :
    Relaxed marked typeOf [⟨p, around, .returnStmt (some e) l⟩]
      ⟨t, (e.check names).findings ++ .ofDiagnostics (p.returnFaults (e.check names).type l)⟩
      ⟨t, (e.check names).findings ++ .ofDiagnostics []⟩ := by
  have hfaults : ∀ d ∈ p.returnFaults (e.check names).type l, d.mismatchAt marked = true := by
    intro d hd
    rw [p.returnFaults_eq] at hd
    split at hd
    · cases hd
    · cases List.mem_singleton.mp hd
      exact hl
  refine ⟨rfl, rfl, rfl, ?_, fun htypes => ?_, ?_⟩
  · simp only [Findings.diagnostics_append, Findings.diagnostics_ofDiagnostics, List.filter_append,
      he.filter_eq_self]
    rw [List.filter_eq_nil_iff.mpr fun d hd => by rw [hfaults d hd]; exact Bool.false_ne_true]
  · have htype : typeOf e.id = some (e.check names).type :=
      htypes _ (List.mem_append_left _ (e.id_mem_types names))
    simp only [Findings.diagnostics_append, Findings.diagnostics_ofDiagnostics, List.filter_append,
      he.filter_eq_nil, List.nil_append]
    rw [List.filter_eq_self.mpr hfaults, p.returnFaults_eq, List.filterMap_cons,
      PlacedStmt.returnReport?, Stmt.return?, Option.bind_some, Option.bind_some, htype,
      Option.bind_some]
    split <;> rfl
  · refine List.forall_mem_singleton.mpr fun e' l' he' => ?_
    cases he'
    rw [Findings.types_append, List.map_append]
    exact List.mem_append_left _ (List.mem_map.mpr ⟨_, e.id_mem_types names, rfl⟩)

theorem Grammar.Assignment.clear {e : Expr} (h : Assignment i ts e j)
    (hk : MarksReturns marked ts) (names : Names) :
    Clear marked (e.check names).findings.diagnostics :=
  hk.clear h.returnless h.marks fun hn => (Expr.settled names hn).distinct

theorem Grammar.Assignment.clear_condition {e : Expr} (h : Assignment i ts e j)
    (hk : MarksReturns marked ts) (names : Names) :
    Clear marked (e.checkCondition names).diagnostics :=
  hk.clear h.returnless h.marks fun hn => checkCondition_distinct names hn

theorem Grammar.Clause.clear {e : Option Expr} (h : Clause i ts e j) (hk : MarksReturns marked ts)
    {f : Expr → Findings}
    (hf : ∀ e : Expr, e.positions.Nodup → Distinct e.positions (f e).diagnostics) :
    Clear marked (optionalFindings f e).diagnostics :=
  hk.clear h.returnless h.marks fun hn => optional_distinct hf hn

theorem Grammar.Many.clear {ds : List Decl} (h : Many LocalDecl i ts ds j)
    (hk : MarksReturns marked ts) (scope : Nat) (t : ScopeTree) :
    Clear marked (Decl.checkAll scope ds t).findings.diagnostics :=
  hk.clear h.returnless (h.marks fun _ _ _ _ h => h.marks) fun hn =>
    Decl.checkAll_distinct scope hn t

namespace Grammar

mutual

theorem Statement.relaxed {i j : Nat} {ts : List Token} {s : Stmt} (p : Prototype) (scope : Nat)
    (inLoop : Bool) : Statement i ts s j → MarksReturns marked ts →
      ∀ (around : List Stmt) (t : ScopeTree), Relaxed marked typeOf (s.placed p around)
        (s.check ⟨true, p, scope, inLoop⟩ t) (s.check ⟨false, p, scope, inLoop⟩ t)
  | .block h, hk, _, t => .cons rfl (h.relaxed p scope inLoop hk _ t)
  | .ifThen he hb, hk, _, t => by
    have hcondition := he.clear_condition hk.tail.tail.left (t.lookup scope)
    have hbody := hb.relaxed p scope inLoop hk.tail.tail.right.tail
    exact .cons rfl (.prepend hcondition (hbody _ t))
  | .ifElse he hb ha, hk, _, t => by
    have hrest := hk.tail.tail.right.tail
    have hcondition := he.clear_condition hk.tail.tail.left (t.lookup scope)
    have hbody := hb.relaxed p scope inLoop hrest.left
    have halternative := ha.relaxed p scope inLoop hrest.right.tail
    exact .cons rfl (.prepend hcondition ((hbody _ t).andThen (halternative _)))
  | .whileLoop he hb, hk, _, t => by
    have hcondition := he.clear_condition hk.tail.tail.left (t.lookup scope)
    have hbody := hb.relaxed p scope true hk.tail.tail.right.tail
    exact .cons rfl (.prepend hcondition (hbody _ t))
  | .forLoop h₁ h₂ h₃ hb, hk, _, t => by
    have hrest := hk.tail.tail.right.tail
    have hrest' := hrest.right.tail
    have hfirst := h₁.clear hk.tail.tail.left fun _ h => (Expr.settled (t.lookup scope) h).distinct
    have hcondition := h₂.clear hrest.left fun _ h => checkCondition_distinct (t.lookup scope) h
    have hstep := h₃.clear hrest'.left fun _ h => (Expr.settled (t.lookup scope) h).distinct
    have hbody := hb.relaxed p scope true hrest'.right.tail
    refine .cons rfl (.prepend ?_ (hbody _ t))
    rw [Findings.diagnostics_append, Findings.diagnostics_append]
    exact hfirst.append (hcondition.append hstep)
  | .jump, _, _, t => by
    refine .cons rfl (.same ?_)
    rw [Stmt.check, Findings.diagnostics_ofDiagnostics]
    split
    · exact .nil
    · exact .ofKind (p := fun k => k = .invalidJump) (.single rfl) rfl
  | .returnStmt h, hk, around, t => by
    cases h with
    | none => exact .cons rfl (.same .nil)
    | some he =>
      have hl := hk.tells _ List.mem_cons_self
      exact relaxed_return p around t hl (he.clear hk.tail.left _)
  | .expr h, hk, _, t => by
    have hk := hk.narrow ((List.sublist_append_left _ _).cons_cons _)
    exact .cons rfl (.same (h.clear hk (t.lookup scope)))

theorem Statements.relaxed {i j : Nat} {ts : List Token} {ss : List Stmt} (p : Prototype)
    (scope : Nat) (inLoop : Bool) : Statements i ts ss j → MarksReturns marked ts →
      ∀ (around : List Stmt) (t : ScopeTree), Relaxed marked typeOf (Stmt.placedAll p around ss)
        (Stmt.checkAll ⟨true, p, scope, inLoop⟩ ss t)
        (Stmt.checkAll ⟨false, p, scope, inLoop⟩ ss t)
  | .nil, _, _, _ => .same .nil
  | .cons h hs, hk, around, t =>
    (h.relaxed p scope inLoop hk.left around t).andThen
      (hs.relaxed p scope inLoop hk.right around)

theorem Compound.relaxed {i j : Nat} {ts : List Token} {b : Block} (p : Prototype) (scope : Nat)
    (inLoop : Bool) : Compound i ts b j → MarksReturns marked ts →
      ∀ (around : List Stmt) (t : ScopeTree), Relaxed marked typeOf (b.placed p around)
        (b.check ⟨true, p, scope, inLoop⟩ t) (b.check ⟨false, p, scope, inLoop⟩ t)
  | .mk hd hs, hk, around, t => by
    have hdecls := hd.clear hk.tail.left t.size (t.push scope)
    have hstmts := hs.relaxed p t.size inLoop hk.tail.right.left around
    have hinner := (Relaxed.same hdecls).andThen hstmts
    exact .prepend .nil (hinner.close fun _ => .nil)

end

/-! ## Units -/

theorem FunHeading.clear {p : Prototype} (h : FunHeading ts p) (hk : MarksReturns marked ts)
    (scope : Nat) (t : ScopeTree) :
    Clear marked (Parameter.checkAll scope p.parameters t).findings.diagnostics := by
  have hmarks : Marks ts (p.parameters.map Parameter.location) :=
    (List.sublist_cons_self _ _).trans h.marks
  exact hk.clear h.returnless hmarks fun hn => Parameter.checkAll_distinct scope hn t

theorem Compound.relaxed_body {p : Prototype} {b : Block} (h : FunHeading ts p)
    (hb : Compound i us b j) (hk : MarksReturns marked (ts ++ us)) (t : ScopeTree) :
    Relaxed marked typeOf (b.placed p []) (p.checkBody true b t) (p.checkBody false b t) := by
  cases hb with
  | mk hd hs =>
    have hparameters := h.clear hk.left t.size (t.push ScopeTree.root)
    have hdecls := hd.clear hk.right.tail.left t.size
    have hsignature : Relaxed marked typeOf [] _ _ :=
      (Relaxed.same hparameters).andThen fun t => .same (hdecls t)
    have hinner := hsignature.andThen (hs.relaxed p t.size false hk.right.tail.right.left [])
    refine .prepend .nil (hinner.close fun t => ?_)
    -- what is missing in a body is reported at the name of the function, but is no mismatch
    split
    · exact .nil
    · exact .ofKind (p := fun k => k = .missingReturn) (.single rfl) rfl

theorem FileDecl.relaxed {d : External} (h : FileDecl i ts d j) (hk : MarksReturns marked ts)
    (t : ScopeTree) : Relaxed marked typeOf d.placed (d.check true t) (d.check false t) := by
  cases h with
  | decl h =>
    exact .same (hk.clear h.returnless h.marks fun hn => Decl.check_distinct _ hn t)
  | @definition _ _ _ p b h _ hb =>
    have hname : Clear marked
        (t.declare ScopeTree.root (.function p true)).findings.diagnostics := by
      unfold ScopeTree.declare
      split
      · exact .nil
      · exact .ofKind (p := fun k => k = .duplicateSymbol) (.single rfl) rfl
    exact (Relaxed.same hname).andThen (hb.relaxed_body h hk)

theorem Many.relaxed {ds : List External} (h : Many FileDecl i ts ds j)
    (hk : MarksReturns marked ts) (t : ScopeTree) :
    Relaxed marked typeOf (ds.flatMap External.placed) (External.checkAll true ds t)
      (External.checkAll false ds t) := by
  induction h generalizing t with
  | nil => exact .same .nil
  | cons h _ ih => exact (h.relaxed hk.left t).andThen (ih hk.right)

end Grammar

/-- The two runs over a whole unit. -/
theorem CompilationUnit.check_relaxed {u : CompilationUnit} (h : TranslationUnit ts u)
    (hk : MarksReturns marked ts) :
    Relaxed marked typeOf u.placed ⟨(u.check true).scopes, (u.check true).findings⟩
      ⟨(u.check false).scopes, (u.check false).findings⟩ := by
  obtain ⟨j, h⟩ := h
  have hmain : ∀ t,
      Clear marked (Checked.mk t (.ofDiagnostics u.mainFaults)).findings.diagnostics := by
    intro t
    unfold mainFaults
    dsimp only
    split
    · exact .nil
    · exact .ofKind (p := fun k => k = .missingMain) (.single rfl) rfl
  exact (h.relaxed hk .initial).close hmain

/-! ## Reports at one position -/

/-- Where things stand at different positions, what is reported at the position of one is what is
reported of it. -/
theorem filter_located {α : Type} {f : α → Option Diagnostic} {k : α → Option Location}
    (hf : ∀ x d, f x = some d → d.location? = k x) {xs : List α} (hnd : (xs.filterMap k).Nodup)
    {x : α} (hx : x ∈ xs) {l : Location} (hl : k x = some l) :
    (xs.filterMap f).filter (fun d => d.location? = some l) = (f x).toList := by
  have hnone {y : α} (hy : k y ≠ some l) :
      (f y).toList.filter (fun d => d.location? = some l) = [] := by
    refine List.filter_eq_nil_iff.mpr fun d hd hdl => hy ?_
    rw [← hf y d (Option.mem_toList.mp hd)]
    exact of_decide_eq_true hdl
  have hself : (f x).toList.filter (fun d => d.location? = some l) = (f x).toList := by
    refine List.filter_eq_self.mpr fun d hd => decide_eq_true ?_
    rw [hf x d (Option.mem_toList.mp hd), hl]
  rw [List.filterMap_eq_flatMap_toList] at hnd ⊢
  induction xs with
  | nil => cases hx
  | cons y rest ih =>
    rw [List.flatMap_cons] at hnd ⊢
    obtain ⟨-, hrest, hfar⟩ := List.nodup_append.mp hnd
    rw [List.filter_append]
    rcases List.mem_cons.mp hx with rfl | hx
    · have hothers : (rest.flatMap fun y => (f y).toList).filter
          (fun d => d.location? = some l) = [] := by
        rw [List.filter_flatMap, List.flatMap_eq_nil_iff]
        refine fun z hz => hnone fun hzl => ?_
        exact hfar l (Option.mem_toList.mpr hl) l
          (List.mem_flatMap.mpr ⟨z, hz, Option.mem_toList.mpr hzl⟩) rfl
      rw [hself, hothers, List.append_nil]
    · have hy : k y ≠ some l := fun hyl => hfar l (Option.mem_toList.mpr hyl) l
        (List.mem_flatMap.mpr ⟨x, hx, Option.mem_toList.mpr hl⟩) rfl
      rw [hnone hy, List.nil_append, ih hrest hx]

theorem PlacedStmt.location_of_returnReport? {x : PlacedStmt} {d : Diagnostic}
    (h : x.returnReport? typeOf = some d) : d.location? = x.stmt.return?.map Prod.snd := by
  obtain ⟨r, hr, h⟩ := Option.bind_eq_some_iff.mp h
  obtain ⟨e, -, h⟩ := Option.bind_eq_some_iff.mp h
  obtain ⟨t, -, h⟩ := Option.bind_eq_some_iff.mp h
  rw [hr]
  split at h
  · cases h
  · cases h
    rfl

/-! ## Compiled sources -/

/-- The positions of return keywords among tokens. -/
def returnMarks (ts : List Token) (l : Location) : Bool :=
  ts.any fun t => t.isReturn && t.location = l

theorem marksReturns (h : (ts.map Token.location).Nodup) : MarksReturns (returnMarks ts) ts := by
  refine ⟨h, fun t ht => ?_⟩
  rw [Bool.eq_iff_iff, returnMarks, List.any_eq_true]
  constructor
  · rintro ⟨t', ht', hmark⟩
    obtain ⟨hreturn, hlocation⟩ := Bool.and_eq_true_iff.mp hmark
    rwa [List.inj_on_of_nodup_map h ht ht' (of_decide_eq_true hlocation).symm]
  · exact fun hreturn => ⟨t, ht, by rw [hreturn, decide_eq_true rfl]; rfl⟩

/-- What a strict check of a unit records of expressions is found under their numbers. -/
theorem typeOf?_of_mem_types {ts : List Token} {u : CompilationUnit}
    (h : CompilationUnit.ofTokens? ts = .ok u) (returnTypes : Bool) :
    ∀ e ∈ (u.check returnTypes).findings.types, (u.check returnTypes).typeOf? e.1 = some e.2 := by
  obtain ⟨os, hannotates, hnodes, -⟩ := u.check_covers returnTypes
  have hnd : ((u.check returnTypes).findings.types.map Prod.fst).Nodup := by
    rw [hannotates.types_keys, hnodes]
    exact nodes_ids_nodup h
  intro e he
  have hlookup := lookup_recorded (v := fun e : Nat × ValueType => some e.2) hnd he
  have htable : ((u.check returnTypes).findings.types.filterMap fun e =>
      (some e.2).map (Prod.mk e.1)) = (u.check returnTypes).findings.types := List.filterMap_some
  rwa [htable] at hlookup

/-- That a program is none at all is not told at a position. -/
theorem Diagnostic.isFatal_unmarked (d : Diagnostic) :
    (!d.mismatchAt marked && d.isFatal) = d.isFatal := by
  cases d with
  | missingMain => rfl
  | _ => exact Bool.and_false _

/-- The reports at one marked position are among those at marked positions. -/
theorem filter_mismatches {ds : List Diagnostic} {l : Location} (hl : marked l = true) :
    ds.filter (fun d => d.kind = .typeMismatch && d.location? = some l) =
      (ds.filter (Diagnostic.mismatchAt marked)).filter fun d => d.location? = some l := by
  rw [List.filter_filter]
  refine List.filter_congr fun d _ => ?_
  by_cases hd : d.location? = some l
  · simp [Diagnostic.mismatchAt, hd, hl]
  · simp [hd]

/-- The return types of a compiled source are checked or they are not: that does not bear on
whether it is a program, on its scopes and on what is recorded of expressions, and if they are not,
just the mismatches at return keywords are left out. These keywords are those of the return
statements, wherever they stand. One mismatch is reported at a return with a value that its function
does not accept, in source order, and none at any other return. -/
theorem check_lenient_drops_returns {source : String} {c : Compilation}
    (h : compile source = .ok c) :
    let strict := c.unit.check true
    let lenient := c.unit.check false
    let atReturn := Diagnostic.mismatchAt (returnMarks (scan source).tokens)
    (lenient.ok = strict.ok ∧ lenient.scopes = strict.scopes ∧
      lenient.findings.types = strict.findings.types ∧
      lenient.findings.symbols = strict.findings.symbols ∧
      lenient.diagnostics = strict.diagnostics.filter fun d => !atReturn d) ∧
    (((Node.unit c.unit).walk fun _ => true).filterMap Node.stmt? =
        c.unit.placed.map PlacedStmt.stmt ∧
      ((scan source).tokens.filter Token.isReturn).map Token.location =
        PlacedStmt.returnsAt c.unit.placed) ∧
    strict.diagnostics.filter atReturn =
      c.unit.placed.filterMap (PlacedStmt.returnReport? strict.typeOf?) ∧
    ∀ x ∈ c.unit.placed, ∀ value l, x.stmt.return? = some (value, l) →
      (strict.diagnostics.filter fun d => d.kind = .typeMismatch && d.location? = some l) =
        (x.returnReport? strict.typeOf?).toList ∧
      ∀ e, value = some e → (strict.typeOf? e.id).isSome := by
  intro strict lenient atReturn
  have hparse := ofTokens?_of_compile h
  have hunit := Parse.translationUnit_of_ofTokens? hparse
  have hts := scan_locations_nodup source
  have htypes := typeOf?_of_mem_types hparse true
  have hrelaxed : Relaxed (returnMarks (scan source).tokens) strict.typeOf? c.unit.placed
      ⟨strict.scopes, strict.findings⟩ ⟨lenient.scopes, lenient.findings⟩ :=
    CompilationUnit.check_relaxed hunit (marksReturns hts)
  have hkept : lenient.diagnostics = strict.diagnostics.filter fun d => !atReturn d := hrelaxed.kept
  have hremoved : strict.diagnostics.filter atReturn =
      c.unit.placed.filterMap (PlacedStmt.returnReport? strict.typeOf?) := hrelaxed.removed htypes
  have hreturns : ((scan source).tokens.filter Token.isReturn).map Token.location =
      PlacedStmt.returnsAt c.unit.placed := hunit.returns
  refine ⟨⟨?_, hrelaxed.scopes, hrelaxed.types, hrelaxed.symbols, hkept⟩,
    ⟨c.unit.placed_everywhere, hreturns⟩, hremoved, fun x hx value l hvalue => ⟨?_, ?_⟩⟩
  · rw [Report.ok, Report.ok, hkept, List.any_filter, funext Diagnostic.isFatal_unmarked]
  · have hl : x.stmt.return?.map Prod.snd = some l := by
      rw [hvalue]
      rfl
    have hnodup : (PlacedStmt.returnsAt c.unit.placed).Nodup := by
      rw [← hreturns]
      exact (List.filter_sublist.map _).nodup hts
    have hmark : returnMarks (scan source).tokens l = true := by
      have hmem : l ∈ PlacedStmt.returnsAt c.unit.placed := List.mem_filterMap.mpr ⟨x, hx, hl⟩
      rw [← hreturns] at hmem
      obtain ⟨t, ht, rfl⟩ := List.mem_map.mp hmem
      obtain ⟨ht, hreturn⟩ := List.mem_filter.mp ht
      rw [(marksReturns hts).tells t ht, hreturn]
    rw [filter_mismatches hmark]
    exact (congrArg _ hremoved).trans
      (filter_located (fun _ _ => PlacedStmt.location_of_returnReport?) hnodup hx hl)
  · rintro e rfl
    exact lookup_isSome_iff_mem_keys.mpr (hrelaxed.recorded x hx e l hvalue)

/-- The unit that `void f() { return 1; } int main() { return f; return 0; }` is read as. -/
def wrongReturnsUnit : CompilationUnit :=
  ⟨[.definition ⟨⟨.void, false, 0, []⟩, "f", [], false, .none, ⟨1, 6⟩⟩
      (.mk [] [.returnStmt (some (.literal ⟨0, ⟨1, 19⟩⟩ (.int 1))) ⟨1, 12⟩] ⟨1, 10⟩),
    .definition ⟨⟨.int, false, 0, []⟩, "main", [], false, .none, ⟨1, 28⟩⟩
      (.mk [] [.returnStmt (some (.ident ⟨1, ⟨1, 44⟩⟩ "f")) ⟨1, 37⟩,
        .returnStmt (some (.literal ⟨2, ⟨1, 54⟩⟩ (.int 0))) ⟨1, 47⟩] ⟨1, 35⟩)]⟩

/-- Two of the three returns are wrong, and the lenient check says nothing about them. -/
theorem check_lenient_drops_returns_wrong :
    compile "void f() \x7b return 1; \x7d int main() \x7b return f; return 0; \x7d" =
        .ok ⟨wrongReturnsUnit, []⟩ ∧
      ((wrongReturnsUnit.check true).diagnostics.map fun d => (d.kind, d.location?)) =
        [(.typeMismatch, some ⟨1, 12⟩), (.typeMismatch, some ⟨1, 37⟩)] ∧
      (wrongReturnsUnit.check false).diagnostics = [] ∧
      (wrongReturnsUnit.check false).ok = (wrongReturnsUnit.check true).ok ∧
      ((wrongReturnsUnit.check true).diagnostics.filter fun d =>
        d.kind = .typeMismatch && d.location? = some ⟨1, 47⟩) = [] := by
  have hscan : scan "void f() \x7b return 1; \x7d int main() \x7b return f; return 0; \x7d" =
      ⟨[.ofWord .voidKw ⟨1, 1⟩, ⟨.identifier "f", ⟨1, 6⟩⟩, .ofMark .leftParen ⟨1, 7⟩,
        .ofMark .rightParen ⟨1, 8⟩, .ofMark .leftBrace ⟨1, 10⟩, .ofWord .returnKw ⟨1, 12⟩,
        ⟨.intLiteral 1, ⟨1, 19⟩⟩, .ofMark .semicolon ⟨1, 20⟩, .ofMark .rightBrace ⟨1, 22⟩,
        .ofWord .intKw ⟨1, 24⟩, ⟨.identifier "main", ⟨1, 28⟩⟩, .ofMark .leftParen ⟨1, 32⟩,
        .ofMark .rightParen ⟨1, 33⟩, .ofMark .leftBrace ⟨1, 35⟩, .ofWord .returnKw ⟨1, 37⟩,
        ⟨.identifier "f", ⟨1, 44⟩⟩, .ofMark .semicolon ⟨1, 45⟩, .ofWord .returnKw ⟨1, 47⟩,
        ⟨.intLiteral 0, ⟨1, 54⟩⟩, .ofMark .semicolon ⟨1, 55⟩, .ofMark .rightBrace ⟨1, 57⟩],
        []⟩ := by decide +kernel
  have hcompile : compile "void f() \x7b return 1; \x7d int main() \x7b return f; return 0; \x7d" =
      .ok ⟨wrongReturnsUnit, []⟩ := by
    rw [compile, hscan]
    cbv
  obtain ⟨⟨hok, -⟩, -, -, hat⟩ := check_lenient_drops_returns hcompile
  refine ⟨hcompile, by decide +kernel, by decide +kernel, hok, ?_⟩
  exact (hat _ (.tail _ (.tail _ (.head _))) _ _ rfl).1.trans (by decide +kernel)

end CSubset
