-- SUMMARY: The checker resolves every identifier lexically and reports exactly the identifiers that stand for nothing.
import CSubset.Proofs.Check.Unit
import CSubset.Proofs.Grammar.Numbering
import CSubset.Proofs.Parse.Exactness
import CSubset.Proofs.Scoping.Scopes
import CSubset.Syntax.Walk

/-!
# Resolution of names

The walk of the checker is followed piece by piece: a declaration leads from a tree that shows
some blocks to one that shows them with the declaration passed, and a statement leaves the
scopes that were there as they were. On the way, what is recorded for identifiers and reported
about them is what lexical scoping says of their uses, in the same order. As the parser numbers
the nodes of a unit apart, what is recorded for one identifier is found under its number.
-/

namespace CSubset

open ScopeTree

/-! ## Findings and uses -/

/-- What a use is recorded with: the number of its identifier, and what that stands for. -/
def Use.record? (x : Use) : Option (Nat × Symbol) := x.symbol?.map fun s => (x.anchor.id, s)

/-- What is reported for a use that stands for nothing. -/
def Use.fault? (x : Use) : Option Diagnostic :=
  if x.symbol?.isNone then some (.undefinedSymbol x.name x.anchor.location) else none

/-- The findings record and report what lexical scoping says of some uses, in order. -/
structure Resolves (f : Findings) (uses : List Use) : Prop where
  symbols : f.symbols = uses.filterMap Use.record?
  undefined : undefinedAmong f.diagnostics = uses.filterMap Use.fault?

namespace Resolves

variable {f g : Findings} {us vs : List Use}

theorem append (hf : Resolves f us) (hg : Resolves g vs) : Resolves (f ++ g) (us ++ vs) := by
  refine ⟨?_, ?_⟩
  · rw [Findings.symbols_append, List.filterMap_append, hf.symbols, hg.symbols]
  · rw [Findings.diagnostics_append, undefinedAmong_append, List.filterMap_append, hf.undefined,
      hg.undefined]

theorem none : Resolves .none [] := ⟨rfl, rfl⟩

theorem ofDiagnostics {ds : List Diagnostic} (h : undefinedAmong ds = []) :
    Resolves (.ofDiagnostics ds) [] :=
  ⟨rfl, by rw [Findings.diagnostics_ofDiagnostics, h]; rfl⟩

/-- Findings without uses may stand in front. -/
theorem append_left (hf : Resolves f []) (hg : Resolves g vs) : Resolves (f ++ g) vs :=
  hf.append hg

/-- Findings without uses may stand behind. -/
theorem append_right (hf : Resolves f us) (hg : Resolves g []) : Resolves (f ++ g) us := by
  have h := hf.append hg
  rwa [List.append_nil] at h

end Resolves

/-! ## Expressions -/

variable {t : ScopeTree} {n : Nat} {blocks outer : List Passed} {passed : Passed}

theorem Expr.check_resolves (h : Shows t n blocks) (e : Expr) :
    Resolves (e.check (t.lookup n)).findings (e.uses blocks) := by
  rw [h.lookup]
  obtain ⟨hs, hu⟩ : LooksUp (resolve blocks) _ _ := e.check_looksUp
  refine ⟨?_, ?_⟩
  · rw [hs, Expr.uses, List.filterMap_map]
    rfl
  · rw [hu, Expr.uses, List.filterMap_map]
    rfl

theorem Expr.checkCondition_resolves (h : Shows t n blocks) (e : Expr) :
    Resolves (e.checkCondition (t.lookup n)) (e.uses blocks) := by
  unfold Expr.checkCondition
  refine (e.check_resolves h).append_right (.ofDiagnostics ?_)
  split <;> rfl

theorem optionalFindings_resolves {f : Expr → Findings} (e : Option Expr)
    (hf : ∀ e, Resolves (f e) (e.uses blocks)) :
    Resolves (optionalFindings f e) (optionalUses blocks e) := by
  cases e with
  | none => exact .none
  | some e =>
    rw [optionalUses, Option.toList_some, List.flatMap_singleton]
    exact hf e

theorem Variable.check_resolves (h : Shows t n blocks) (v : Variable) :
    Resolves (v.check (t.lookup n)) ((Decl.var v).exprs.flatMap (Expr.uses blocks)) := by
  have hvoid : Resolves (.ofDiagnostics
      (if v.type.isVoid then [(Mismatch.voidVariable v.name).report v.location] else [])) [] := by
    refine .ofDiagnostics ?_
    split <;> rfl
  obtain ⟨type, name, initializer, storage, l⟩ := v
  refine hvoid.append_left ?_
  cases initializer with
  | none => exact .none
  | some e =>
    rw [Decl.exprs, Option.toList_some, List.flatMap_singleton]
    refine (e.check_resolves h).append_right (.ofDiagnostics ?_)
    split <;> rfl

/-! ## Declarations -/

/-- Declarations in scope `n` lead from a tree to one that shows `blocks`. -/
structure Declares (n : Nat) (blocks : List Passed) (t : ScopeTree) (c : Checked)
    (uses : List Use) : Prop where
  shown : Shows c.scopes n blocks
  keeps : Keeps n t c.scopes
  resolves : Resolves c.findings uses

theorem Declares.andThen {blocks' : List Passed} {c : Checked} {next : ScopeTree → Checked}
    {us vs : List Use} (h : Declares n blocks t c us)
    (h' : Declares n blocks' c.scopes (next c.scopes) vs) :
    Declares n blocks' t (c.andThen next) (us ++ vs) :=
  ⟨h'.shown, h.keeps.trans h'.keeps, h.resolves.append h'.resolves⟩

theorem Declares.prepend {c : Checked} {f : Findings} {us vs : List Use} (hf : Resolves f us)
    (h : Declares n blocks t c vs) : Declares n blocks t (c.prepend f) (us ++ vs) :=
  ⟨h.shown, h.keeps, hf.append h.resolves⟩

theorem declares_declare (h : Shows t n (passed :: outer)) (x : Symbol) :
    Declares n ((passed ++ [x]) :: outer) t (t.declare n x) [] := by
  refine ⟨h.declare x, keeps_declare t x h.lt, ?_⟩
  unfold ScopeTree.declare
  split
  · exact .none
  · exact .ofDiagnostics rfl

theorem Decl.check_declares (h : Shows t n (passed :: outer)) (d : Decl) :
    Declares n ((passed ++ [d.symbol]) :: outer) t (d.check n t)
      (d.exprs.flatMap (Expr.uses (passed :: outer))) := by
  have hd := declares_declare h d.symbol
  unfold Decl.check
  cases d with
  | function p => exact hd.prepend .none
  | var v =>
    have hv := hd.prepend (v.check_resolves h)
    rwa [List.append_nil] at hv

theorem Decl.checkAll_declares (h : Shows t n (passed :: outer)) (ds : List Decl) :
    Declares n ((passed ++ ds.map Decl.symbol) :: outer) t (Decl.checkAll n ds t)
      (Decl.usesAll outer passed ds) := by
  induction ds generalizing passed t with
  | nil =>
    rw [List.map_nil, List.append_nil]
    exact ⟨h, .refl _ _, .none⟩
  | cons d rest ih =>
    have hd := d.check_declares h
    have hrest := ih hd.shown
    rw [List.append_assoc, List.singleton_append] at hrest
    exact hd.andThen hrest

theorem Parameter.check_declares (h : Shows t n (passed :: outer)) (p : Parameter) :
    Declares n ((passed ++ [.parameter p]) :: outer) t (p.check n t) [] := by
  refine (declares_declare h (.parameter p)).prepend (.ofDiagnostics ?_)
  split <;> rfl

theorem Parameter.checkAll_declares (h : Shows t n (passed :: outer)) (ps : List Parameter) :
    Declares n ((passed ++ ps.map Symbol.parameter) :: outer) t (Parameter.checkAll n ps t) [] := by
  induction ps generalizing passed t with
  | nil =>
    rw [List.map_nil, List.append_nil]
    exact ⟨h, .refl _ _, .none⟩
  | cons p rest ih =>
    have hp := p.check_declares h
    have hrest := ih hp.shown
    rw [List.append_assoc, List.singleton_append] at hrest
    exact hp.andThen hrest

/-! ## Statements -/

/-- A statement leaves all scopes that were there as they were. -/
structure Walks (t : ScopeTree) (c : Checked) (uses : List Use) : Prop where
  keeps : Keeps t.size t c.scopes
  resolves : Resolves c.findings uses

theorem Walks.andThen {c : Checked} {next : ScopeTree → Checked} {us vs : List Use}
    (h : Walks t c us) (h' : Walks c.scopes (next c.scopes) vs) :
    Walks t (c.andThen next) (us ++ vs) :=
  ⟨h.keeps.trans (h'.keeps.mono h.keeps.size), h.resolves.append h'.resolves⟩

theorem Walks.prepend {c : Checked} {f : Findings} {us vs : List Use} (h : Walks t c vs)
    (hf : Resolves f us) : Walks t (c.prepend f) (us ++ vs) :=
  ⟨h.keeps, hf.append h.resolves⟩

/-- What only yields findings leaves the scopes as they are. -/
theorem walks_findings {f : Findings} {us : List Use} (hf : Resolves f us) :
    Walks t ⟨t, f⟩ us :=
  ⟨.refl _ _, hf⟩

/-- A scope that is opened, filled with declarations and left behind is a walk. -/
theorem walks_scope {blocks' : List Passed} {c : Checked} {body : ScopeTree → Checked}
    {before : Findings} {after : Findings} {us vs : List Use}
    (hd : Declares t.size blocks' (t.push n) c us) (hs : Walks c.scopes (body c.scopes) vs)
    (hbefore : Resolves before []) (hafter : Resolves after []) :
    Walks t (((c.andThen body).andThen fun t => ⟨t, after⟩).prepend before) (us ++ vs) := by
  have hsize : t.size ≤ c.scopes.size := Nat.le_trans (keeps_push t n).size hd.keeps.size
  refine ⟨(keeps_push t n).trans (hd.keeps.trans (hs.keeps.mono hsize)), ?_⟩
  exact hbefore.append_left ((hd.resolves.append hs.resolves).append_right hafter)

mutual

theorem Stmt.check_walks {ctx : Context} {blocks : List Passed} : ∀ (s : Stmt) {t : ScopeTree},
    Shows t ctx.scope blocks → Walks t (s.check ctx t) (s.uses blocks)
  | .block body, _, h => body.check_walks h
  | .ifThen condition body _, _, h =>
    (body.check_walks h).prepend (condition.checkCondition_resolves h)
  | .ifElse condition body alternative _, _, h => by
    have hbody := body.check_walks h
    have halternative := alternative.check_walks (h.keep hbody.keeps h.lt)
    exact (hbody.andThen halternative).prepend (condition.checkCondition_resolves h)
  | .whileLoop condition body _, t, h => by
    have hbody : Walks t (body.check { ctx with inLoop := true } t) _ := body.check_walks h
    exact hbody.prepend (condition.checkCondition_resolves h)
  | .forLoop first condition step body _, t, h => by
    have h₁ := optionalFindings_resolves first fun e => e.check_resolves h
    have h₂ := optionalFindings_resolves condition fun e => e.checkCondition_resolves h
    have h₃ := optionalFindings_resolves step fun e => e.check_resolves h
    have hbody : Walks t (body.check { ctx with inLoop := true } t) _ := body.check_walks h
    exact hbody.prepend (h₁.append (h₂.append h₃))
  | .jump kind l, _, h => by
    refine walks_findings (.ofDiagnostics ?_)
    split <;> rfl
  | .returnStmt value l, _, h => by
    refine walks_findings (optionalFindings_resolves value fun e => ?_)
    refine (e.check_resolves h).append_right (.ofDiagnostics ?_)
    split
    · exact (ctx.function.returnFaults_ofRule _ _).undefinedAmong
    · rfl
  | .expr e _, _, h => walks_findings (e.check_resolves h)

theorem Stmt.checkAll_walks {ctx : Context} {blocks : List Passed} :
    ∀ (ss : List Stmt) {t : ScopeTree}, Shows t ctx.scope blocks →
      Walks t (Stmt.checkAll ctx ss t) (Stmt.usesAll blocks ss)
  | [], _, _ => walks_findings .none
  | s :: rest, _, h => by
    have hs := s.check_walks h
    exact hs.andThen (Stmt.checkAll_walks rest (h.keep hs.keeps h.lt))

theorem Block.check_walks {ctx : Context} {blocks : List Passed} : ∀ (b : Block) {t : ScopeTree},
    Shows t ctx.scope blocks → Walks t (b.check ctx t) (b.uses blocks)
  | .mk decls stmts _, t, h => by
    have hd := Decl.checkAll_declares h.push decls
    have hs : Walks _ (Stmt.checkAll { ctx with scope := t.size } stmts _) _ :=
      Stmt.checkAll_walks stmts hd.shown
    exact walks_scope hd hs ⟨rfl, rfl⟩ ⟨rfl, rfl⟩

end

/-! ## Units -/

theorem Prototype.checkBody_walks {file : Passed} (returnTypes : Bool) (p : Prototype)
    (body : Block) (h : Shows t root [file]) :
    Walks t (p.checkBody returnTypes body t) (p.bodyUses body file) := by
  have hp := Parameter.checkAll_declares h.push p.parameters
  have hd := hp.andThen (Decl.checkAll_declares hp.shown body.decls)
  have hs : Walks _ (Stmt.checkAll ⟨returnTypes, p, t.size, false⟩ body.stmts _) _ :=
    Stmt.checkAll_walks body.stmts hd.shown
  refine walks_scope hd hs ⟨rfl, rfl⟩ ⟨rfl, ?_⟩
  split <;> rfl

theorem External.check_declares (returnTypes : Bool) (h : Shows t root [passed]) (d : External) :
    Declares root [passed ++ [d.symbol]] t (d.check returnTypes t) (d.uses passed) := by
  cases d with
  | decl d => exact d.check_declares h
  | definition p body =>
    have hd := declares_declare h (.function p true)
    have hb := p.checkBody_walks returnTypes body hd.shown
    exact ⟨hd.shown.keep hb.keeps hd.shown.lt, hd.keeps.trans (hb.keeps.mono (Nat.zero_le _)),
      hd.resolves.append hb.resolves⟩

theorem External.checkAll_declares (returnTypes : Bool) (h : Shows t root [passed])
    (ds : List External) :
    Declares root [passed ++ ds.map External.symbol] t (External.checkAll returnTypes ds t)
      (External.usesAll passed ds) := by
  induction ds generalizing passed t with
  | nil =>
    rw [List.map_nil, List.append_nil]
    exact ⟨h, .refl _ _, .none⟩
  | cons d rest ih =>
    have hd := d.check_declares returnTypes h
    have hrest := ih hd.shown
    rw [List.append_assoc, List.singleton_append] at hrest
    exact hd.andThen hrest

/-- The findings about a whole unit record and report what lexical scoping says of its uses. -/
theorem CompilationUnit.check_resolves (u : CompilationUnit) (returnTypes : Bool) :
    Resolves (u.check returnTypes).findings u.uses := by
  refine (External.checkAll_declares returnTypes shows_initial u.decls).resolves.append_right
    (.ofDiagnostics ?_)
  unfold CompilationUnit.mainFaults
  dsimp only
  split <;> rfl

/-! ## Identifiers of parsed units -/

/-- The identifiers among some nodes take their numbers from the nodes. -/
theorem Expr.idents_ids_sublist (es : List Expr) :
    ((es.filterMap Expr.ident?).map fun i => i.1.id).Sublist (es.map Expr.id) := by
  induction es with
  | nil => exact List.Sublist.slnil
  | cons e rest ih =>
    cases e with
    | ident a name => exact ih.cons_cons _
    | _ => exact ih.cons _

theorem CompilationUnit.uses_idents_nodes (u : CompilationUnit) :
    u.uses.map Use.ident = (u.exprs.flatMap Expr.nodes).filterMap Expr.ident? := by
  rw [u.uses_idents, List.filterMap_flatMap]
  rfl

/-- Uses in a parsed unit have different numbers. -/
theorem uses_ids_nodup {ts : List Token} {u : CompilationUnit}
    (h : CompilationUnit.ofTokens? ts = .ok u) : (u.uses.map fun x => x.anchor.id).Nodup := by
  obtain ⟨n, hn⟩ := (Parse.translationUnit_of_ofTokens? h).carries
  have hids : u.uses.map (fun x => x.anchor.id) = (u.uses.map Use.ident).map fun i => i.1.id := by
    rw [List.map_map]
    rfl
  rw [hids, u.uses_idents_nodes]
  refine (Expr.idents_ids_sublist _).nodup ?_
  rw [hn.ids]
  exact List.nodup_range'

/-- Uses in a parsed unit are read from tokens, in the order of these. -/
theorem uses_locations_sublist {ts : List Token} {u : CompilationUnit}
    (h : CompilationUnit.ofTokens? ts = .ok u) :
    (u.uses.map fun x => x.anchor.location).Sublist (ts.map Token.location) := by
  obtain ⟨n, hn⟩ := (Parse.translationUnit_of_ofTokens? h).carries
  have htoken : ∀ e : Expr, e.identToken? =
      e.ident?.map fun i => ⟨.identifier i.2, i.1.location⟩ := by
    intro e
    cases e <;> rfl
  have hlocations : u.uses.map (fun x => x.anchor.location) =
      ((u.exprs.flatMap Expr.nodes).filterMap Expr.identToken?).map Token.location := by
    rw [funext htoken, ← List.map_filterMap, ← u.uses_idents_nodes, List.map_map, List.map_map]
    rfl
  rw [hlocations]
  exact hn.idents.map _

/-! ## Looking up what is recorded -/

/-- Where things have different numbers, each finds what is recorded for it. -/
theorem lookup_recorded {α β : Type} {k : α → Nat} {v : α → Option β} {xs : List α}
    (hnd : (xs.map k).Nodup) {x : α} (hx : x ∈ xs) :
    (xs.filterMap fun y => (v y).map (Prod.mk (k y))).lookup (k x) = v x := by
  induction xs with
  | nil => cases hx
  | cons y rest ih =>
    rw [List.map_cons, List.nodup_cons] at hnd
    have hfar : ∀ z ∈ rest, k z ≠ k y := by
      intro z hz hid
      exact hnd.1 (List.mem_map.mpr ⟨z, hz, hid⟩)
    obtain rfl | hx := List.mem_cons.mp hx
    · cases hs : v x with
      | some s => simp [hs]
      | none =>
        rw [List.filterMap_cons_none (by rw [hs]; rfl), List.lookup_eq_none_iff]
        intro p hp
        obtain ⟨z, hz, hrecord⟩ := List.mem_filterMap.mp hp
        obtain ⟨s, -, rfl⟩ := Option.map_eq_some_iff.mp hrecord
        simpa using Ne.symm (hfar z hz)
    · have hrest := ih hnd.2 hx
      cases hs : v y with
      | none => rwa [List.filterMap_cons_none (by rw [hs]; rfl)]
      | some s =>
        rw [List.filterMap_cons_some (b := (k y, s)) (by rw [hs]; rfl),
          List.lookup_cons, beq_eq_false_iff_ne.mpr (hfar x hx)]
        exact hrest

/-- Where uses have different numbers, each is recorded with what it stands for. -/
theorem lookup_entries {us : List Use} (hnd : (us.map fun x => x.anchor.id).Nodup) {x : Use}
    (hx : x ∈ us) : (us.filterMap Use.record?).lookup x.anchor.id = x.symbol? :=
  lookup_recorded hnd hx

theorem fault?_eq (x : Use) (h : x.symbol? = none) :
    x.fault? = some (.undefinedSymbol x.name x.anchor.location) := by
  rw [Use.fault?, h]
  rfl

theorem location_of_fault? {x : Use} {d : Diagnostic} (h : x.fault? = some d) :
    d.location? = some x.anchor.location := by
  unfold Use.fault? at h
  split at h
  · cases h
    rfl
  · cases h

theorem filterMap_guarded {α β : Type} (p : α → Bool) (f : α → β) (xs : List α) :
    xs.filterMap (fun x => if p x then some (f x) else none) = (xs.filter p).map f := by
  rw [← List.filterMap_eq_filter, List.map_filterMap]
  congr 1
  funext x
  cases h : p x <;> simp [Option.guard, h]

theorem faults_eq_map (us : List Use) :
    us.filterMap Use.fault? =
      (us.filter fun x => x.symbol?.isNone).map fun x =>
        .undefinedSymbol x.name x.anchor.location := filterMap_guarded _ _ us

/-- Where uses stand at different positions, each one that stands for nothing is reported
once. -/
theorem count_faults {us : List Use} (hnd : (us.map fun x => x.anchor.location).Nodup) {x : Use}
    (hx : x ∈ us) (hs : x.symbol? = none) :
    (us.filterMap Use.fault?).count (.undefinedSymbol x.name x.anchor.location) = 1 := by
  have hfaults : (us.filterMap Use.fault?).Nodup := by
    have hne := List.pairwise_map.mp hnd
    refine hne.filterMap _ fun y z hyz d hd d' hd' heq => ?_
    have hloc := location_of_fault? hd
    rw [heq, location_of_fault? hd'] at hloc
    exact hyz (Option.some.inj hloc).symm
  have hmem : .undefinedSymbol x.name x.anchor.location ∈ us.filterMap Use.fault? :=
    List.mem_filterMap.mpr ⟨x, hx, fault?_eq x hs⟩
  rw [hfaults.count, if_pos hmem]

/-- The identifiers of a parsed unit are its uses. Each is recorded with what lexical scoping
says it stands for, and those that stand for nothing are reported one by one, in source order
and nothing else with them; where tokens stand at different positions, each is reported once. -/
theorem check_resolves_lexically {ts : List Token} {u : CompilationUnit}
    (h : CompilationUnit.ofTokens? ts = .ok u) (returnTypes : Bool) :
    ((Node.unit u).walk fun _ => true).filterMap Node.ident? = u.uses.map Use.ident ∧
      (∀ x ∈ u.uses,
        (u.check returnTypes).symbolOf? x.anchor.id = resolve x.blocks x.name) ∧
      (u.check returnTypes).diagnostics.filter Diagnostic.isUndefined =
        ((u.uses.filter fun x => (resolve x.blocks x.name).isNone).map fun x =>
          .undefinedSymbol x.name x.anchor.location) ∧
      ((ts.map Token.location).Nodup → ∀ x ∈ u.uses, resolve x.blocks x.name = none →
        (u.check returnTypes).diagnostics.count (.undefinedSymbol x.name x.anchor.location) =
          1) := by
  obtain ⟨hsymbols, hundefined⟩ := u.check_resolves returnTypes
  refine ⟨?_, ?_, ?_, ?_⟩
  · rw [u.uses_idents]
    exact Walk.idents_unit u
  · intro x hx
    rw [Report.symbolOf?, hsymbols]
    exact lookup_entries (uses_ids_nodup h) hx
  · exact hundefined.trans (faults_eq_map u.uses)
  · intro hts x hx hs
    have hcount := count_faults ((uses_locations_sublist h).nodup hts) hx hs
    rw [← hundefined, undefinedAmong, List.count_filter rfl] at hcount
    exact hcount

/-- The tokens of `int a = b;`. -/
def unboundInitializerTokens : List Token :=
  [.ofWord .intKw ⟨1, 1⟩, ⟨.identifier "a", ⟨1, 5⟩⟩, .ofMark .assign ⟨1, 7⟩,
    ⟨.identifier "b", ⟨1, 9⟩⟩, .ofMark .semicolon ⟨1, 10⟩]

/-- The unit that `int a = b;` is read as. -/
def unboundInitializerUnit : CompilationUnit :=
  ⟨[.decl (.var ⟨⟨.int, false, 0, []⟩, "a", some (.ident ⟨0, ⟨1, 9⟩⟩ "b"), .none, ⟨1, 5⟩⟩)]⟩

theorem unboundInitializer_parses :
    CompilationUnit.ofTokens? unboundInitializerTokens = .ok unboundInitializerUnit := by
  have hb : Grammar.Binary 7 0 [⟨.identifier "b", ⟨1, 9⟩⟩] (.ident ⟨0, ⟨1, 9⟩⟩ "b") 1 :=
    .operand (.operand (.primary .ident))
  have ha : Grammar.VarHeading [.ofWord .intKw ⟨1, 1⟩, ⟨.identifier "a", ⟨1, 5⟩⟩]
      ⟨⟨.int, false, 0, []⟩, "a", none, .none, ⟨1, 5⟩⟩ :=
    .mk .none (.mk (@Grammar.TypeSpecifier.plain .int _) .nil .nil)
  have hd : Grammar.LocalDecl 0 unboundInitializerTokens _ 1 :=
    .initialized ha (.operand (hb.mono (by decide)))
  exact Parse.ofTokens?_of_translationUnit ⟨1, .cons (Grammar.FileDecl.decl hd) .nil⟩

theorem check_resolves_lexically_unboundInitializer :
    CompilationUnit.ofTokens? unboundInitializerTokens = .ok unboundInitializerUnit ∧
      (unboundInitializerUnit.check true).symbolOf? 0 = none ∧
      (unboundInitializerUnit.check true).diagnostics.count (.undefinedSymbol "b" ⟨1, 9⟩) = 1 := by
  have hx : (⟨⟨0, ⟨1, 9⟩⟩, "b", [[]]⟩ : Use) ∈ unboundInitializerUnit.uses :=
    List.mem_singleton.mpr rfl
  obtain ⟨-, hsymbols, -, hcount⟩ := check_resolves_lexically unboundInitializer_parses true
  exact ⟨unboundInitializer_parses, hsymbols _ hx, hcount (by decide) _ hx rfl⟩

end CSubset
