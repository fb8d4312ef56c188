-- SUMMARY: A report records a type for every expression node, and a symbol for exactly the identifiers it does not report as unbound.
import Mathlib.Tactic
import CSubset.Proofs.Scoping.Resolution

/-!
# Annotations

Whatever else is found on the way, the walk of the checker comes by every expression of a unit and
records all of its nodes. What it records of a node is settled by the node and by what names stand
for there; the two make an `Occurrence`. So the tables of a report are lists over occurrences, one
for each node (`CompilationUnit.check_covers`). In a unit that was parsed the nodes have different
numbers, and each is found in the tables under its own.
-/

namespace CSubset

/-! ## Occurrences -/

/-- A node, and what names stand for where it is checked. -/
structure Occurrence where
  names : Names
  node : Expr

namespace Occurrence

/-- The type that a node is recorded with. -/
def typed (o : Occurrence) : Nat × ValueType := (o.node.id, (o.node.check o.names).type)

/-- The symbol that a node is recorded with, if it is a bound identifier. -/
def symbol? (o : Occurrence) : Option (Nat × Symbol) :=
  o.node.ident?.bind (Expr.record? o.names)

/-- The report of a node that is an unbound identifier. -/
def fault? (o : Occurrence) : Option Diagnostic := o.node.ident?.bind (Expr.fault? o.names)

/-- What an identifier stands for where it is checked. -/
def bound? (o : Occurrence) : Option Symbol := o.node.ident?.bind fun i => o.names i.2

theorem symbol?_eq (o : Occurrence) : o.symbol? = o.bound?.map (Prod.mk o.node.id) := by
  obtain ⟨names, node⟩ := o
  cases node <;> rfl

end Occurrence

/-- Where names stand for something, it is of that name. -/
def Names.Proper (names : Names) : Prop := ∀ name s, names name = some s → s.name = name

theorem Scope.name_of_find? {s : Scope} {name : String} {x : Symbol} (h : s.find? name = some x) :
    x.name = name := by
  have hname := List.find?_some h
  exact of_decide_eq_true hname

/-- What a scope shows is proper. -/
theorem ScopeTree.lookup_proper (t : ScopeTree) (n : Nat) : Names.Proper (t.lookup n) := by
  intro name s h
  induction n using Nat.strongRecOn with
  | ind n ih =>
    rw [lookup] at h
    split at h
    · next hfind =>
      cases h
      exact Scope.name_of_find? hfind
    · split at h
      · split at h
        · next hp => exact ih _ hp h
        · cases h
      · cases h

/-- The tables in some findings list what is recorded of occurrences, and their reports of unbound
names are those of the occurrences. -/
structure Annotates (f : Findings) (os : List Occurrence) : Prop where
  types : f.types = os.map Occurrence.typed
  symbols : f.symbols = os.filterMap Occurrence.symbol?
  undefined : undefinedAmong f.diagnostics = os.filterMap Occurrence.fault?

theorem Annotates.append {f g : Findings} {os ps : List Occurrence} (hf : Annotates f os)
    (hg : Annotates g ps) : Annotates (f ++ g) (os ++ ps) := by
  refine ⟨?_, ?_, ?_⟩
  · rw [Findings.types_append, List.map_append, hf.types, hg.types]
  · rw [Findings.symbols_append, List.filterMap_append, hf.symbols, hg.symbols]
  · rw [Findings.diagnostics_append, undefinedAmong_append, List.filterMap_append, hf.undefined,
      hg.undefined]

theorem Expr.check_annotates (names : Names) (e : Expr) :
    Annotates (e.check names).findings (e.nodes.map (Occurrence.mk names)) := by
  obtain ⟨hs, hu⟩ : LooksUp names _ _ := e.check_looksUp
  refine ⟨?_, ?_, ?_⟩
  · rw [e.check_types, List.map_map]
    rfl
  · rw [hs, idents, List.filterMap_filterMap, List.filterMap_map]
    rfl
  · rw [hu, idents, List.filterMap_filterMap, List.filterMap_map]
    rfl

/-! ## Pieces of a unit -/

/-- Findings annotate the nodes of some expressions, all of them and no others, with names that are
proper. -/
def Covers (f : Findings) (es : List Expr) : Prop :=
  ∃ os, Annotates f os ∧ os.map Occurrence.node = es.flatMap Expr.nodes ∧
    ∀ o ∈ os, Names.Proper o.names

namespace Covers

variable {f g : Findings} {ds es : List Expr}

theorem append (hf : Covers f ds) (hg : Covers g es) : Covers (f ++ g) (ds ++ es) := by
  obtain ⟨os, hos, hds, hproper⟩ := hf
  obtain ⟨ps, hps, hes, hproper'⟩ := hg
  refine ⟨os ++ ps, hos.append hps, ?_, List.forall_mem_append.mpr ⟨hproper, hproper'⟩⟩
  rw [List.map_append, List.flatMap_append, hds, hes]

/-- Findings without entries in the tables cover nothing. -/
theorem nothing (htypes : f.types = []) (hsymbols : f.symbols = [])
    (hundefined : undefinedAmong f.diagnostics = []) : Covers f [] :=
  ⟨[], ⟨htypes, hsymbols, hundefined⟩, rfl, List.forall_mem_nil _⟩

theorem none : Covers .none [] := nothing rfl rfl rfl

theorem ofDiagnostics {ds : List Diagnostic} (h : undefinedAmong ds = []) :
    Covers (.ofDiagnostics ds) [] :=
  nothing rfl rfl (by rw [Findings.diagnostics_ofDiagnostics, h])

/-- Such findings may stand in front. -/
theorem append_left (hf : Covers f []) (hg : Covers g es) : Covers (f ++ g) es := hf.append hg

/-- Such findings may stand behind. -/
theorem append_right (hf : Covers f es) (hg : Covers g []) : Covers (f ++ g) es := by
  have h := hf.append hg
  rwa [List.append_nil] at h

end Covers

theorem Expr.check_covers {names : Names} (h : Names.Proper names) (e : Expr) :
    Covers (e.check names).findings [e] := by
  refine ⟨_, e.check_annotates names, ?_, ?_⟩
  · rw [List.map_map, List.flatMap_singleton]
    exact List.map_id _
  · intro o ho
    obtain ⟨-, -, rfl⟩ := List.mem_map.mp ho
    exact h

theorem Expr.checkCondition_covers {names : Names} (h : Names.Proper names) (e : Expr) :
    Covers (e.checkCondition names) [e] := by
  unfold Expr.checkCondition
  refine (e.check_covers h).append_right (.ofDiagnostics ?_)
  split <;> rfl

theorem optionalFindings_covers {f : Expr → Findings} (e : Option Expr)
    (hf : ∀ e, Covers (f e) [e]) : Covers (optionalFindings f e) e.toList := by
  cases e with
  | none => exact .none
  | some e => exact hf e

theorem Variable.check_covers {names : Names} (h : Names.Proper names) (v : Variable) :
    Covers (v.check names) (Decl.var v).exprs := by
  have hvoid : Covers (.ofDiagnostics
      (if v.type.isVoid then [(Mismatch.voidVariable v.name).report v.location] else [])) [] := by
    refine .ofDiagnostics ?_
    split <;> rfl
  obtain ⟨type, name, initializer, storage, l⟩ := v
  refine hvoid.append_left ?_
  cases initializer with
  | none => exact .none
  | some e =>
    refine (e.check_covers h).append_right (.ofDiagnostics ?_)
    split <;> rfl

/-! ## Declarations -/

theorem Checked.andThen_covers {c : Checked} {next : ScopeTree → Checked} {ds es : List Expr}
    (h : Covers c.findings ds) (h' : ∀ t, Covers (next t).findings es) :
    Covers (c.andThen next).findings (ds ++ es) := h.append (h' _)

theorem Checked.prepend_covers {f : Findings} {c : Checked} {ds es : List Expr}
    (hf : Covers f ds) (h : Covers c.findings es) : Covers (c.prepend f).findings (ds ++ es) :=
  hf.append h

theorem ScopeTree.declare_covers (t : ScopeTree) (scope : Nat) (x : Symbol) :
    Covers (t.declare scope x).findings [] := by
  unfold declare
  split
  · exact .none
  · exact .ofDiagnostics rfl

theorem Decl.check_covers (scope : Nat) (d : Decl) (t : ScopeTree) :
    Covers (d.check scope t).findings d.exprs := by
  have hname := t.declare_covers scope d.symbol
  cases d with
  | function p => exact Covers.none.append_left hname
  | var v => exact (v.check_covers (t.lookup_proper scope)).append_right hname

theorem Decl.checkAll_covers (scope : Nat) (ds : List Decl) (t : ScopeTree) :
    Covers (Decl.checkAll scope ds t).findings (ds.flatMap Decl.exprs) := by
  induction ds generalizing t with
  | nil => exact .none
  | cons d rest ih => exact Checked.andThen_covers (d.check_covers scope t) ih

theorem Parameter.check_covers (scope : Nat) (p : Parameter) (t : ScopeTree) :
    Covers (p.check scope t).findings [] := by
  refine Covers.append_left (.ofDiagnostics ?_) (t.declare_covers scope _)
  split <;> rfl

theorem Parameter.checkAll_covers (scope : Nat) (ps : List Parameter) (t : ScopeTree) :
    Covers (Parameter.checkAll scope ps t).findings [] := by
  induction ps generalizing t with
  | nil => exact .none
  | cons p rest ih => exact Checked.andThen_covers (p.check_covers scope t) ih

/-! ## Statements -/

mutual

theorem Stmt.check_covers (ctx : Context) : ∀ (s : Stmt) (t : ScopeTree),
    Covers (s.check ctx t).findings s.exprs
  | .block body, t => body.check_covers ctx t
  | .ifThen condition body _, t =>
    (condition.checkCondition_covers (t.lookup_proper _)).append (body.check_covers ctx t)
  | .ifElse condition body alternative _, t =>
    (condition.checkCondition_covers (t.lookup_proper _)).append
      (Checked.andThen_covers (body.check_covers ctx t) (alternative.check_covers ctx))
  | .whileLoop condition body _, t =>
    (condition.checkCondition_covers (t.lookup_proper _)).append (body.check_covers _ t)
  | .forLoop first condition step body _, t => by
    have hnames := t.lookup_proper ctx.scope
    have h₁ := optionalFindings_covers first fun e => e.check_covers hnames
    have h₂ := optionalFindings_covers condition fun e => e.checkCondition_covers hnames
    have h₃ := optionalFindings_covers step fun e => e.check_covers hnames
    rw [Stmt.exprs, ← List.append_assoc condition.toList, ← List.append_assoc first.toList]
    exact Checked.prepend_covers (h₁.append (h₂.append h₃)) (body.check_covers _ t)
  | .jump kind l, t => by
    refine .ofDiagnostics ?_
    split <;> rfl
  | .returnStmt value l, t => by
    refine optionalFindings_covers value fun e => ?_
    refine (e.check_covers (t.lookup_proper _)).append_right (.ofDiagnostics ?_)
    split
    · exact (ctx.function.returnFaults_ofRule _ _).undefinedAmong
    · rfl
  | .expr e _, t => e.check_covers (t.lookup_proper _)

theorem Stmt.checkAll_covers (ctx : Context) : ∀ (ss : List Stmt) (t : ScopeTree),
    Covers (Stmt.checkAll ctx ss t).findings (Stmt.exprsAll ss)
  | [], _ => .none
  | s :: rest, t => Checked.andThen_covers (s.check_covers ctx t) (Stmt.checkAll_covers ctx rest)

theorem Block.check_covers (ctx : Context) : ∀ (b : Block) (t : ScopeTree),
    Covers (b.check ctx t).findings b.exprs
  | .mk decls stmts _, t => by
    have hinner := Checked.andThen_covers
      (Decl.checkAll_covers t.size decls (t.push ctx.scope))
      (Stmt.checkAll_covers { ctx with scope := t.size } stmts)
    exact Covers.append_left (.nothing rfl rfl rfl) (hinner.append_right (.nothing rfl rfl rfl))

end

/-! ## Units -/

theorem Prototype.checkBody_covers (returnTypes : Bool) (p : Prototype) (body : Block)
    (t : ScopeTree) : Covers (p.checkBody returnTypes body t).findings body.exprs := by
  cases body with
  | mk decls stmts l =>
    have hsignature := Parameter.checkAll_covers t.size p.parameters (t.push ScopeTree.root)
    have hinner := Checked.andThen_covers
      (Checked.andThen_covers hsignature (Decl.checkAll_covers t.size decls))
      (Stmt.checkAll_covers ⟨returnTypes, p, t.size, false⟩ stmts)
    refine Covers.append_left (.nothing rfl rfl rfl) (hinner.append_right (.nothing rfl rfl ?_))
    split <;> rfl

theorem External.check_covers (returnTypes : Bool) (d : External) (t : ScopeTree) :
    Covers (d.check returnTypes t).findings d.exprs := by
  cases d with
  | decl d => exact d.check_covers _ t
  | definition p body =>
    exact (t.declare_covers _ _).append_left (p.checkBody_covers returnTypes body _)

theorem External.checkAll_covers (returnTypes : Bool) (ds : List External) (t : ScopeTree) :
    Covers (External.checkAll returnTypes ds t).findings (ds.flatMap External.exprs) := by
  induction ds generalizing t with
  | nil => exact .none
  | cons d rest ih => exact Checked.andThen_covers (d.check_covers returnTypes t) ih

/-- The check of a unit comes by all nodes of its expressions. -/
theorem CompilationUnit.check_covers (u : CompilationUnit) (returnTypes : Bool) :
    Covers (u.check returnTypes).findings u.exprs := by
  refine (External.checkAll_covers returnTypes u.decls .initial).append_right (.ofDiagnostics ?_)
  unfold mainFaults
  dsimp only
  split <;> rfl

/-! ## Looking up annotations -/

namespace Annotates

variable {f : Findings} {os : List Occurrence} {o : Occurrence}

/-- The numbers in the table of types are those of the nodes, in their order. -/
theorem types_keys (h : Annotates f os) :
    f.types.map Prod.fst = (os.map Occurrence.node).map Expr.id := by
  rw [h.types, List.map_map, List.map_map]
  rfl

/-- Where nodes have different numbers, none is recorded with two symbols. -/
theorem symbols_keys_nodup (h : Annotates f os) (hnd : (os.map fun o => o.node.id).Nodup) :
    (f.symbols.map Prod.fst).Nodup := by
  rw [h.symbols]
  refine List.pairwise_map.mpr (List.Pairwise.filterMap _ ?_ (List.pairwise_map.mp hnd))
  intro o o' hne x hx x' hx'
  rw [o.symbol?_eq] at hx
  rw [o'.symbol?_eq] at hx'
  obtain ⟨s, -, rfl⟩ := Option.map_eq_some_iff.mp hx
  obtain ⟨s', -, rfl⟩ := Option.map_eq_some_iff.mp hx'
  exact hne

theorem lookup_types (h : Annotates f os) (hnd : (os.map fun o => o.node.id).Nodup)
    (ho : o ∈ os) : f.types.lookup o.node.id = some (o.node.check o.names).type := by
  rw [h.types, ← List.filterMap_eq_map]
  exact lookup_recorded (v := fun o => some (o.node.check o.names).type) hnd ho

theorem lookup_symbols (h : Annotates f os) (hnd : (os.map fun o => o.node.id).Nodup)
    (ho : o ∈ os) : f.symbols.lookup o.node.id = o.bound? := by
  rw [h.symbols, funext Occurrence.symbol?_eq]
  exact lookup_recorded hnd ho

/-- What is found under the number of an identifier. -/
theorem lookup_ident (h : Annotates f os) (hnd : (os.map fun o => o.node.id).Nodup) (ho : o ∈ os)
    {a : Anchor} {name : String} (hnode : o.node = .ident a name) :
    f.symbols.lookup a.id = o.names name ∧
      f.types.lookup a.id = some ((o.names name).elim .invalid Symbol.valueType) := by
  have hsymbol := h.lookup_symbols hnd ho
  have htype := h.lookup_types hnd ho
  rw [Occurrence.bound?, hnode] at hsymbol
  rw [hnode, Expr.check] at htype
  refine ⟨hsymbol, htype.trans ?_⟩
  cases o.names name <;> rfl

end Annotates

theorem lookup_isSome_iff_mem_keys {β : Type} {table : List (Nat × β)} {id : Nat} :
    (table.lookup id).isSome ↔ id ∈ table.map Prod.fst := by
  rw [List.lookup_isSome_iff, List.mem_map]
  exact exists_congr fun p => and_congr_right fun _ => beq_iff_eq.trans eq_comm

/-- Nothing is recorded under numbers that no node has. -/
theorem Annotates.lookup_other {f : Findings} {os : List Occurrence} (h : Annotates f os)
    {id : Nat} (hid : ∀ o ∈ os, o.node.id ≠ id) :
    f.types.lookup id = none ∧ f.symbols.lookup id = none := by
  constructor
  · rw [← Option.not_isSome_iff_eq_none, lookup_isSome_iff_mem_keys, h.types_keys, List.map_map]
    intro hmem
    obtain ⟨o, ho, heq⟩ := List.mem_map.mp hmem
    exact hid o ho heq
  · rw [← Option.not_isSome_iff_eq_none, lookup_isSome_iff_mem_keys, h.symbols]
    intro hmem
    obtain ⟨p, hp, rfl⟩ := List.mem_map.mp hmem
    obtain ⟨o, ho, hsymbol⟩ := List.mem_filterMap.mp hp
    rw [o.symbol?_eq] at hsymbol
    obtain ⟨s, -, rfl⟩ := Option.map_eq_some_iff.mp hsymbol
    exact hid o ho rfl

/-- The tables of a report are exactly about some expression nodes. Each of them has a type, and
nothing else does. Only identifiers stand for symbols; one that does has the type of its symbol,
which is of its name, and the others have the type `invalid` and are reported in source order. -/
structure Report.Annotated (r : Report) (nodes : List Expr) : Prop where
  typed : ∀ id, (r.typeOf? id).isSome ↔ id ∈ nodes.map Expr.id
  identifiers : ∀ id, (r.symbolOf? id).isSome → ∃ a name, .ident a name ∈ nodes ∧ a.id = id
  resolved : ∀ a name s, .ident a name ∈ nodes → r.symbolOf? a.id = some s →
    s.name = name ∧ r.typeOf? a.id = some s.valueType
  unresolved : ∀ a name, .ident a name ∈ nodes → r.symbolOf? a.id = none →
    r.typeOf? a.id = some .invalid
  reported : r.diagnostics.filter Diagnostic.isUndefined =
    ((nodes.filterMap Expr.ident?).filter fun i => (r.symbolOf? i.1.id).isNone).map fun i =>
      .undefinedSymbol i.2 i.1.location

theorem Expr.ident?_eq_some {e : Expr} {i : Anchor × String} (h : e.ident? = some i) :
    e = .ident i.1 i.2 := by
  cases e with
  | ident a name => cases h; rfl
  | _ => cases h

/-- A report is about the nodes of its occurrences, in whatever order they are listed. -/
theorem Annotates.annotated {r : Report} {os : List Occurrence} {nodes : List Expr}
    (h : Annotates r.findings os) (hproper : ∀ o ∈ os, Names.Proper o.names)
    (hnd : (os.map fun o => o.node.id).Nodup) (hperm : nodes.Perm (os.map Occurrence.node))
    (hidents : nodes.filterMap Expr.ident? = (os.map Occurrence.node).filterMap Expr.ident?) :
    r.Annotated nodes := by
  have hident : ∀ {a name}, Expr.ident a name ∈ nodes → ∃ o ∈ os, o.node = .ident a name :=
    fun hmem => List.mem_map.mp (hperm.mem_iff.mp hmem)
  refine ⟨?_, ?_, ?_, ?_, ?_⟩
  · intro id
    rw [Report.typeOf?, lookup_isSome_iff_mem_keys, h.types_keys]
    exact (hperm.map Expr.id).mem_iff.symm
  · intro id hid
    obtain ⟨p, hp, rfl⟩ := List.mem_map.mp (lookup_isSome_iff_mem_keys.mp hid)
    rw [h.symbols] at hp
    obtain ⟨o, ho, hsymbol⟩ := List.mem_filterMap.mp hp
    obtain ⟨i, hi, hrecord⟩ := Option.bind_eq_some_iff.mp hsymbol
    obtain ⟨s, -, rfl⟩ := Option.map_eq_some_iff.mp hrecord
    have hmem : o.node ∈ nodes := hperm.mem_iff.mpr (List.mem_map_of_mem ho)
    rw [Expr.ident?_eq_some hi] at hmem
    exact ⟨i.1, i.2, hmem, rfl⟩
  · intro a name s hmem hs
    obtain ⟨o, ho, hnode⟩ := hident hmem
    obtain ⟨hsymbol, htype⟩ := h.lookup_ident hnd ho hnode
    have hnames : o.names name = some s := hsymbol.symm.trans hs
    rw [hnames] at htype
    exact ⟨hproper o ho name s hnames, htype⟩
  · intro a name hmem hs
    obtain ⟨o, ho, hnode⟩ := hident hmem
    obtain ⟨hsymbol, htype⟩ := h.lookup_ident hnd ho hnode
    have hnames : o.names name = none := hsymbol.symm.trans hs
    rwa [hnames] at htype
  · -- where an identifier is checked, its name stands for what is found under its number
    have hfault : ∀ o ∈ os, o.fault? = o.node.ident?.bind fun i =>
        if (r.symbolOf? i.1.id).isNone then some (.undefinedSymbol i.2 i.1.location) else none := by
      intro o ho
      cases hi : o.node.ident? with
      | none => rw [Occurrence.fault?, hi]; rfl
      | some i =>
        have hsymbol := (h.lookup_ident hnd ho (Expr.ident?_eq_some hi)).1
        rw [Occurrence.fault?, hi, Option.bind_some, Option.bind_some, Expr.fault?,
          Report.symbolOf?, hsymbol]
    have hundefined : r.diagnostics.filter Diagnostic.isUndefined = _ := h.undefined
    rw [hundefined, List.filterMap_congr hfault, hidents, ← filterMap_guarded,
      List.filterMap_filterMap, List.filterMap_map]
    rfl

/-! ## Annotations of parsed units -/

/-- Nodes in a parsed unit have different numbers. -/
theorem nodes_ids_nodup {ts : List Token} {u : CompilationUnit}
    (h : CompilationUnit.ofTokens? ts = .ok u) :
    ((u.exprs.flatMap Expr.nodes).map Expr.id).Nodup := by
  obtain ⟨n, hn⟩ := (Parse.translationUnit_of_ofTokens? h).carries
  rw [hn.ids]
  exact List.nodup_range'

theorem CompilationUnit.check_annotated {ts : List Token} {u : CompilationUnit}
    (h : CompilationUnit.ofTokens? ts = .ok u) (returnTypes : Bool) :
    (u.check returnTypes).Annotated (Walk.found (Walk.unit Walk.everywhere u)) := by
  obtain ⟨os, hannotates, hnodes, hproper⟩ := u.check_covers returnTypes
  refine hannotates.annotated hproper ?_ ?_ ?_
  · have hnd := nodes_ids_nodup h
    rwa [← hnodes, List.map_map] at hnd
  · rw [hnodes]
    exact Walk.found_unit_perm u
  · rw [hnodes, List.filterMap_flatMap, Walk.found_unit, List.filterMap_flatMap,
      funext Expr.preorder_idents]
    rfl

/-- Where tokens stand at different positions, an identifier of a parsed unit is told by its
position. -/
theorem idents_eq_of_location {ts : List Token} {u : CompilationUnit}
    (h : CompilationUnit.ofTokens? ts = .ok u) (hts : (ts.map Token.location).Nodup)
    {i j : Anchor × String}
    (hi : i ∈ (Walk.found (Walk.unit Walk.everywhere u)).filterMap Expr.ident?)
    (hj : j ∈ (Walk.found (Walk.unit Walk.everywhere u)).filterMap Expr.ident?)
    (hl : i.1.location = j.1.location) : i = j := by
  have huses : (Walk.found (Walk.unit Walk.everywhere u)).filterMap Expr.ident? =
      u.uses.map Use.ident := by
    rw [u.uses_idents, Walk.found_unit, List.filterMap_flatMap, funext Expr.preorder_idents]
  rw [huses] at hi hj
  have hnd := (uses_locations_sublist h).nodup hts
  have hlocations : u.uses.map (fun x => x.anchor.location) =
      (u.uses.map Use.ident).map fun i => i.1.location := by
    rw [List.map_map]
    rfl
  rw [hlocations] at hnd
  exact List.inj_on_of_nodup_map hnd hi hj hl

/-- In a parsed unit the nodes of expressions have different numbers. A report of it has a type
under exactly these numbers, whatever else is wrong with a node or around it. It has a symbol only
for identifiers: one with a symbol is of its name and type, and one without has the type `invalid`
and is reported as unbound. Where tokens stand at different positions, exactly those identifiers
have a symbol at whose position no unbound name is reported. -/
theorem check_annotates_nodes {ts : List Token} {u : CompilationUnit}
    (h : CompilationUnit.ofTokens? ts = .ok u) (returnTypes : Bool) :
    let r := u.check returnTypes
    let nodes := ((Node.unit u).walk fun _ => true).filterMap Node.expr?
    (nodes.map Expr.id).Nodup ∧ r.Annotated nodes ∧
      ((ts.map Token.location).Nodup → ∀ a name, .ident a name ∈ nodes →
        ((r.symbolOf? a.id).isSome ↔
          ∀ d ∈ r.diagnostics, d.isUndefined → d.location? ≠ some a.location)) := by
  intro r nodes
  have hannotated : r.Annotated nodes := u.check_annotated h returnTypes
  refine ⟨?_, hannotated, ?_⟩
  · exact ((Walk.found_unit_perm u).map Expr.id).nodup_iff.mpr (nodes_ids_nodup h)
  · intro hts a name hmem
    have hident : (a, name) ∈ nodes.filterMap Expr.ident? :=
      List.mem_filterMap.mpr ⟨_, hmem, rfl⟩
    constructor
    · intro hsome d hd hundefined hlocation
      have hmem' : d ∈ r.diagnostics.filter Diagnostic.isUndefined :=
        List.mem_filter.mpr ⟨hd, hundefined⟩
      rw [hannotated.reported] at hmem'
      obtain ⟨i, hi, rfl⟩ := List.mem_map.mp hmem'
      obtain ⟨hi, hnone⟩ := List.mem_filter.mp hi
      obtain rfl := idents_eq_of_location h hts hi hident (Option.some.inj hlocation)
      rw [Option.isNone_iff_eq_none.mp hnone] at hsome
      cases hsome
    · intro hfar
      by_contra hsome
      have hnone : (r.symbolOf? a.id).isNone :=
        Option.isNone_iff_eq_none.mpr (Option.not_isSome_iff_eq_none.mp hsome)
      have hreport : .undefinedSymbol name a.location ∈
          r.diagnostics.filter Diagnostic.isUndefined := by
        rw [hannotated.reported]
        exact List.mem_map.mpr ⟨(a, name), List.mem_filter.mpr ⟨hident, hnone⟩, rfl⟩
      exact hfar _ (List.mem_filter.mp hreport).1 rfl rfl

/-- The tokens of `int a; int b = a(c, a);`. -/
def calledVariableTokens : List Token :=
  [.ofWord .intKw ⟨1, 1⟩, ⟨.identifier "a", ⟨1, 5⟩⟩, .ofMark .semicolon ⟨1, 6⟩,
    .ofWord .intKw ⟨1, 8⟩, ⟨.identifier "b", ⟨1, 12⟩⟩, .ofMark .assign ⟨1, 14⟩,
    ⟨.identifier "a", ⟨1, 16⟩⟩, .ofMark .leftParen ⟨1, 17⟩, ⟨.identifier "c", ⟨1, 18⟩⟩,
    .ofMark .comma ⟨1, 19⟩, ⟨.identifier "a", ⟨1, 21⟩⟩, .ofMark .rightParen ⟨1, 22⟩,
    .ofMark .semicolon ⟨1, 23⟩]

/-- The unit that `int a; int b = a(c, a);` is read as. -/
def calledVariableUnit : CompilationUnit :=
  ⟨[.decl (.var ⟨⟨.int, false, 0, []⟩, "a", none, .none, ⟨1, 5⟩⟩),
    .decl (.var ⟨⟨.int, false, 0, []⟩, "b",
      some (.call ⟨3, ⟨1, 17⟩⟩ (.ident ⟨0, ⟨1, 16⟩⟩ "a")
        [.ident ⟨1, ⟨1, 18⟩⟩ "c", .ident ⟨2, ⟨1, 21⟩⟩ "a"]), .none, ⟨1, 12⟩⟩)]⟩

/-- What is called is no function, and its arguments are still looked at. -/
theorem check_annotates_nodes_calledVariable :
    CompilationUnit.ofTokens? calledVariableTokens = .ok calledVariableUnit ∧
      (calledVariableTokens.map Token.location).Nodup ∧
      (calledVariableUnit.check true).findings.types =
        [(0, .int), (1, .invalid), (2, .int), (3, .invalid)] ∧
      (calledVariableUnit.check true).findings.symbols =
        [(0, .var "a" ⟨.int, false, 0, []⟩ false ⟨1, 5⟩),
          (2, .var "a" ⟨.int, false, 0, []⟩ false ⟨1, 5⟩)] ∧
      (calledVariableUnit.check true).Annotated
        (((Node.unit calledVariableUnit).walk fun _ => true).filterMap Node.expr?) ∧
      ∀ d ∈ (calledVariableUnit.check true).diagnostics, d.isUndefined →
        d.location? ≠ some ⟨1, 21⟩ := by
  have hparse : CompilationUnit.ofTokens? calledVariableTokens = .ok calledVariableUnit := by cbv
  have hnodup : (calledVariableTokens.map Token.location).Nodup := by decide +kernel
  obtain ⟨-, hannotated, hlocated⟩ := check_annotates_nodes hparse true
  refine ⟨hparse, hnodup, by decide +kernel, by decide +kernel, hannotated, ?_⟩
  refine (hlocated hnodup ⟨2, ⟨1, 21⟩⟩ "a" ?_).mp (by decide +kernel)
  have hnode : Node.expr (.ident ⟨2, ⟨1, 21⟩⟩ "a") ∈ Walk.unit Walk.everywhere calledVariableUnit :=
    (Walk.mem_unit _ _).mpr (.tail _ (.tail _ (.head _)))
  exact List.mem_filterMap.mpr ⟨_, hnode, rfl⟩

end CSubset
