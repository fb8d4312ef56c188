-- SUMMARY: Declarations behind others change nothing in what is reported about those.
import CSubset.Proofs.Renaming.Check
import CSubset.Proofs.Scoping.Growth

/-!
# Extending a unit

A unit is checked from its first declaration to its last, so the check of a longer unit begins
with the check of every shorter one. What comes behind may still rebind a name of the file, from a
prototype to its definition. It takes back no diagnostic, records nothing under the numbers of
earlier nodes and leaves all scopes but that of the file as they are. The one diagnostic about the
unit as a whole counts its functions `main`; it stands at the end, and nothing else is of its kind.
-/

namespace CSubset

/-! ## Functions called main -/

namespace CompilationUnit

/-- How many functions of the name `main` a unit defines. -/
def mains (u : CompilationUnit) : Nat :=
  (u.functions.filter fun f => f.1.name = "main" && f.2.isSome).length

/-- The diagnostic about the number of functions `main`, unless there is one such function. -/
def missingMain (u : CompilationUnit) : List Diagnostic :=
  if u.mains = 1 then [] else [.missingMain u.mains]

theorem mainFaults_eq (u : CompilationUnit) : u.mainFaults = u.missingMain := by
  have hmains : (u.decls.filter External.isMain).length = u.mains := by
    rw [mains, functions]
    induction u.decls with
    | nil => rfl
    | cons d rest ih =>
      cases d with
      | decl d =>
        cases d <;> simpa [List.filterMap_cons, External.isMain, External.function?] using ih
      | definition p body =>
        by_cases hp : p.name = "main" <;> simpa [External.isMain, External.function?, hp] using ih
  rw [mainFaults, missingMain, hmains]

end CompilationUnit

/-- No diagnostic about a declaration is the one about `main`. -/
theorem Cause.isFatal_diagnostic (c : Cause) : c.diagnostic.isFatal = false := by
  cases c <;> rfl

theorem External.checkAll_notFatal (returnTypes : Bool) (ds : List External) (t : ScopeTree) :
    ∀ d ∈ (checkAll returnTypes ds t).findings.diagnostics, d.isFatal = false := by
  intro d hd
  obtain ⟨c, -, rfl⟩ :=
    checkAll_causes (P := fun _ => True) returnTypes (fun _ _ => trivial) t d hd
  exact c.isFatal_diagnostic

/-- A unit is a program exactly if nothing is wrong with its functions `main`. -/
theorem CompilationUnit.check_ok_iff (u : CompilationUnit) (returnTypes : Bool) :
    (u.check returnTypes).ok = true ↔ u.missingMain = [] := by
  have hwalk := External.checkAll_notFatal returnTypes u.decls .initial
  have hany : (External.checkAll returnTypes u.decls .initial).findings.diagnostics.any
      Diagnostic.isFatal = false := by
    simpa using hwalk
  rw [Report.ok, check_diagnostics, mainFaults_eq, List.any_append, hany, missingMain]
  by_cases h : u.mains = 1
  · simp [h]
  · simp [h, Diagnostic.isFatal]

/-! ## Going on -/

/-- The report `y` leaves what `x` records about some nodes and all inner scopes as it is. -/
structure Report.Extends (x y : Report) (nodes : List Expr) : Prop where
  types : ∀ e ∈ nodes, y.typeOf? e.id = x.typeOf? e.id
  symbols : ∀ e ∈ nodes, y.symbolOf? e.id = x.symbolOf? e.id
  size : x.scopes.size ≤ y.scopes.size
  scopes : ∀ n, n ≠ ScopeTree.root → n < x.scopes.size → y.scopes.scope n = x.scopes.scope n

/-- What is found about other nodes does not hide what is found about some. -/
theorem Covers.lookup_append {f g : Findings} {ds es : List Expr} (hg : Covers g es)
    (hnd : (((ds ++ es).flatMap Expr.nodes).map Expr.id).Nodup) {e : Expr}
    (he : e ∈ ds.flatMap Expr.nodes) :
    (f ++ g).types.lookup e.id = f.types.lookup e.id ∧
      (f ++ g).symbols.lookup e.id = f.symbols.lookup e.id := by
  obtain ⟨os, hos, hnodes, -⟩ := hg
  rw [List.flatMap_append, List.map_append, List.nodup_append] at hnd
  have hother : ∀ o ∈ os, o.node.id ≠ e.id := by
    intro o ho heq
    have hmem : o.node ∈ es.flatMap Expr.nodes := by
      rw [← hnodes]
      exact List.mem_map_of_mem ho
    exact hnd.2.2 _ (List.mem_map_of_mem he) _ (List.mem_map_of_mem hmem) heq.symm
  obtain ⟨htypes, hsymbols⟩ := hos.lookup_other hother
  rw [Findings.types_append, Findings.symbols_append, List.lookup_append, List.lookup_append,
    htypes, hsymbols, Option.or_none, Option.or_none]
  exact ⟨rfl, rfl⟩

/-- The report of a parsed unit extends that of every list of declarations that it begins with. -/
theorem CompilationUnit.check_extends {ts : List Token} {us vs : List External}
    (h : CompilationUnit.ofTokens? ts = .ok ⟨us ++ vs⟩) (returnTypes : Bool) :
    Report.Extends ((mk us).check returnTypes) ((mk (us ++ vs)).check returnTypes)
      ((mk us).exprs.flatMap Expr.nodes) := by
  have hnd := nodes_ids_nodup h
  rw [exprs, List.flatMap_append] at hnd
  have hwalk := External.checkAll_append returnTypes us vs .initial
  have hcovers := External.checkAll_covers returnTypes vs
    (External.checkAll returnTypes us .initial).scopes
  have hroot := (External.checkAll_grows returnTypes us (t := .initial) Nat.one_pos).lt Nat.one_pos
  have hgrows : ScopeTree.Grows ScopeTree.root _ _ _ _ :=
    External.checkAll_grows returnTypes vs hroot
  have hscopes : ((mk (us ++ vs)).check returnTypes).scopes =
      (External.checkAll returnTypes vs
        (External.checkAll returnTypes us .initial).scopes).scopes := by
    rw [check, hwalk]
    rfl
  refine ⟨?_, ?_, ?_, ?_⟩
  · intro e he
    rw [check_typeOf?, check_typeOf?, hwalk]
    exact (hcovers.lookup_append hnd he).1
  · intro e he
    rw [check_symbolOf?, check_symbolOf?, hwalk]
    exact (hcovers.lookup_append hnd he).2
  · rw [hscopes, hgrows.size]
    exact Nat.le_add_right _ _
  · intro n hn hlt
    rw [hscopes, hgrows.scope_eq hlt, if_neg (Ne.symm hn)]
    rfl

/-- However the declarations of a parsed unit are cut in two, the report of the whole begins with
the diagnostics of the first part, and it extends the report of that part. At the end of either
report there is the diagnostic about the number of functions `main`, if that is not one, and this
alone decides whether the unit is a program; no diagnostic in front of it is of its kind. -/
theorem check_append_extends {ts : List Token} {us vs : List External}
    (h : CompilationUnit.ofTokens? ts = .ok ⟨us ++ vs⟩) (returnTypes : Bool) :
    let u : CompilationUnit := ⟨us⟩
    let whole : CompilationUnit := ⟨us ++ vs⟩
    ∃ ds ds', (u.check returnTypes).diagnostics = ds ++ u.missingMain ∧
      (whole.check returnTypes).diagnostics = ds ++ (ds' ++ whole.missingMain) ∧
      (∀ d ∈ ds ++ ds', d.kind ≠ .missingMain) ∧
      ((u.check returnTypes).ok = true ↔ u.missingMain = []) ∧
      ((whole.check returnTypes).ok = true ↔ whole.missingMain = []) ∧
      Report.Extends (u.check returnTypes) (whole.check returnTypes)
        (((Node.unit u).walk fun _ => true).filterMap Node.expr?) := by
  intro u whole
  let first := External.checkAll returnTypes us .initial
  let rest := External.checkAll returnTypes vs first.scopes
  have hwhole : (External.checkAll returnTypes (us ++ vs) .initial).findings.diagnostics =
      first.findings.diagnostics ++ rest.findings.diagnostics := by
    rw [External.checkAll_append, Checked.andThen, Findings.diagnostics_append]
  refine ⟨first.findings.diagnostics, rest.findings.diagnostics, ?_, ?_, ?_,
    u.check_ok_iff returnTypes, whole.check_ok_iff returnTypes, ?_⟩
  · rw [u.check_diagnostics, u.mainFaults_eq]
  · rw [whole.check_diagnostics, whole.mainFaults_eq, hwhole, List.append_assoc]
  · intro d hd hkind
    rw [← hwhole] at hd
    have hfatal := External.checkAll_notFatal returnTypes (us ++ vs) .initial d hd
    cases d <;> cases hkind
    cases hfatal
  · have hextends := CompilationUnit.check_extends h returnTypes
    have hmem (e : Expr) :
        e ∈ Walk.found (Walk.unit Walk.everywhere u) ↔ e ∈ u.exprs.flatMap Expr.nodes :=
      (Walk.found_unit_perm u).mem_iff
    exact ⟨fun e he => hextends.types e ((hmem e).mp he),
      fun e he => hextends.symbols e ((hmem e).mp he), hextends.size, hextends.scopes⟩

/-- The tokens of `void f(); void g() { f(); x; } void f() { } void main() { }`. -/
def rebindingTokens : List Token :=
  [.ofWord .voidKw ⟨1, 1⟩, ⟨.identifier "f", ⟨1, 6⟩⟩, .ofMark .leftParen ⟨1, 7⟩,
    .ofMark .rightParen ⟨1, 8⟩, .ofMark .semicolon ⟨1, 9⟩,
    .ofWord .voidKw ⟨1, 11⟩, ⟨.identifier "g", ⟨1, 16⟩⟩, .ofMark .leftParen ⟨1, 17⟩,
    .ofMark .rightParen ⟨1, 18⟩, .ofMark .leftBrace ⟨1, 20⟩, ⟨.identifier "f", ⟨1, 22⟩⟩,
    .ofMark .leftParen ⟨1, 23⟩, .ofMark .rightParen ⟨1, 24⟩, .ofMark .semicolon ⟨1, 25⟩,
    ⟨.identifier "x", ⟨1, 27⟩⟩, .ofMark .semicolon ⟨1, 28⟩, .ofMark .rightBrace ⟨1, 30⟩,
    .ofWord .voidKw ⟨1, 32⟩, ⟨.identifier "f", ⟨1, 37⟩⟩, .ofMark .leftParen ⟨1, 38⟩,
    .ofMark .rightParen ⟨1, 39⟩, .ofMark .leftBrace ⟨1, 41⟩, .ofMark .rightBrace ⟨1, 43⟩,
    .ofWord .voidKw ⟨1, 45⟩, ⟨.identifier "main", ⟨1, 50⟩⟩, .ofMark .leftParen ⟨1, 54⟩,
    .ofMark .rightParen ⟨1, 55⟩, .ofMark .leftBrace ⟨1, 57⟩, .ofMark .rightBrace ⟨1, 59⟩]

/-- The function that `void name()` declares. -/
def procedure (name : String) (l : Location) : Prototype :=
  ⟨⟨.void, false, 0, []⟩, name, [], false, .none, l⟩

/-- The first two of these declarations: a prototype, and a function that calls what it declares. -/
def callingDecls : List External :=
  [.decl (.function (procedure "f" ⟨1, 6⟩)),
    .definition (procedure "g" ⟨1, 16⟩)
      (.mk []
        [.expr (.call ⟨1, ⟨1, 23⟩⟩ (.ident ⟨0, ⟨1, 22⟩⟩ "f") []) ⟨1, 22⟩,
          .expr (.ident ⟨2, ⟨1, 27⟩⟩ "x") ⟨1, 27⟩] ⟨1, 20⟩)]

/-- The others, which define what was declared. -/
def definingDecls : List External :=
  [.definition (procedure "f" ⟨1, 37⟩) (.mk [] [] ⟨1, 41⟩),
    .definition (procedure "main" ⟨1, 50⟩) (.mk [] [] ⟨1, 57⟩)]

/-- The definition takes the place of the prototype in the scope of the file, and the call still
stands for the prototype. -/
theorem check_append_extends_rebinding :
    CompilationUnit.ofTokens? rebindingTokens = .ok ⟨callingDecls ++ definingDecls⟩ ∧
      Report.Extends ((CompilationUnit.mk callingDecls).check true)
        ((CompilationUnit.mk (callingDecls ++ definingDecls)).check true)
        (((Node.unit ⟨callingDecls⟩).walk fun _ => true).filterMap Node.expr?) ∧
      ((CompilationUnit.mk callingDecls).check true).diagnostics =
        [.undefinedSymbol "x" ⟨1, 27⟩, .missingMain 0] ∧
      ((CompilationUnit.mk (callingDecls ++ definingDecls)).check true).diagnostics =
        [.undefinedSymbol "x" ⟨1, 27⟩] ∧
      ((CompilationUnit.mk (callingDecls ++ definingDecls)).check true).symbolOf? 0 =
        some (.function (procedure "f" ⟨1, 6⟩) false) ∧
      (((CompilationUnit.mk (callingDecls ++ definingDecls)).check true).scopes.scope 0).find? "f" =
        some (.function (procedure "f" ⟨1, 37⟩) true) := by
  have hparse : CompilationUnit.ofTokens? rebindingTokens =
      .ok ⟨callingDecls ++ definingDecls⟩ := by cbv
  obtain ⟨_, _, -, -, -, -, -, hextends⟩ := check_append_extends hparse true
  exact ⟨hparse, hextends, by decide +kernel, by decide +kernel, by decide +kernel,
    by decide +kernel⟩

end CSubset
