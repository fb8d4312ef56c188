-- SUMMARY: The report of a unit with other names is its report with other names.
import CSubset.Proofs.Renaming.Check
import CSubset.Proofs.Scoping.Growth

/-!
# Reports with other names

A renaming that keeps different names apart and leaves `main` alone changes nothing in a report
but names. What is left of a diagnostic without its names and texts is `Diagnostic.wordless`: its
kind, its positions and its counts.
-/

namespace CSubset

/-- A diagnostic without the texts that names can be part of. -/
def Diagnostic.wordless : Diagnostic → Diagnostic
  | duplicateSymbol _ previous l => .duplicateSymbol "" previous l
  | undefinedSymbol _ l => .undefinedSymbol "" l
  | typeMismatch _ l => .typeMismatch "" l
  | arityMismatch _ expected got variadic l => .arityMismatch "" expected got variadic l
  | invalidJump keyword l => .invalidJump keyword l
  | missingReturn _ l => .missingReturn "" l
  | notAssignable _ l => .notAssignable "" l
  | missingMain found => .missingMain found

/-- The second report is the first one with other names. Its diagnostics are of the same kinds, at
the same positions and with the same counts, its types are the same, and its scopes lie in each
other as they did. What was bound to a name in a scope, and what a node stood for, is the same
declaration renamed. -/
structure Report.Renamed (r : String → String) (x y : Report) : Prop where
  ok : y.ok = x.ok
  diagnostics : y.diagnostics.map Diagnostic.wordless = x.diagnostics.map Diagnostic.wordless
  kinds : y.diagnostics.map Diagnostic.kind = x.diagnostics.map Diagnostic.kind
  locations : y.diagnostics.map Diagnostic.location? = x.diagnostics.map Diagnostic.location?
  types : ∀ id, y.typeOf? id = x.typeOf? id
  symbols : ∀ id, y.symbolOf? id = (x.symbolOf? id).map (Symbol.rename r)
  size : y.scopes.size = x.scopes.size
  parents : ∀ n, (y.scopes.scope n).parent = (x.scopes.scope n).parent
  children : ∀ n, (y.scopes.scope n).children = (x.scopes.scope n).children
  names : ∀ n, (y.scopes.scope n).names = (x.scopes.scope n).names.map r
  bindings : ∀ n name,
    (y.scopes.scope n).find? (r name) = ((x.scopes.scope n).find? name).map (Symbol.rename r)

variable {r : String → String} {P : String → Prop}

namespace Diagnostic

theorem wordless_kind (d : Diagnostic) : d.wordless.kind = d.kind := by cases d <;> rfl

theorem wordless_location? (d : Diagnostic) : d.wordless.location? = d.location? := by
  cases d <;> rfl

theorem wordless_isFatal (d : Diagnostic) : d.wordless.isFatal = d.isFatal := by cases d <;> rfl

theorem Renamed.wordless {d d' : Diagnostic} (h : d.Renamed r P d') :
    d'.wordless = d.wordless := by
  obtain ⟨c, -, rfl, rfl⟩ := h
  cases c <;> rfl

theorem RenamedAll.map_wordless {ds ds' : List Diagnostic} (h : RenamedAll r P ds ds') :
    ds'.map Diagnostic.wordless = ds.map Diagnostic.wordless := by
  induction h with
  | nil => rfl
  | cons h _ ih => rw [List.map_cons, List.map_cons, h.wordless, ih]

/-- What can be read off diagnostics without their texts is alike if they are alike without. -/
theorem map_eq_of_wordless {α : Type} {f : Diagnostic → α} (hf : ∀ d, f d.wordless = f d)
    {ds ds' : List Diagnostic}
    (h : ds'.map Diagnostic.wordless = ds.map Diagnostic.wordless) : ds'.map f = ds.map f := by
  have hmap (es : List Diagnostic) : (es.map Diagnostic.wordless).map f = es.map f := by
    rw [List.map_map]
    exact List.map_congr_left fun d _ => hf d
  rw [← hmap, h, hmap]

end Diagnostic

theorem lookup_map_snd {α β : Type} (g : α → β) (table : List (Nat × α)) (id : Nat) :
    (table.map fun x => (x.1, g x.2)).lookup id = (table.lookup id).map g := by
  induction table with
  | nil => rfl
  | cons x rest ih =>
    rw [List.map_cons, List.lookup_cons, List.lookup_cons, ih]
    cases id == x.1 <;> rfl

theorem Scope.rename_names (s : Scope) : (s.rename r).names = s.names.map r := by
  rw [names, names, rename, List.map_map, List.map_map]
  exact List.map_congr_left fun x _ => x.rename_name

/-- The number of functions `main` is that of before if no other name becomes `main`. -/
theorem CompilationUnit.mainFaults_rename (hmain : ∀ name, r name = "main" ↔ name = "main")
    (u : CompilationUnit) : (u.rename r).mainFaults = u.mainFaults := by
  have hisMain : External.isMain ∘ External.rename r = External.isMain := by
    funext d
    cases d with
    | decl d => rfl
    | definition p body => exact decide_eq_decide.mpr (hmain p.name)
  rw [mainFaults, mainFaults, rename, List.filter_map, List.length_map, hisMain]

/-- If a renaming keeps different names apart and makes `main` of `main` alone, the report of a
unit with its names changed is the report of the unit with its names changed. The diagnostics have
the same causes with other names, one by one, apart from the one about `main`, which is the same. -/
theorem check_rename (hr : Function.Injective r) (hmain : ∀ name, r name = "main" ↔ name = "main")
    (u : CompilationUnit) (returnTypes : Bool) :
    Report.Renamed r (u.check returnTypes) ((u.rename r).check returnTypes) ∧
      ∃ ds ds', (u.check returnTypes).diagnostics = ds ++ u.mainFaults ∧
        ((u.rename r).check returnTypes).diagnostics = ds' ++ u.mainFaults ∧
        Diagnostic.RenamedAll r (fun _ => True) ds ds' := by
  have hnames : ∀ name ∈ u.decls.flatMap External.names, True := fun _ _ => trivial
  obtain ⟨hscopes, hfindings⟩ := External.checkAll_renamed hr returnTypes hnames .initial
  have hx := u.check_diagnostics returnTypes
  have hy := (u.rename r).check_diagnostics returnTypes
  rw [CompilationUnit.mainFaults_rename hmain] at hy
  have hwordless : ((u.rename r).check returnTypes).diagnostics.map Diagnostic.wordless =
      (u.check returnTypes).diagnostics.map Diagnostic.wordless := by
    rw [hx, hy, List.map_append, List.map_append]
    exact congrArg (· ++ _) hfindings.diagnostics.map_wordless
  have htree : ((u.rename r).check returnTypes).scopes = (u.check returnTypes).scopes.rename r :=
    hscopes
  have hscope (n : Nat) : ((u.rename r).check returnTypes).scopes.scope n =
      ((u.check returnTypes).scopes.scope n).rename r := by
    rw [htree, ScopeTree.scope_rename]
  refine ⟨⟨?_, hwordless, ?_, ?_, ?_, ?_, ?_, ?_, ?_, ?_, ?_⟩, _, _, hx, hy, hfindings.diagnostics⟩
  · have hany (ds : List Diagnostic) :
        ds.any Diagnostic.isFatal = (ds.map Diagnostic.isFatal).any id := by
      rw [List.any_map]
      rfl
    have hfatal := Diagnostic.map_eq_of_wordless Diagnostic.wordless_isFatal hwordless
    rw [Report.ok, Report.ok, hany, hany, hfatal]
  · exact Diagnostic.map_eq_of_wordless Diagnostic.wordless_kind hwordless
  · exact Diagnostic.map_eq_of_wordless Diagnostic.wordless_location? hwordless
  · intro id
    rw [CompilationUnit.check_typeOf?, CompilationUnit.check_typeOf?]
    exact congrArg (List.lookup id) hfindings.types
  · intro id
    rw [CompilationUnit.check_symbolOf?, CompilationUnit.check_symbolOf?, ← lookup_map_snd]
    exact congrArg (List.lookup id) hfindings.symbols
  · rw [htree, ScopeTree.size_rename]
  · intro n
    rw [hscope]
    rfl
  · intro n
    rw [hscope]
    rfl
  · intro n
    rw [hscope, Scope.rename_names]
  · intro n name
    rw [hscope, Scope.find?_rename hr]

/-- The unit that `int a; int main() { a(b); return a; }` is read as. -/
def calledNameUnit : CompilationUnit :=
  ⟨[.decl (.var ⟨⟨.int, false, 0, []⟩, "a", none, .none, ⟨1, 5⟩⟩),
    .definition ⟨⟨.int, false, 0, []⟩, "main", [], false, .none, ⟨1, 12⟩⟩
      (.mk []
        [.expr (.call ⟨2, ⟨1, 22⟩⟩ (.ident ⟨0, ⟨1, 21⟩⟩ "a") [.ident ⟨1, ⟨1, 23⟩⟩ "b"]) ⟨1, 21⟩,
          .returnStmt (some (.ident ⟨3, ⟨1, 34⟩⟩ "a")) ⟨1, 27⟩] ⟨1, 19⟩)]⟩

/-- Two names change places, and so they do in what is reported. -/
theorem check_rename_swap :
    Function.Injective (Equiv.swap "a" "b") ∧
      (∀ name, Equiv.swap "a" "b" name = "main" ↔ name = "main") ∧
      Report.Renamed (Equiv.swap "a" "b") (calledNameUnit.check true)
        ((calledNameUnit.rename (Equiv.swap "a" "b")).check true) ∧
      (calledNameUnit.check true).diagnostics.map Diagnostic.message =
        ["Type mismatch at line 1: 'a' is not a function", "Undefined symbol 'b' at line 1"] ∧
      ((calledNameUnit.rename (Equiv.swap "a" "b")).check true).diagnostics.map
          Diagnostic.message =
        ["Type mismatch at line 1: 'b' is not a function", "Undefined symbol 'a' at line 1"] := by
  have hinjective := (Equiv.swap "a" "b").injective
  have hmain : ∀ name, Equiv.swap "a" "b" name = "main" ↔ name = "main" := by
    intro name
    rw [Equiv.swap_apply_eq_iff]
    exact Iff.rfl
  exact ⟨hinjective, hmain, (check_rename hinjective hmain calledNameUnit true).1,
    by decide +kernel, by decide +kernel⟩

end CSubset
