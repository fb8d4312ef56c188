-- SUMMARY: Symbols, scopes and findings with other positions and node numbers.
import CSubset.Check.Unit
import CSubset.Proofs.Syntax.Relabel

/-!
# Relabeled findings

Symbols keep where their names are declared, diagnostics where something is wrong, and what is
recorded about expressions is kept by the numbers of nodes. Here these labels are changed
throughout. Binding a name, opening a scope and looking a name up do not look at them.
-/

namespace CSubset

/-! ## Labels of what a check holds and finds -/

variable (r : Relabeling)

/-- A symbol with its labels changed. -/
def Symbol.relabel : Symbol → Symbol
  | function p defined => .function (p.relabel r) defined
  | var name type forward l => .var name type forward (r.place l)
  | parameter p => .parameter (p.relabel r)

/-- A diagnostic at its new position. -/
def Diagnostic.relabel : Diagnostic → Diagnostic
  | duplicateSymbol name previous l => .duplicateSymbol name (r.place previous) (r.place l)
  | undefinedSymbol name l => .undefinedSymbol name (r.place l)
  | typeMismatch message l => .typeMismatch message (r.place l)
  | arityMismatch function expected got variadic l =>
    .arityMismatch function expected got variadic (r.place l)
  | invalidJump keyword l => .invalidJump keyword (r.place l)
  | missingReturn function l => .missingReturn function (r.place l)
  | notAssignable target l => .notAssignable target (r.place l)
  | missingMain found => .missingMain found

/-- An event with its labels changed; the numbers of scopes are none. -/
def Event.relabel : Event → Event
  | diagnostic d => .diagnostic (d.relabel r)
  | event => event

/-- Findings with their labels changed. -/
def Findings.relabel (f : Findings) : Findings :=
  ⟨f.events.map (Event.relabel r), f.types.map fun x => (r.number x.1, x.2),
    f.symbols.map fun x => (r.number x.1, x.2.relabel r)⟩

/-- A type, and what was found on the way to it with its labels changed. -/
def Typed.relabel (x : Typed) : Typed := ⟨x.type, x.findings.relabel r⟩

/-- A verdict with the labels of its diagnostics changed. -/
def Verdict.relabel (v : Verdict) : Verdict := (v.1, v.2.map (Diagnostic.relabel r))

/-- What names stand for, with the labels of symbols changed. -/
def Names.relabel (names : Names) : Names := fun name => (names name).map (Symbol.relabel r)

/-- A scope with the labels of its symbols changed. -/
def Scope.relabel (s : Scope) : Scope := { s with symbols := s.symbols.map (Symbol.relabel r) }

/-- A tree with the labels of all symbols changed. -/
def ScopeTree.relabel (t : ScopeTree) : ScopeTree := ⟨t.scopes.map (Scope.relabel r)⟩

/-- The scopes and findings of a piece of a unit with their labels changed. -/
def Checked.relabel (c : Checked) : Checked := ⟨c.scopes.relabel r, c.findings.relabel r⟩

/-- A report with its labels changed. -/
def Report.relabel (x : Report) : Report := ⟨x.scopes.relabel r, x.findings.relabel r⟩

/-- Where a statement is checked, with the labels of its function changed. -/
def Context.relabel (ctx : Context) : Context := { ctx with function := ctx.function.relabel r }

variable {r}

/-! ## Symbols and scopes -/

namespace Symbol

@[simp] theorem relabel_name (s : Symbol) : (s.relabel r).name = s.name := by cases s <;> rfl

@[simp] theorem relabel_location (s : Symbol) : (s.relabel r).location = r.place s.location := by
  cases s <;> rfl

@[simp] theorem relabel_valueType (s : Symbol) : (s.relabel r).valueType = s.valueType := by
  cases s <;> rfl

@[simp] theorem relabel_isForward (s : Symbol) : (s.relabel r).isForward = s.isForward := by
  cases s <;> rfl

@[simp] theorem relabel_agrees (s x : Symbol) :
    (s.relabel r).agrees (x.relabel r) = s.agrees x := by
  cases s <;> cases x <;>
    simp [relabel, agrees, Prototype.relabel, Parameter.relabel, Function.comp_def]

theorem ofVariable_relabel (v : Variable) :
    ofVariable (v.relabel r) = (ofVariable v).relabel r := by
  rw [ofVariable, ofVariable, relabel, Variable.relabel, Option.isNone_map]

end Symbol

theorem Decl.symbol_relabel (d : Decl) : (d.relabel r).symbol = d.symbol.relabel r := by
  cases d with
  | function p => rfl
  | var v => exact Symbol.ofVariable_relabel v

namespace Scope

theorem find?_relabel (s : Scope) (name : String) :
    (s.relabel r).find? name = (s.find? name).map (Symbol.relabel r) := by
  rw [find?, find?, relabel, List.find?_map]
  congr 2
  funext x
  simp

theorem replace_relabel (s : Scope) (x : Symbol) :
    (s.relabel r).replace (x.relabel r) = (s.replace x).relabel r := by
  simp only [replace, relabel, List.map_map, mk.injEq, and_true]
  refine List.map_congr_left fun y _ => ?_
  by_cases hy : y.name = x.name <;> simp [hy]

/-- What binding a symbol leads to does not depend on labels. -/
theorem bind_relabel (s : Scope) (x : Symbol) :
    (s.relabel r).bind (x.relabel r) =
      match s.bind x with
      | .ok s => .ok (s.relabel r)
      | .error held => .error (held.relabel r) := by
  simp only [bind, find?_relabel, Symbol.relabel_name]
  cases s.find? x.name with
  | none => simp [relabel]
  | some held =>
    simp only [Option.map_some, Symbol.relabel_agrees, Symbol.relabel_isForward, replace_relabel]
    split
    · rfl
    · split
      · rfl
      · split <;> rfl

end Scope

/-! ## Findings -/

namespace Findings

@[simp] theorem relabel_append (f g : Findings) :
    (f ++ g).relabel r = f.relabel r ++ g.relabel r := by
  simp only [relabel, append_def, List.map_append]

@[simp] theorem relabel_ofDiagnostics (ds : List Diagnostic) :
    (ofDiagnostics ds).relabel r = ofDiagnostics (ds.map (Diagnostic.relabel r)) := by
  simp only [relabel, ofDiagnostics, ofEvents, List.map_map, List.map_nil]
  rfl

@[simp] theorem relabel_ofType (id : Nat) (t : ValueType) :
    (ofType id t).relabel r = ofType (r.number id) t := rfl

theorem conclude_relabel {f f' : Findings} {v v' : Verdict} (id : Nat) (hf : f' = f.relabel r)
    (hv : v' = Verdict.relabel r v) :
    f'.conclude (r.number id) v' = (f.conclude id v).relabel r := by
  subst hf hv
  simp only [conclude, Typed.relabel, Verdict.relabel, relabel_append, relabel_ofDiagnostics,
    relabel_ofType]

/-- The diagnostics among relabeled findings are those among the findings, relabeled. -/
theorem diagnostics_relabel (f : Findings) :
    (f.relabel r).diagnostics = f.diagnostics.map (Diagnostic.relabel r) := by
  rw [diagnostics, diagnostics, relabel, List.filterMap_map, List.map_filterMap]
  congr 1
  funext e
  cases e <;> rfl

end Findings

/-! ## Scope trees -/

namespace ScopeTree

theorem size_relabel (t : ScopeTree) : (t.relabel r).size = t.size := List.length_map _

theorem scope_relabel (t : ScopeTree) (n : Nat) :
    (t.relabel r).scope n = (t.scope n).relabel r := by
  rw [scope, scope, relabel, List.getElem?_map]
  cases t.scopes[n]? <;> rfl

theorem push_relabel (t : ScopeTree) (n : Nat) : (t.relabel r).push n = (t.push n).relabel r := by
  rw [push, push, size_relabel, relabel, relabel, List.map_append]
  congr 2
  refine List.ext_getElem? fun m => ?_
  rw [List.getElem?_modify, List.getElem?_map, List.getElem?_map, List.getElem?_modify]
  cases t.scopes[m]? with
  | none => rfl
  | some s => by_cases h : n = m <;> simp [h, Scope.relabel]

theorem add_relabel (t : ScopeTree) (n : Nat) (x : Symbol) :
    (t.relabel r).add n (x.relabel r) =
      match t.add n x with
      | .ok t => .ok (t.relabel r)
      | .error held => .error (held.relabel r) := by
  rw [add, add, scope_relabel, Scope.bind_relabel]
  cases (t.scope n).bind x with
  | error held => rfl
  | ok s => simp [Except.map, relabel, List.map_set]

theorem declare_relabel (t : ScopeTree) (n : Nat) (x : Symbol) :
    (t.relabel r).declare n (x.relabel r) = (t.declare n x).relabel r := by
  rw [declare, declare, add_relabel]
  cases t.add n x with
  | ok t => rfl
  | error held =>
    simp only [Checked.relabel, Findings.relabel_ofDiagnostics, List.map_singleton,
      Diagnostic.relabel, Symbol.relabel_name, Symbol.relabel_location]

theorem lookup_relabel (t : ScopeTree) (n : Nat) :
    (t.relabel r).lookup n = Names.relabel r (t.lookup n) := by
  funext name
  induction n using Nat.strongRecOn with
  | _ n ih =>
    rw [Names.relabel, lookup, lookup, scope_relabel, Scope.find?_relabel]
    cases (t.scope n).find? name with
    | some x => rfl
    | none =>
      simp only [Scope.relabel, Option.map_none]
      cases (t.scope n).parent with
      | none => rfl
      | some p =>
        dsimp only
        split
        · next hp => exact ih p hp
        · rfl

end ScopeTree

end CSubset
