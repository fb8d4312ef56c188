-- SUMMARY: Symbols, scopes and findings with other names, and the causes of diagnostics.
import CSubset.Check.Unit
import CSubset.Proofs.Syntax.Names
import Mathlib.Data.List.Forall2

/-!
# Findings with other names

Symbols and scopes hold names as such, so they can be renamed. Diagnostics hold words: to say what
becomes of one, it is traced back to its `Cause`, which still holds names, operators and
expressions, and the renamed cause is put into words again. `P` is a property that all names of a
program have; it is carried along, so that a cause is known to be made of such names.

Binding a name, opening a scope and looking a name up compare names and do nothing else with them,
so they do the same to different names.
-/

namespace CSubset

/-! ## Causes -/

/-- A mismatch with other names. -/
def Mismatch.rename (r : String → String) : Mismatch → Mismatch
  | voidVariable name => .voidVariable (r name)
  | voidParameter name => .voidParameter (r name)
  | initializer name target value => .initializer (r name) target value
  | returnFromVoid function => .returnFromVoid (r function)
  | returnValue function expected value => .returnValue (r function) expected value
  | calledName name => .calledName (r name)
  | argument position function expected value => .argument position (r function) expected value
  | m => m

/-- A mismatch that speaks of names with the property `P` and of operators. -/
def Mismatch.Uses (P : String → Prop) : Mismatch → Prop
  | voidVariable name => P name
  | voidParameter name => P name
  | initializer name _ _ => P name
  | condition _ => True
  | returnFromVoid function => P function
  | returnValue function _ _ => P function
  | operands symbol _ _ =>
    (∃ op : BinaryOp, op.symbol = symbol) ∨ ∃ op : AssignOp, op.symbol = symbol
  | operand symbol _ => ∃ op : UnaryOp, op.symbol = symbol
  | assigned _ _ => True
  | subscript _ => True
  | indexed _ => True
  | calledName name => P name
  | calledValue _ => True
  | argument _ function _ _ => P function

/-- What a diagnostic about a piece of a unit reports, before it is put into words. -/
inductive Cause where
  | duplicate (name : String) (previous location : Location)
  | undefined (name : String) (location : Location)
  | mismatch (m : Mismatch) (location : Location)
  | arity (function : String) (expected got : Nat) (variadic : Bool) (location : Location)
  | jump (kind : Jump) (location : Location)
  | missingReturn (function : String) (location : Location)
  | notAssignable (target : Expr) (location : Location)

namespace Cause

/-- The diagnostic that reports a cause. -/
def diagnostic : Cause → Diagnostic
  | duplicate name previous l => .duplicateSymbol name previous l
  | undefined name l => .undefinedSymbol name l
  | mismatch m l => m.report l
  | arity function expected got variadic l => .arityMismatch function expected got variadic l
  | jump kind l => .invalidJump kind.keyword.text l
  | missingReturn function l => .missingReturn function l
  | notAssignable target l => .notAssignable target.text l

/-- A cause with other names. -/
def rename (r : String → String) : Cause → Cause
  | duplicate name previous l => .duplicate (r name) previous l
  | undefined name l => .undefined (r name) l
  | mismatch m l => .mismatch (m.rename r) l
  | arity function expected got variadic l => .arity (r function) expected got variadic l
  | jump kind l => .jump kind l
  | missingReturn function l => .missingReturn (r function) l
  | notAssignable target l => .notAssignable (target.rename r) l

/-- A cause in which all names have the property `P`. -/
def Uses (P : String → Prop) : Cause → Prop
  | duplicate name _ _ => P name
  | undefined name _ => P name
  | mismatch m _ => m.Uses P
  | arity function _ _ _ _ => P function
  | jump _ _ => True
  | missingReturn function _ => P function
  | notAssignable target _ => ∀ name ∈ target.names, P name

end Cause

/-! ## Findings -/

section

variable (r : String → String) (P : String → Prop)

/-- The second diagnostic has the cause of the first one with other names. -/
def Diagnostic.Renamed (d d' : Diagnostic) : Prop :=
  ∃ c : Cause, c.Uses P ∧ d = c.diagnostic ∧ d' = (c.rename r).diagnostic

/-- Diagnostics of which each has the cause of its counterpart with other names. -/
def Diagnostic.RenamedAll (ds ds' : List Diagnostic) : Prop :=
  List.Forall₂ (Diagnostic.Renamed r P) ds ds'

/-- The second event is the first one with other names; the numbers of scopes are none. -/
inductive Event.Renamed : Event → Event → Prop where
  | diagnostic {d d' : Diagnostic} (h : d.Renamed r P d') :
      Event.Renamed (.diagnostic d) (.diagnostic d')
  | enterScope (scope parent : Nat) :
      Event.Renamed (.enterScope scope parent) (.enterScope scope parent)
  | leaveScope (scope : Nat) : Event.Renamed (.leaveScope scope) (.leaveScope scope)
  | leaveFunction (name : String) : Event.Renamed (.leaveFunction name) (.leaveFunction (r name))

/-- A symbol with other names. -/
def Symbol.rename : Symbol → Symbol
  | function p defined => .function (p.rename r) defined
  | var name type forward l => .var (r name) type forward l
  | parameter p => .parameter (p.rename r)

/-- Findings with other names: the same events and types, and the same symbols renamed. -/
structure Findings.Renamed (f f' : Findings) : Prop where
  events : List.Forall₂ (Event.Renamed r P) f.events f'.events
  types : f'.types = f.types
  symbols : f'.symbols = f.symbols.map fun x => (x.1, x.2.rename r)

/-- A verdict with other names. -/
def Verdict.Renamed (v v' : Verdict) : Prop := v'.1 = v.1 ∧ Diagnostic.RenamedAll r P v.2 v'.2

/-- A type, and what was found on the way to it with other names. -/
def Typed.Renamed (x x' : Typed) : Prop := x'.type = x.type ∧ x.findings.Renamed r P x'.findings

/-- A scope with other names in it. -/
def Scope.rename (s : Scope) : Scope := { s with symbols := s.symbols.map (Symbol.rename r) }

/-- A tree of scopes with other names in them. -/
def ScopeTree.rename (t : ScopeTree) : ScopeTree := ⟨t.scopes.map (Scope.rename r)⟩

/-- What a name stood for its new name stands for, renamed. -/
def Names.Renamed (names names' : Names) : Prop :=
  ∀ name, names' (r name) = (names name).map (Symbol.rename r)

/-- The scopes and findings of a piece of a unit with other names. -/
def Checked.Renamed (c c' : Checked) : Prop :=
  c'.scopes = c.scopes.rename r ∧ c.findings.Renamed r P c'.findings

end

variable {r : String → String} {P : String → Prop}

namespace Diagnostic.RenamedAll

variable {ds ds' es es' : List Diagnostic}

theorem nil : RenamedAll r P [] [] := List.Forall₂.nil

theorem single (c : Cause) (h : c.Uses P) :
    RenamedAll r P [c.diagnostic] [(c.rename r).diagnostic] := .cons ⟨c, h, rfl, rfl⟩ .nil

theorem append (h : RenamedAll r P ds ds') (h' : RenamedAll r P es es') :
    RenamedAll r P (ds ++ es) (ds' ++ es') := List.rel_append h h'

/-- Diagnostics that are made only if something holds, whatever the names are. -/
theorem guarded (h : RenamedAll r P ds ds') (wrong : Prop) [Decidable wrong] :
    RenamedAll r P (if wrong then ds else []) (if wrong then ds' else []) := by
  split
  · exact h
  · exact nil

/-- A diagnostic that is made unless something fits, whatever the names are. -/
theorem fitting (c : Cause) (h : c.Uses P) (fits : Prop) [Decidable fits] :
    RenamedAll r P (if fits then [] else [c.diagnostic])
      (if fits then [] else [(c.rename r).diagnostic]) := by
  split
  · exact nil
  · exact single c h

theorem causes (h : RenamedAll r P ds ds') :
    ∀ d ∈ ds, ∃ c : Cause, c.Uses P ∧ d = c.diagnostic := by
  induction h with
  | nil => exact List.forall_mem_nil _
  | cons h _ ih =>
    obtain ⟨c, hc, hd, -⟩ := h
    exact List.forall_mem_cons.mpr ⟨⟨c, hc, hd⟩, ih⟩

end Diagnostic.RenamedAll

namespace Findings.Renamed

variable {f f' g g' : Findings}

theorem none : Findings.Renamed r P .none .none := ⟨.nil, rfl, rfl⟩

theorem append (h : f.Renamed r P f') (h' : g.Renamed r P g') :
    (f ++ g).Renamed r P (f' ++ g') := by
  refine ⟨List.rel_append h.events h'.events, ?_, ?_⟩
  · rw [types_append, types_append, h.types, h'.types]
  · rw [symbols_append, symbols_append, List.map_append, h.symbols, h'.symbols]

theorem ofEvents {es es' : List Event} (h : List.Forall₂ (Event.Renamed r P) es es') :
    (Findings.ofEvents es).Renamed r P (.ofEvents es') := ⟨h, rfl, rfl⟩

theorem ofDiagnostics {ds ds' : List Diagnostic} (h : Diagnostic.RenamedAll r P ds ds') :
    (Findings.ofDiagnostics ds).Renamed r P (.ofDiagnostics ds') := by
  refine ofEvents ?_
  rw [List.forall₂_map_left_iff, List.forall₂_map_right_iff]
  exact List.Forall₂.imp (fun _ _ => .diagnostic) h

theorem ofType (id : Nat) (t : ValueType) :
    (Findings.ofType id t).Renamed r P (.ofType id t) := ⟨.nil, rfl, rfl⟩

theorem ofSymbol (id : Nat) (s : Symbol) :
    (Findings.ofSymbol id s).Renamed r P (.ofSymbol id (s.rename r)) := ⟨.nil, rfl, rfl⟩

theorem conclude {v v' : Verdict} (id : Nat) (h : f.Renamed r P f') (hv : v.Renamed r P v') :
    (f.conclude id v).Renamed r P (f'.conclude id v') := by
  refine ⟨hv.1, h.append ((ofDiagnostics hv.2).append ?_)⟩
  rw [hv.1]
  exact ofType id v.1

/-- The diagnostics among renamed findings are those among the findings, renamed. -/
theorem diagnostics (h : f.Renamed r P f') :
    Diagnostic.RenamedAll r P f.diagnostics f'.diagnostics := by
  refine List.rel_filterMap ?_ h.events
  intro e e' he
  cases he with
  | diagnostic h => exact .some h
  | enterScope | leaveScope | leaveFunction => exact .none

end Findings.Renamed

namespace Checked.Renamed

variable {c c' : Checked}

theorem prepend {f f' : Findings} (hf : f.Renamed r P f') (hc : c.Renamed r P c') :
    (c.prepend f).Renamed r P (c'.prepend f') := ⟨hc.1, hf.append hc.2⟩

theorem andThen {next next' : ScopeTree → Checked} (hc : c.Renamed r P c')
    (hnext : ∀ t, (next t).Renamed r P (next' (t.rename r))) :
    (c.andThen next).Renamed r P (c'.andThen next') := by
  have h := hnext c.scopes
  rw [← hc.1] at h
  exact ⟨h.1, hc.2.append h.2⟩

/-- Findings that do not change the scopes. -/
theorem still {f f' : Findings} (hf : f.Renamed r P f') (t : ScopeTree) :
    Checked.Renamed r P ⟨t, f⟩ ⟨t.rename r, f'⟩ := ⟨rfl, hf⟩

end Checked.Renamed

/-! ## Symbols -/

namespace Symbol

@[simp] theorem rename_name (s : Symbol) : (s.rename r).name = r s.name := by cases s <;> rfl

@[simp] theorem rename_location (s : Symbol) : (s.rename r).location = s.location := by
  cases s <;> rfl

@[simp] theorem rename_valueType (s : Symbol) : (s.rename r).valueType = s.valueType := by
  cases s <;> rfl

@[simp] theorem rename_isForward (s : Symbol) : (s.rename r).isForward = s.isForward := by
  cases s <;> rfl

@[simp] theorem rename_agrees (s x : Symbol) :
    (s.rename r).agrees (x.rename r) = s.agrees x := by
  cases s <;> cases x <;>
    simp [rename, agrees, Prototype.rename, Parameter.rename, Function.comp_def]

theorem ofVariable_rename (v : Variable) : ofVariable (v.rename r) = (ofVariable v).rename r := by
  rw [ofVariable, ofVariable, rename, Variable.rename, Option.isNone_map]

end Symbol

theorem Decl.symbol_rename (d : Decl) : (d.rename r).symbol = d.symbol.rename r := by
  cases d with
  | function p => rfl
  | var v => exact Symbol.ofVariable_rename v

/-! ## Scopes -/

namespace Scope

variable (hr : Function.Injective r)

include hr

theorem find?_rename (s : Scope) (name : String) :
    (s.rename r).find? (r name) = (s.find? name).map (Symbol.rename r) := by
  rw [find?, find?, rename, List.find?_map]
  congr 2
  funext x
  simp [hr.eq_iff]

theorem replace_rename (s : Scope) (x : Symbol) :
    (s.rename r).replace (x.rename r) = (s.replace x).rename r := by
  simp only [replace, rename, List.map_map, mk.injEq, and_true]
  refine List.map_congr_left fun y _ => ?_
  by_cases hy : y.name = x.name <;> simp [hy, hr.eq_iff]

/-- What binding a symbol leads to does not depend on what the names are. -/
theorem bind_rename (s : Scope) (x : Symbol) :
    (s.rename r).bind (x.rename r) =
      match s.bind x with
      | .ok s => .ok (s.rename r)
      | .error held => .error (held.rename r) := by
  simp only [bind, Symbol.rename_name, find?_rename hr]
  cases s.find? x.name with
  | none => simp [rename]
  | some held =>
    simp only [Option.map_some, Symbol.rename_agrees, Symbol.rename_isForward, replace_rename hr]
    split
    · rfl
    · split
      · rfl
      · split <;> rfl

end Scope

namespace ScopeTree

theorem size_rename (t : ScopeTree) : (t.rename r).size = t.size := List.length_map _

theorem scope_rename (t : ScopeTree) (n : Nat) :
    (t.rename r).scope n = (t.scope n).rename r := by
  rw [scope, scope, rename, List.getElem?_map]
  cases t.scopes[n]? <;> rfl

theorem push_rename (t : ScopeTree) (n : Nat) : (t.rename r).push n = (t.push n).rename r := by
  rw [push, push, size_rename, rename, rename, List.map_append]
  congr 2
  refine List.ext_getElem? fun m => ?_
  rw [List.getElem?_modify, List.getElem?_map, List.getElem?_map, List.getElem?_modify]
  cases t.scopes[m]? with
  | none => rfl
  | some s => by_cases h : n = m <;> simp [h, Scope.rename]

variable (hr : Function.Injective r)

include hr

theorem add_rename (t : ScopeTree) (n : Nat) (x : Symbol) :
    (t.rename r).add n (x.rename r) =
      match t.add n x with
      | .ok t => .ok (t.rename r)
      | .error held => .error (held.rename r) := by
  rw [add, add, scope_rename, Scope.bind_rename hr]
  cases (t.scope n).bind x with
  | error held => rfl
  | ok s => simp [Except.map, rename, List.map_set]

theorem declare_renamed (t : ScopeTree) (n : Nat) {x : Symbol} (hx : P x.name) :
    (t.declare n x).Renamed r P ((t.rename r).declare n (x.rename r)) := by
  rw [declare, declare, add_rename hr]
  cases t.add n x with
  | ok t => exact ⟨rfl, .none⟩
  | error held =>
    refine ⟨rfl, .ofDiagnostics ?_⟩
    rw [Symbol.rename_name, Symbol.rename_location, Symbol.rename_location]
    exact Diagnostic.RenamedAll.single (.duplicate x.name held.location x.location) hx

theorem lookup_renamed (t : ScopeTree) (n : Nat) :
    Names.Renamed r (t.lookup n) ((t.rename r).lookup n) := by
  intro name
  induction n using Nat.strongRecOn with
  | _ n ih =>
    rw [lookup, lookup, scope_rename, Scope.find?_rename hr]
    cases (t.scope n).find? name with
    | some x => rfl
    | none =>
      simp only [Scope.rename, Option.map_none]
      cases (t.scope n).parent with
      | none => rfl
      | some p =>
        dsimp only
        split
        · next hp => exact ih p hp
        · rfl

end ScopeTree

end CSubset
