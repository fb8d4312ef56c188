-- SUMMARY: What checking an expression finds, taken apart into diagnostics, types and symbols.
import CSubset.Check.Expr
import CSubset.Proofs.Syntax.Nodes

/-!
# Findings of expressions

The checker returns everything it finds in one record. Here the parts of that record are
described one by one: the diagnostics of a node stand behind those of its parts and are of few
kinds, the recorded types are those of all nodes, and the recorded symbols are those of all bound
identifiers.
-/

namespace CSubset

namespace Findings

@[simp] theorem diagnostics_none : none.diagnostics = [] := rfl

@[simp] theorem diagnostics_ofDiagnostics (ds : List Diagnostic) :
    (ofDiagnostics ds).diagnostics = ds := by
  rw [diagnostics, ofDiagnostics, ofEvents, List.filterMap_map]
  exact List.filterMap_some

@[simp] theorem diagnostics_ofType (id : Nat) (t : ValueType) : (ofType id t).diagnostics = [] :=
  rfl

@[simp] theorem diagnostics_ofSymbol (id : Nat) (s : Symbol) : (ofSymbol id s).diagnostics = [] :=
  rfl

@[simp] theorem types_none : none.types = [] := rfl

@[simp] theorem types_ofEvents (events : List Event) : (ofEvents events).types = [] := rfl

@[simp] theorem types_ofDiagnostics (ds : List Diagnostic) : (ofDiagnostics ds).types = [] := rfl

@[simp] theorem types_ofType (id : Nat) (t : ValueType) : (ofType id t).types = [(id, t)] := rfl

@[simp] theorem types_ofSymbol (id : Nat) (s : Symbol) : (ofSymbol id s).types = [] := rfl

@[simp] theorem symbols_none : none.symbols = [] := rfl

@[simp] theorem symbols_ofEvents (events : List Event) : (ofEvents events).symbols = [] := rfl

@[simp] theorem symbols_ofDiagnostics (ds : List Diagnostic) : (ofDiagnostics ds).symbols = [] :=
  rfl

@[simp] theorem symbols_ofType (id : Nat) (t : ValueType) : (ofType id t).symbols = [] := rfl

@[simp] theorem symbols_ofSymbol (id : Nat) (s : Symbol) : (ofSymbol id s).symbols = [(id, s)] :=
  rfl

/-! ## Concluding a node -/

@[simp] theorem conclude_type (f : Findings) (id : Nat) (v : Verdict) :
    (f.conclude id v).type = v.1 := rfl

@[simp] theorem conclude_diagnostics (f : Findings) (id : Nat) (v : Verdict) :
    (f.conclude id v).findings.diagnostics = f.diagnostics ++ v.2 := by
  simp [conclude]

@[simp] theorem conclude_types (f : Findings) (id : Nat) (v : Verdict) :
    (f.conclude id v).findings.types = f.types ++ [(id, v.1)] := rfl

@[simp] theorem conclude_symbols (f : Findings) (id : Nat) (v : Verdict) :
    (f.conclude id v).findings.symbols = f.symbols := by
  simp [conclude]

/-- Nothing is wrong with a node exactly if nothing is with its parts and by its rule. -/
theorem conclude_clean {f : Findings} {id : Nat} {v : Verdict} :
    (f.conclude id v).findings.diagnostics = [] ↔ f.diagnostics = [] ∧ v.2 = [] := by
  rw [conclude_diagnostics, List.append_eq_nil_iff]

theorem conclude_pair_clean {f g : Findings} {id : Nat} {v : Verdict} :
    ((f ++ g).conclude id v).findings.diagnostics = [] ↔
      (f.diagnostics = [] ∧ g.diagnostics = []) ∧ v.2 = [] := by
  rw [conclude_clean, diagnostics_append, List.append_eq_nil_iff]

end Findings

namespace Expr

variable {names : Names}

theorem check_call (a : Anchor) (callee : Expr) (args : List Expr) :
    (call a callee args).check names =
      ((callee.check names).findings ++
        (.ofDiagnostics (Rule.callee names callee (callee.check names).type).2 ++
          (checkAll names args).2)).conclude a.id
        (Rule.call (Rule.callee names callee (callee.check names).type).1 (checkAll names args).1
          a.location) := rfl

/-- A call without findings has none in the called expression, about it and in the arguments. -/
theorem check_call_clean {a : Anchor} {callee : Expr} {args : List Expr}
    (h : ((call a callee args).check names).findings.diagnostics = []) :
    (callee.check names).findings.diagnostics = [] ∧
      (Rule.callee names callee (callee.check names).type).2 = [] ∧
        (checkAll names args).2.diagnostics = [] := by
  rw [check_call] at h
  obtain ⟨⟨hf, hrest⟩, -⟩ := Findings.conclude_pair_clean.mp h
  rw [Findings.diagnostics_append, Findings.diagnostics_ofDiagnostics,
    List.append_eq_nil_iff] at hrest
  exact ⟨hf, hrest⟩

theorem checkAll_cons (e : Expr) (rest : List Expr) :
    checkAll names (e :: rest) =
      (((e.check names).type, e.location) :: (checkAll names rest).1,
        (e.check names).findings ++ (checkAll names rest).2) := rfl

/-! ## Recorded types -/

mutual

/-- Every node is recorded with the type that checking it alone gives. -/
theorem check_types : ∀ e : Expr,
    (e.check names).findings.types = e.nodes.map fun d => (d.id, (d.check names).type)
  | .literal _ _ => rfl
  | .ident a name => by
    rw [nodes, List.map_singleton, check]
    cases names name <;> rfl
  | .unary a op operand => by
    have h := check_types operand
    simp only [nodes, check, Findings.conclude_types, List.map_append, List.map_singleton, h]
    rfl
  | .binary a op left right => by
    have hl := check_types left
    have hr := check_types right
    simp only [nodes, check, Findings.conclude_types, Findings.types_append, List.map_append,
      List.map_singleton, hl, hr]
    rfl
  | .assign a op target value => by
    have ht := check_types target
    have hv := check_types value
    simp only [nodes, check, Findings.conclude_types, Findings.types_append, List.map_append,
      List.map_singleton, ht, hv]
    rfl
  | .call a callee args => by
    have hf := check_types callee
    have ha := checkAll_types args
    simp only [nodes, check_call, Findings.conclude_types, Findings.types_append,
      Findings.types_ofDiagnostics, List.nil_append, List.map_append, List.map_singleton, hf, ha]
    rfl
  | .index a base subscript => by
    have hb := check_types base
    have hs := check_types subscript
    simp only [nodes, check, Findings.conclude_types, Findings.types_append, List.map_append,
      List.map_singleton, hb, hs]
    rfl

theorem checkAll_types : ∀ es : List Expr,
    (checkAll names es).2.types = (nodesAll es).map fun d => (d.id, (d.check names).type)
  | [] => rfl
  | e :: rest => by
    have h := check_types e
    have hs := checkAll_types rest
    simp only [checkAll_cons, nodesAll, Findings.types_append, List.map_append, h, hs]

end

end Expr

/-! ## Unbound names -/

/-- Whether a diagnostic reports a name that stands for nothing. -/
def Diagnostic.isUndefined : Diagnostic → Bool
  | undefinedSymbol _ _ => true
  | _ => false

/-- The reports of names that stand for nothing, among diagnostics. -/
def undefinedAmong (ds : List Diagnostic) : List Diagnostic := ds.filter Diagnostic.isUndefined

@[simp] theorem undefinedAmong_nil : undefinedAmong [] = [] := rfl

@[simp] theorem undefinedAmong_append (ds ds' : List Diagnostic) :
    undefinedAmong (ds ++ ds') = undefinedAmong ds ++ undefinedAmong ds' :=
  List.filter_append ds ds'

/-! ## Kinds of reports -/

/-- Whether rules make reports of a kind: about types, numbers of arguments and assignability. -/
def Diagnostic.Kind.isRule : Diagnostic.Kind → Bool
  | typeMismatch | arityMismatch | notAssignable => true
  | _ => false

/-- Whether reports of a kind are made about expressions: by rules, or of unbound names. -/
def Diagnostic.Kind.isExpr (k : Diagnostic.Kind) : Bool := k.isRule || k = .undefinedSymbol

open Diagnostic (Kind)

/-- All reports are of certain kinds. -/
def OfKind (p : Kind → Bool) (ds : List Diagnostic) : Prop := ∀ d ∈ ds, p d.kind = true

namespace OfKind

variable {p : Kind → Bool} {ds ds' : List Diagnostic}

theorem nil : OfKind p [] := List.forall_mem_nil _

theorem single {d : Diagnostic} (h : p d.kind = true) : OfKind p [d] :=
  List.forall_mem_singleton.mpr h

theorem append (h : OfKind p ds) (h' : OfKind p ds') : OfKind p (ds ++ ds') :=
  List.forall_mem_append.mpr ⟨h, h'⟩

theorem toExpr (h : OfKind Kind.isRule ds) : OfKind Kind.isExpr ds :=
  fun d hd => Bool.or_eq_true_iff.mpr (.inl (h d hd))

/-- Reports that are only made if a condition fails. -/
theorem guarded {c : Prop} [Decidable c] (h : OfKind p ds) :
    OfKind p (if c then [] else ds) := by
  split
  · exact nil
  · exact h

theorem report (m : Mismatch) (l : Location) : OfKind Kind.isRule [m.report l] :=
  single rfl

/-- No rule reports an unbound name: that is left to the identifier itself. -/
theorem undefinedAmong (h : OfKind Kind.isRule ds) : undefinedAmong ds = [] := by
  refine List.filter_eq_nil_iff.mpr fun d hd hundefined => ?_
  have hkind := h d hd
  cases d with
  | undefinedSymbol => cases hkind
  | _ => cases hundefined

end OfKind

namespace Rule

theorem operator_ofRule (result : Option ValueType) (m : Mismatch) (l : Location) :
    OfKind Kind.isRule (operator result m l).2 := by
  cases result with
  | none => exact .report m l
  | some t => exact .nil

theorem index_ofRule (base subscript : ValueType) (l l' : Location) :
    OfKind Kind.isRule (index base subscript l l').2 := by
  unfold index
  dsimp only
  split
  · exact .guarded (.report _ _)
  · split
    · exact .guarded (.report _ _)
    · exact .append (.guarded (.report _ _)) (.report _ _)

theorem store_ofRule (stored target : ValueType) (l : Location) :
    OfKind Kind.isRule (store stored target l).2 := .guarded (.report _ _)

theorem assign_ofRule (names : Names) (op : AssignOp) (e : Expr) (target value : ValueType)
    (l : Location) : OfKind Kind.isRule (assign names op e target value l).2 := by
  unfold assign
  split
  · exact .single rfl
  · split
    · exact store_ofRule _ _ _
    · split
      · exact store_ofRule _ _ _
      · exact .report _ _

theorem callee_ofRule (names : Names) (e : Expr) (t : ValueType) :
    OfKind Kind.isRule (callee names e t).2 := by
  unfold callee
  split
  · split
    · exact .nil
    · exact .report _ _
    · exact .nil
  · exact .guarded (.report _ _)

theorem arguments_ofRule (f : String) (n : Nat) (ps : List Parameter)
    (args : List (ValueType × Location)) : OfKind Kind.isRule (arguments f n ps args) := by
  induction ps generalizing n args with
  | nil => exact .nil
  | cons p ps ih =>
    cases args with
    | nil => exact .nil
    | cons arg args => exact .append (.guarded (.report _ _)) (ih (n + 1) args)

theorem call_ofRule (function : Option Prototype) (args : List (ValueType × Location))
    (l : Location) : OfKind Kind.isRule (call function args l).2 := by
  cases function with
  | none => exact .nil
  | some p => exact .append (.guarded (.single rfl)) (arguments_ofRule _ _ _ _)

end Rule

namespace Expr

variable {names : Names}

/-! ## Reports about expressions -/

/-- A node has reports of these kinds if its parts do. -/
theorem ofKind_conclude {f : Findings} {v : Verdict} (hf : OfKind Kind.isExpr f.diagnostics)
    (hv : OfKind Kind.isRule v.2) (id : Nat) :
    OfKind Kind.isExpr (f.conclude id v).findings.diagnostics := by
  rw [Findings.conclude_diagnostics]
  exact hf.append hv.toExpr

mutual

/-- Expressions are reported for unbound names and by rules, and for nothing else. -/
theorem check_ofKind : ∀ e : Expr, OfKind Kind.isExpr (e.check names).findings.diagnostics
  | .literal _ _ => .nil
  | .ident a name => by
    rw [check]
    cases names name with
    | none => exact .single rfl
    | some s => exact .nil
  | .unary a op operand => ofKind_conclude (check_ofKind operand) (Rule.operator_ofRule _ _ _) a.id
  | .binary a op left right => by
    have h := (check_ofKind left).append (check_ofKind right)
    rw [← Findings.diagnostics_append] at h
    exact ofKind_conclude h (Rule.operator_ofRule _ _ _) a.id
  | .assign a op target value => by
    have h := (check_ofKind target).append (check_ofKind value)
    rw [← Findings.diagnostics_append] at h
    exact ofKind_conclude h (Rule.assign_ofRule _ _ _ _ _ _) a.id
  | .call a callee args => by
    have hcallee := Rule.callee_ofRule names callee (callee.check names).type
    have h := (check_ofKind callee).append (hcallee.toExpr.append (checkAll_ofKind args))
    rw [check_call]
    refine ofKind_conclude ?_ (Rule.call_ofRule _ _ _) a.id
    rwa [Findings.diagnostics_append, Findings.diagnostics_append,
      Findings.diagnostics_ofDiagnostics]
  | .index a base subscript => by
    have h := (check_ofKind base).append (check_ofKind subscript)
    rw [← Findings.diagnostics_append] at h
    exact ofKind_conclude h (Rule.index_ofRule _ _ _ _) a.id

theorem checkAll_ofKind : ∀ es : List Expr, OfKind Kind.isExpr (checkAll names es).2.diagnostics
  | [] => .nil
  | e :: rest => by
    rw [checkAll_cons, Findings.diagnostics_append]
    exact (check_ofKind e).append (checkAll_ofKind rest)

end

/-! ## Recorded symbols and unbound names -/

/-- What an identifier is recorded with: its number and what its name stands for. -/
def record? (names : Names) (i : Anchor × String) : Option (Nat × Symbol) :=
  (names i.2).map fun s => (i.1.id, s)

/-- What is reported for an identifier whose name stands for nothing. -/
def fault? (names : Names) (i : Anchor × String) : Option Diagnostic :=
  if (names i.2).isNone then some (.undefinedSymbol i.2 i.1.location) else none

/-- Names are looked up at the identifiers of an expression and nowhere else, in their order. -/
structure LooksUp (names : Names) (f : Findings) (is : List (Anchor × String)) : Prop where
  symbols : f.symbols = is.filterMap (record? names)
  undefined : undefinedAmong f.diagnostics = is.filterMap (fault? names)

theorem LooksUp.append {f g : Findings} {is js : List (Anchor × String)}
    (hf : LooksUp names f is) (hg : LooksUp names g js) : LooksUp names (f ++ g) (is ++ js) := by
  refine ⟨?_, ?_⟩
  · rw [Findings.symbols_append, List.filterMap_append, hf.symbols, hg.symbols]
  · rw [Findings.diagnostics_append, undefinedAmong_append, List.filterMap_append, hf.undefined,
      hg.undefined]

theorem LooksUp.ofDiagnostics (names : Names) {ds : List Diagnostic} (h : undefinedAmong ds = []) :
    LooksUp names (.ofDiagnostics ds) [] :=
  ⟨rfl, by rw [Findings.diagnostics_ofDiagnostics, h]; rfl⟩

/-- A node that is no identifier looks up what its parts do. -/
theorem LooksUp.conclude {f : Findings} {is : List (Anchor × String)} (hf : LooksUp names f is)
    {v : Verdict} (hv : undefinedAmong v.2 = []) (id : Nat) :
    LooksUp names (f.conclude id v).findings is := by
  refine ⟨?_, ?_⟩
  · rw [Findings.conclude_symbols, hf.symbols]
  · rw [Findings.conclude_diagnostics, undefinedAmong_append, hv, List.append_nil, hf.undefined]

mutual

theorem check_looksUp : ∀ e : Expr, LooksUp names (e.check names).findings e.idents
  | .literal _ _ => ⟨rfl, rfl⟩
  | .ident a name => by
    rw [check]
    cases h : names name with
    | none => exact ⟨by simp [idents, nodes, ident?, record?, h], by
        simp [idents, nodes, ident?, fault?, h, undefinedAmong, Diagnostic.isUndefined]⟩
    | some s => exact ⟨by simp [idents, nodes, ident?, record?, h], by
        simp [idents, nodes, ident?, fault?, h]⟩
  | .unary a op operand => by
    rw [idents_unary, check]
    exact (check_looksUp operand).conclude (Rule.operator_ofRule _ _ _).undefinedAmong a.id
  | .binary a op left right => by
    have h := (check_looksUp left).append (check_looksUp right)
    rw [idents_binary, check]
    exact h.conclude (Rule.operator_ofRule _ _ _).undefinedAmong a.id
  | .assign a op target value => by
    have h := (check_looksUp target).append (check_looksUp value)
    rw [idents_assign, check]
    exact h.conclude (Rule.assign_ofRule _ _ _ _ _ _).undefinedAmong a.id
  | .call a callee args => by
    have hwrong := LooksUp.ofDiagnostics names
      (Rule.callee_ofRule names callee (callee.check names).type).undefinedAmong
    have h := (check_looksUp callee).append (hwrong.append (checkAll_looksUp args))
    rw [idents_call, check_call]
    exact h.conclude (Rule.call_ofRule _ _ _).undefinedAmong a.id
  | .index a base subscript => by
    have h := (check_looksUp base).append (check_looksUp subscript)
    rw [idents_index, check]
    exact h.conclude (Rule.index_ofRule _ _ _ _).undefinedAmong a.id

theorem checkAll_looksUp : ∀ es : List Expr,
    LooksUp names (checkAll names es).2 ((nodesAll es).filterMap ident?)
  | [] => ⟨rfl, rfl⟩
  | e :: rest => by
    rw [nodesAll, List.filterMap_append, checkAll_cons]
    exact (check_looksUp e).append (checkAll_looksUp rest)

end

end Expr

end CSubset
