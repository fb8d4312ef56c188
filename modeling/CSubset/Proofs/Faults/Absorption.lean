-- SUMMARY: An unknown name in an expression is reported once, and no rule says more about it.
import CSubset.Proofs.Faults.Planting
import CSubset.Proofs.Typing.Exactness

/-!
# Absorption

Two runs of the checker are compared: one over a faultless expression, one over the same
expression with an unknown name planted in it. Upward of the planted name every type is either
the same in both runs or `invalid` in the second; `Spoiled` says so. Each rule that is content
with the types of the first run is content with spoiled ones, and answers with a spoiled type
again.
-/

namespace CSubset

/-- The type of the second run: that of the first one, or `invalid`. -/
def Spoiled (t' t : ValueType) : Prop := t' = t ∨ t' = .invalid

theorem Spoiled.refl (t : ValueType) : Spoiled t t := .inl rfl

theorem Spoiled.invalid (t : ValueType) : Spoiled .invalid t := .inr rfl

/-- What is content with a type and with `invalid` is content with a spoiled type. -/
theorem Spoiled.elim {P : ValueType → Prop} {t' t : ValueType} (h : Spoiled t' t) (ht : P t)
    (hi : P .invalid) : P t' := by
  cases h with
  | inl h => exact h ▸ ht
  | inr h => exact h ▸ hi

/-- What is asked of a type that `invalid` meets is not missed by a spoiled type. -/
theorem Spoiled.accepted {f : ValueType → Bool} (hinvalid : f .invalid = true)
    {d d' : Diagnostic} {t t' : ValueType} (ht : Spoiled t' t)
    (h : (if f t then [] else [d]) = []) : (if f t' then [] else [d']) = [] := by
  have haccepts : f t = true := by
    cases ha : f t with
    | true => rfl
    | false => simp [ha] at h
  rw [ht.elim (P := fun t => f t = true) haccepts hinvalid]
  rfl

namespace Rule

variable {l k : Location}

/-! ## Rules on spoiled types -/

/-- A second verdict is content as well, and its type is spoiled at most. -/
def Absorbs (v' v : Verdict) : Prop := v'.2 = [] ∧ Spoiled v'.1 v.1

theorem absorbs_invalid {v' v : Verdict} (h : v' = (.invalid, [])) : Absorbs v' v := by
  subst h
  exact ⟨rfl, .invalid _⟩

theorem operator_absorbs {result result' : Option ValueType} {m m' : Mismatch}
    (h : ∀ t, result = some t → ∃ t', result' = some t' ∧ Spoiled t' t)
    (hv : (operator result m l).2 = []) :
    Absorbs (operator result' m' k) (operator result m l) := by
  cases result with
  | none => cases hv
  | some t =>
    obtain ⟨t', rfl, ht⟩ := h t rfl
    exact ⟨rfl, ht⟩

theorem unaryResult_spoiled {op : UnaryOp} {t t' : ValueType} (h : Spoiled t' t) (u : ValueType)
    (hu : op.result? t = some u) : ∃ u', op.result? t' = some u' ∧ Spoiled u' u := by
  cases h with
  | inl h => exact ⟨u, h ▸ hu, .refl u⟩
  | inr h =>
    refine ⟨.invalid, ?_, .invalid u⟩
    unfold UnaryOp.result?
    exact if_pos h

theorem binaryResult_spoiled {op : BinaryOp} {s s' t t' : ValueType} (hs : Spoiled s' s)
    (ht : Spoiled t' t) (u : ValueType) (hu : op.result? s t = some u) :
    ∃ u', op.result? s' t' = some u' ∧ Spoiled u' u := by
  have hinvalid (h : s' = .invalid ∨ t' = .invalid) : op.result? s' t' = some .invalid := by
    unfold BinaryOp.result?
    exact if_pos h
  cases hs with
  | inr h => exact ⟨.invalid, hinvalid (.inl h), .invalid u⟩
  | inl hs =>
    cases ht with
    | inr h => exact ⟨.invalid, hinvalid (.inr h), .invalid u⟩
    | inl ht => exact ⟨u, by rw [hs, ht, hu], .refl u⟩

theorem store_absorbs {s s' t t' : ValueType} (hs : Spoiled s' s) (ht : Spoiled t' t)
    (hv : (store s t l).2 = []) : Absorbs (store s' t' k) (store s t l) := by
  refine ⟨?_, ht⟩
  have hstored : (store s' t l).2 = [] := hs.accepted (f := fun s => s.assignableTo t) rfl hv
  apply ht.accepted (f := fun t => s'.assignableTo t) _ hstored
  simp [ValueType.assignableTo]

/-- A subscript is a whole number or not known, and so is what it is applied to. -/
theorem index_absorbs {s s' t t' : ValueType} {m n : Location} (hs : Spoiled s' s)
    (ht : Spoiled t' t) (hv : (index s t l m).2 = []) :
    Absorbs (index s' t' k n) (index s t l m) := by
  have hsub : t = .invalid ∨ t.isIntegral = true := by
    apply Decidable.byContradiction
    intro h
    unfold index at hv
    dsimp only at hv
    rw [if_neg h] at hv
    split at hv
    · cases hv
    · split at hv <;> cases hv
  have hsub' : t' = .invalid ∨ t'.isIntegral = true :=
    ht.elim (P := fun t => t = .invalid ∨ t.isIntegral = true) hsub (.inl rfl)
  cases hs with
  | inr h =>
    apply absorbs_invalid
    subst h
    unfold index
    rw [if_pos hsub']
    rfl
  | inl h =>
    subst h
    unfold index at hv ⊢
    rw [if_pos hsub] at hv ⊢
    rw [if_pos hsub']
    dsimp only at hv ⊢
    split
    · exact absorbs_invalid rfl
    · next hs =>
      rw [if_neg hs] at hv
      split
      · exact ⟨rfl, .refl _⟩
      · next hp =>
        rw [hp] at hv
        cases hv

theorem arguments_absorbs {f : String} {n : Nat} {p : Parameter} {ps : List Parameter}
    {t t' : ValueType} {rest rest' : List (ValueType × Location)} (ht : Spoiled t' t)
    (hrest : arguments f (n + 1) ps rest = [] → arguments f (n + 1) ps rest' = [])
    (h : arguments f n (p :: ps) ((t, l) :: rest) = []) :
    arguments f n (p :: ps) ((t', k) :: rest') = [] := by
  rw [arguments, List.append_eq_nil_iff] at h ⊢
  exact ⟨ht.accepted (f := fun t => t.assignableTo (.ofDeclared p.type)) rfl h.1, hrest h.2⟩

theorem assign_absorbs {names : Names} {op : AssignOp} {e e' : Expr} {s s' t t' : ValueType}
    (he : denotesStorage names e = true → denotesStorage names e' = true) (hs : Spoiled s' s)
    (ht : Spoiled t' t) (hv : (assign names op e s t l).2 = []) :
    Absorbs (assign names op e' s' t' k) (assign names op e s t l) := by
  unfold assign at hv ⊢
  cases hstorage : denotesStorage names e with
  | false => simp [hstorage] at hv
  | true =>
    simp only [hstorage, he hstorage, Bool.not_true, Bool.false_eq_true, if_false] at hv ⊢
    cases op with
    | plain => exact store_absorbs ht hs hv
    | compound arith =>
      dsimp only at hv ⊢
      cases hr : (BinaryOp.arith arith).result? s t with
      | none =>
        rw [hr] at hv
        cases hv
      | some u =>
        rw [hr] at hv
        obtain ⟨u', hu', hspoiled⟩ := binaryResult_spoiled hs ht u hr
        rw [hu']
        exact store_absorbs hspoiled hs hv

theorem call_absorbs {p : Prototype} {args args' : List (ValueType × Location)}
    (hlength : args'.length = args.length)
    (hargs : arguments p.name 1 p.parameters args = [] →
      arguments p.name 1 p.parameters args' = [])
    (hv : (call (some p) args l).2 = []) :
    Absorbs (call (some p) args' k) (call (some p) args l) := by
  unfold call at hv ⊢
  dsimp only at hv ⊢
  rw [List.append_eq_nil_iff] at hv
  refine ⟨?_, .refl _⟩
  dsimp only
  rw [hlength, hargs hv.2, List.append_nil]
  split
  · rfl
  · next htakes =>
    rw [if_neg htakes] at hv
    cases hv.1

end Rule

/-! ## Expressions -/

/-- The report of an unknown name in the place of a node. -/
def fault (name : String) (e : Expr) : Diagnostic := .undefinedSymbol name e.location

/-- What checking finds in an expression in which an unknown name is planted: the name once for
each node that is replaced, and nothing else. The type is `t` or `invalid`. -/
structure Faulted (name : String) (x : Typed) (replaced : List Expr) (t : ValueType) : Prop where
  diagnostics : x.findings.diagnostics = replaced.map (fault name)
  type : Spoiled x.type t

variable {names : Names} {name : String} {p : Nat → Bool}

/-- A picked node is replaced by the unknown name, whatever is planted below it. -/
theorem Faulted.graft (hname : names name = none) {d e : Expr} {replaced : List Expr}
    {t : ValueType} (h : Faulted name (e.check names) replaced t) :
    Faulted name ((graft p name d.anchor e).check names)
      (if p d.anchor.id then [d] else replaced) t := by
  unfold CSubset.graft
  split
  · refine ⟨?_, ?_⟩
    · rw [Expr.check, hname, Findings.conclude_diagnostics]
      rfl
    · rw [Expr.check, hname]
      exact .invalid t
  · exact h

/-- A rule that absorbs adds nothing to what was found in the parts. -/
theorem Faulted.conclude {f : Findings} {replaced : List Expr} {v v' : Verdict}
    (hf : f.diagnostics = replaced.map (fault name)) (hv : Rule.Absorbs v' v) (id : Nat) :
    Faulted name (f.conclude id v') replaced v.1 := by
  refine ⟨?_, hv.2⟩
  rw [Findings.conclude_diagnostics, hf, hv.1, List.append_nil]

theorem Faulted.conclude_pair {x y : Typed} {ds es : List Expr} {s t : ValueType}
    {v v' : Verdict} (hx : Faulted name x ds s) (hy : Faulted name y es t)
    (hv : Rule.Absorbs v' v) (id : Nat) :
    Faulted name ((x.findings ++ y.findings).conclude id v') (ds ++ es) v.1 := by
  apply Faulted.conclude _ hv
  rw [Findings.diagnostics_append, hx.diagnostics, hy.diagnostics, List.map_append]

theorem denotesStorage_graft (hname : names name = none) (a : Anchor) {e : Expr}
    (h : Rule.denotesStorage names e = true) :
    Rule.denotesStorage names (graft p name a e) = true := by
  unfold graft
  split
  · rw [Rule.denotesStorage, hname]
    rfl
  · exact h

/-- Planting an unknown name takes no storage away from an expression. -/
theorem denotesStorage_plant (hname : names name = none) {e : Expr}
    (h : Rule.denotesStorage names e = true) :
    Rule.denotesStorage names (e.plant p name) = true := by
  cases e with
  | ident a x => exact denotesStorage_graft hname a h
  | unary a op operand =>
    apply denotesStorage_graft hname a
    cases op <;> first | rfl | cases h
  | index a base subscript =>
    apply denotesStorage_graft hname a
    rfl
  | _ => cases h

/-- A call without findings is one of a name that is bound to a function. -/
theorem callee_of_check_call {a : Anchor} {callee : Expr} {args : List Expr}
    (h : ((Expr.call a callee args).check names).findings.diagnostics = []) :
    ∃ b f q defined, callee = .ident b f ∧ names f = some (.function q defined) := by
  obtain ⟨hf, hwrong, -⟩ := Expr.check_call_clean h
  obtain ⟨b, f, q, defined, he, hq, -⟩ :=
    Typing.callee_clean (Typing.hasType_of_check callee hf) hwrong
  exact ⟨b, f, q, defined, he, hq⟩

/-- A call of a known function is checked as its arguments and the rule for calls. -/
theorem check_call_of_function {a b : Anchor} {f : String} {q : Prototype} {defined : Bool}
    (hq : names f = some (.function q defined)) (args : List Expr) :
    (Expr.call a (.ident b f) args).check names =
      (((Expr.ident b f).check names).findings ++
        (.ofDiagnostics [] ++ (Expr.checkAll names args).2)).conclude a.id
        (Rule.call (some q) (Expr.checkAll names args).1 a.location) := by
  rw [Expr.check_call, Rule.callee, hq]

/-- What checking finds in arguments in which an unknown name is planted. They fit the
parameters that they fitted. -/
structure FaultedArguments (names : Names) (name : String) (es' es replaced : List Expr) :
    Prop where
  diagnostics : (Expr.checkAll names es').2.diagnostics = replaced.map (fault name)
  length : (Expr.checkAll names es').1.length = (Expr.checkAll names es).1.length
  fit : ∀ f n ps, Rule.arguments f n ps (Expr.checkAll names es).1 = [] →
    Rule.arguments f n ps (Expr.checkAll names es').1 = []

/-- Planting in a call either makes its function unknown or leaves the called name alone. -/
theorem Expr.call_faulted (hname : names name = none) {a : Anchor} {callee : Expr}
    {args args' replaced : List Expr}
    (h : ((call a callee args).check names).findings.diagnostics = [])
    (hargs : FaultedArguments names name args' args replaced) :
    Faulted name ((call a (callee.plant p name) args').check names)
      (callee.replaced p ++ replaced) ((call a callee args).check names).type := by
  obtain ⟨b, f, q, defined, rfl, hq⟩ := callee_of_check_call h
  rw [Expr.plant, Expr.replaced, CSubset.graft]
  split
  · -- The called name is itself replaced, so no function is reached and no arguments are asked for.
    refine ⟨?_, ?_⟩
    · simp [Rule.callee, Rule.call, check, hname, hargs.diagnostics, fault, location, anchor]
    · simp [check_call, Rule.callee, Rule.call, hname, Spoiled.invalid]
  · rw [check_call_of_function hq] at h ⊢
    rw [check_call_of_function hq]
    obtain ⟨⟨hcallee, -⟩, hrule⟩ := Findings.conclude_pair_clean.mp h
    apply Faulted.conclude
    · rw [Findings.diagnostics_append, hcallee, Findings.diagnostics_append, hargs.diagnostics]
      rfl
    · exact Rule.call_absorbs hargs.length (hargs.fit q.name 1 q.parameters) hrule

mutual

/-- Planting an unknown name in a faultless expression is reported once for each node that is
replaced. -/
theorem Expr.plant_faulted (hname : names name = none) : ∀ e : Expr,
    (e.check names).findings.diagnostics = [] →
      Faulted name ((e.plant p name).check names) (e.replaced p) (e.check names).type
  | .literal a value, _ => Faulted.graft hname (d := .literal a value) ⟨rfl, .refl _⟩
  | .ident a x, h => Faulted.graft hname (d := .ident a x) ⟨h, .refl _⟩
  | .unary a op operand, h => by
    apply Faulted.graft hname (d := .unary a op operand)
    obtain ⟨hoperand, hrule⟩ := Findings.conclude_clean.mp h
    have hx := operand.plant_faulted hname hoperand
    apply Faulted.conclude hx.diagnostics
    exact Rule.operator_absorbs (Rule.unaryResult_spoiled hx.type) hrule
  | .binary a op left right, h => by
    apply Faulted.graft hname (d := .binary a op left right)
    obtain ⟨⟨hleft, hright⟩, hrule⟩ := Findings.conclude_pair_clean.mp h
    have hl := left.plant_faulted hname hleft
    have hr := right.plant_faulted hname hright
    apply hl.conclude_pair hr
    exact Rule.operator_absorbs (Rule.binaryResult_spoiled hl.type hr.type) hrule
  | .assign a op target value, h => by
    apply Faulted.graft hname (d := .assign a op target value)
    obtain ⟨⟨htarget, hvalue⟩, hrule⟩ := Findings.conclude_pair_clean.mp h
    have ht := target.plant_faulted hname htarget
    have hv := value.plant_faulted hname hvalue
    apply ht.conclude_pair hv
    exact Rule.assign_absorbs (denotesStorage_plant hname) ht.type hv.type hrule
  | .call a callee args, h => by
    apply Faulted.graft hname (d := .call a callee args)
    apply call_faulted hname h
    obtain ⟨-, -, hargs⟩ := check_call_clean h
    exact plantAll_faulted hname args hargs
  | .index a base subscript, h => by
    apply Faulted.graft hname (d := .index a base subscript)
    obtain ⟨⟨hbase, hsubscript⟩, hrule⟩ := Findings.conclude_pair_clean.mp h
    have hb := base.plant_faulted hname hbase
    have hs := subscript.plant_faulted hname hsubscript
    apply hb.conclude_pair hs
    exact Rule.index_absorbs hb.type hs.type hrule

theorem Expr.plantAll_faulted (hname : names name = none) : ∀ es : List Expr,
    (checkAll names es).2.diagnostics = [] →
      FaultedArguments names name (plantAll p name es) es (replacedAll p es)
  | [], _ => ⟨rfl, rfl, fun _ _ _ h => h⟩
  | e :: rest, h => by
    rw [checkAll_cons, Findings.diagnostics_append, List.append_eq_nil_iff] at h
    have he := e.plant_faulted hname h.1
    have hrest := plantAll_faulted hname rest h.2
    refine ⟨?_, congrArg (· + 1) hrest.length, ?_⟩
    · rw [plantAll, checkAll_cons, Findings.diagnostics_append, he.diagnostics,
        hrest.diagnostics, replacedAll, List.map_append]
    · intro f n ps hps
      cases ps with
      | nil => rfl
      | cons q ps => exact Rule.arguments_absorbs he.type (hrest.fit f (n + 1) ps) hps

end

end CSubset
