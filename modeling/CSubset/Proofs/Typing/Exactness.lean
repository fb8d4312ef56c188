-- SUMMARY: The checker finds nothing wrong with an expression exactly if the expression has a type.
import CSubset.Proofs.Check.Expr
import CSubset.Proofs.Typing.Tables

/-!
# Exactness of typing

Faultless expressions have the type that the checker gives them (`hasType_of_check`), and an
expression that has a type is faultless and checked to have it (`HasType.check`). As the types
of faultless expressions are proper, the tables can be read as relations throughout.
-/

namespace CSubset

namespace Typing

variable {names : Names}

/-- Types of expressions are proper. -/
theorem HasType.proper {e : Expr} {t : ValueType} : HasType names e t → t.Proper
  | .int | .float | .char | .string => trivial
  | .ident _ h => proper_of_symbolType h
  | .unary he h => proper_of_unaryResult h he.proper
  | .binary _ _ h => proper_of_binaryResult h
  | .assign _ ht _ _ => ht.proper
  | .compound _ ht _ _ _ => ht.proper
  | .call _ _ _ => proper_ofDeclared _
  | .index hb _ _ h => proper_of_pointee h hb.proper

theorem HasType.ne_invalid {e : Expr} {t : ValueType} (h : HasType names e t) : t ≠ .invalid :=
  ne_invalid_of_proper h.proper

/-- Names that occur as typed expressions are bound. -/
theorem HasType.bound {e : Expr} {t : ValueType} (h : HasType names e t) (a : Anchor)
    (name : String) (he : e = .ident a name) : names name ≠ none := by
  subst he
  cases h with
  | ident hs _ => simp [hs]

theorem ofDeclared_ne_invalid (d : DeclaredType) : ValueType.ofDeclared d ≠ .invalid :=
  ne_invalid_of_proper (proper_ofDeclared d)

/-! ## Rules -/

/-- A rule for an operator finds nothing wrong exactly if there is a result. -/
theorem operator_eq {result : Option ValueType} {t : ValueType} (m : Mismatch) (l : Location) :
    Rule.operator result m l = (t, []) ↔ result = some t := by
  cases result <;> simp [Rule.operator]

theorem operator_clean {result : Option ValueType} {m : Mismatch} {l : Location}
    (h : (Rule.operator result m l).2 = []) :
    result = some (Rule.operator result m l).1 := by
  cases result with
  | none => cases h
  | some t => rfl

theorem index_eq {base subscript t : ValueType} (l l' : Location) (hb : base ≠ .invalid)
    (hs : subscript ≠ .invalid) :
    Rule.index base subscript l l' = (t, []) ↔ Integral subscript ∧ Pointee base t := by
  rw [integral_iff, pointee_iff]
  cases hi : subscript.isIntegral <;> cases hp : base.pointee? <;> simp [Rule.index, hb, hs, hi, hp]

theorem store_eq {stored target t : ValueType} {l : Location} (hs : stored ≠ .invalid)
    (ht : target ≠ .invalid) :
    Rule.store stored target l = (t, []) ↔ Assignable stored target ∧ target = t := by
  rw [assignable_iff hs ht]
  cases h : stored.assignableTo target <;> simp [Rule.store, h]

theorem assign_eq {e : Expr} {target value t : ValueType} (op : AssignOp) (l : Location)
    (hbound : ∀ a name, e = .ident a name → names name ≠ none) (ht : target ≠ .invalid)
    (hv : value ≠ .invalid) :
    Rule.assign names op e target value l = (t, []) ↔
      Storage names e ∧ target = t ∧
        match op with
        | .plain => Assignable value target
        | .compound arith =>
          ∃ u, BinaryResult (.arith arith) target value u ∧ Assignable u target := by
  rw [storage_iff hbound]
  unfold Rule.assign
  cases hs : Rule.denotesStorage names e with
  | false => simp
  | true =>
    cases op with
    | plain =>
      simp only [Bool.not_true, Bool.false_eq_true, if_false, store_eq hv ht, true_and, and_comm]
    | compound arith =>
      simp only [Bool.not_true, Bool.false_eq_true, if_false, binaryResult_iff ht hv, true_and]
      cases hr : (BinaryOp.arith arith).result? target value with
      | none => simp
      | some u =>
        have hu := proper_of_binaryResult ((binaryResult_iff ht hv).mpr hr)
        simp only [store_eq (ne_invalid_of_proper hu) ht, Option.some.injEq, exists_eq_left',
          and_comm]

theorem arguments_cons_eq_nil {f : String} {n : Nat} {p : Parameter} {ps : List Parameter}
    {t : ValueType} {l : Location} {rest : List (ValueType × Location)} (ht : t ≠ .invalid) :
    Rule.arguments f n (p :: ps) ((t, l) :: rest) = [] ↔
      Assignable t (.ofDeclared p.type) ∧ Rule.arguments f (n + 1) ps rest = [] := by
  rw [assignable_iff ht (ofDeclared_ne_invalid _), Rule.arguments]
  cases h : t.assignableTo (.ofDeclared p.type) <;> simp

theorem call_eq {p : Prototype} {args : List (ValueType × Location)} {t : ValueType}
    (l : Location) :
    Rule.call (some p) args l = (t, []) ↔
      ValueType.ofDeclared p.returnType = t ∧ Takes p args.length ∧
        Rule.arguments p.name 1 p.parameters args = [] := by
  rw [takes_iff]
  cases h : Rule.takes p args.length <;> simp [Rule.call, h]

/-- What can be called is a name bound to a function. -/
theorem callee_clean {e : Expr} {t : ValueType} (h : HasType names e t)
    (hwrong : (Rule.callee names e t).2 = []) :
    ∃ a name p defined, e = .ident a name ∧ names name = some (.function p defined) ∧
      (Rule.callee names e t).1 = some p := by
  cases e with
  | ident a name =>
    cases hs : names name with
    | none => exact absurd hs (h.bound a name rfl)
    | some s =>
      cases s with
      | function p defined => exact ⟨a, name, p, defined, rfl, hs, by simp [Rule.callee, hs]⟩
      | var | parameter => simp [Rule.callee, hs] at hwrong
  | _ => simp [Rule.callee, h.ne_invalid] at hwrong

theorem length_checkAll (es : List Expr) : (Expr.checkAll names es).1.length = es.length := by
  induction es with
  | nil => rfl
  | cons e rest ih => rw [Expr.checkAll_cons, List.length_cons, List.length_cons, ih]

/-! ## Soundness -/

mutual

/-- An expression without findings has the type that it was checked to have. -/
theorem hasType_of_check : ∀ e : Expr, (e.check names).findings.diagnostics = [] →
    HasType names e (e.check names).type
  | .literal _ (.int _), _ => .int
  | .literal _ (.float _), _ => .float
  | .literal _ (.char _), _ => .char
  | .literal _ (.string _), _ => .string
  | .ident a name, h => by
    rw [Expr.check] at h ⊢
    cases hs : names name with
    | none => simp [hs] at h
    | some s => exact .ident hs (symbolType_iff.mpr rfl)
  | .unary a op operand, h => by
    obtain ⟨hoperand, hrule⟩ := Findings.conclude_clean.mp h
    have he := hasType_of_check operand hoperand
    exact .unary he ((unaryResult_iff he.ne_invalid).mpr (operator_clean hrule))
  | .binary a op left right, h => by
    obtain ⟨⟨hleft, hright⟩, hrule⟩ := Findings.conclude_pair_clean.mp h
    have hl := hasType_of_check left hleft
    have hr := hasType_of_check right hright
    exact .binary hl hr ((binaryResult_iff hl.ne_invalid hr.ne_invalid).mpr (operator_clean hrule))
  | .assign a op target value, h => by
    obtain ⟨⟨htarget, hvalue⟩, hrule⟩ := Findings.conclude_pair_clean.mp h
    have ht := hasType_of_check target htarget
    have hv := hasType_of_check value hvalue
    obtain ⟨hs, hty, hop⟩ := (assign_eq _ _ ht.bound ht.ne_invalid hv.ne_invalid).mp
      (Prod.ext (rfl : _ = (Rule.assign names op target _ _ value.location).1) hrule)
    have htype : ((Expr.assign a op target value).check names).type = (target.check names).type :=
      hty.symm
    rw [htype]
    cases op with
    | plain => exact .assign hs ht hv hop
    | compound arith =>
      obtain ⟨u, hu, hstore⟩ := hop
      exact .compound hs ht hv hu hstore
  | .call a callee args, h => by
    obtain ⟨hf, hwrong, ha⟩ := Expr.check_call_clean h
    obtain ⟨-, hcall⟩ := Findings.conclude_clean.mp h
    obtain ⟨a', name, p, defined, rfl, hp, hfun⟩ := callee_clean (hasType_of_check callee hf) hwrong
    obtain ⟨hret, hn, hargs⟩ := (call_eq _).mp
      (Prod.ext (rfl : _ = (Rule.call (some p) (Expr.checkAll names args).1 a.location).1)
        (hfun ▸ hcall))
    have htype : ((Expr.call a (.ident a' name) args).check names).type =
        .ofDeclared p.returnType := by
      rw [Expr.check_call, Findings.conclude_type, hfun]
      rfl
    rw [length_checkAll] at hn
    rw [htype]
    exact .call hp hn (fit_of_checkAll p.name 1 p.parameters args ha hargs)
  | .index a base subscript, h => by
    obtain ⟨⟨hbase, hsubscript⟩, hrule⟩ := Findings.conclude_pair_clean.mp h
    have hb := hasType_of_check base hbase
    have hs := hasType_of_check subscript hsubscript
    obtain ⟨hi, hp⟩ := (index_eq _ _ hb.ne_invalid hs.ne_invalid).mp
      (Prod.ext (rfl : _ = (Rule.index _ _ base.location subscript.location).1) hrule)
    exact .index hb hs hi hp

/-- Arguments without findings that meet their parameters fit them. -/
theorem fit_of_checkAll (f : String) : ∀ (n : Nat) (ps : List Parameter) (es : List Expr),
    (Expr.checkAll names es).2.diagnostics = [] →
    Rule.arguments f n ps (Expr.checkAll names es).1 = [] → Fit names ps es
  | _, _, [], _, _ => .nil
  | n, ps, e :: es, h, hargs => by
    simp only [Expr.checkAll_cons, Findings.diagnostics_append, List.append_eq_nil_iff] at h hargs
    have he := hasType_of_check e h.1
    cases ps with
    | nil => exact .surplus he (fit_of_checkAll f n [] es h.2 (by cases es <;> rfl))
    | cons p ps =>
      obtain ⟨hp, hrest⟩ := (arguments_cons_eq_nil he.ne_invalid).mp hargs
      exact .cons he hp (fit_of_checkAll f (n + 1) ps es h.2 hrest)

end

/-! ## Completeness -/

theorem append_clean {f g : Findings} (hf : f.diagnostics = []) (hg : g.diagnostics = []) :
    (f ++ g).diagnostics = [] := by
  rw [Findings.diagnostics_append, hf, hg, List.append_nil]

/-- A node whose parts are without findings is as its rule says. -/
theorem check_of_rule {f : Findings} {id : Nat} {v : Verdict} {t : ValueType}
    (hf : f.diagnostics = []) (hv : v = (t, [])) :
    (f.conclude id v).findings.diagnostics = [] ∧ (f.conclude id v).type = t := by
  subst hv
  exact ⟨Findings.conclude_clean.mpr ⟨hf, rfl⟩, rfl⟩

mutual

/-- An expression that has a type is without findings and is checked to have that type. -/
theorem HasType.check {e : Expr} {t : ValueType} : HasType names e t →
    (e.check names).findings.diagnostics = [] ∧ (e.check names).type = t
  | .int => ⟨rfl, rfl⟩
  | .float => ⟨rfl, rfl⟩
  | .char => ⟨rfl, rfl⟩
  | .string => ⟨rfl, rfl⟩
  | .ident hs h => by
    simp [Expr.check, hs, symbolType_iff.mp h]
  | .unary he h => by
    obtain ⟨hd, ht⟩ := he.check
    apply check_of_rule hd
    rw [ht]
    exact (operator_eq _ _).mpr ((unaryResult_iff he.ne_invalid).mp h)
  | .binary hl hr h => by
    obtain ⟨hd, ht⟩ := hl.check
    obtain ⟨hd', ht'⟩ := hr.check
    apply check_of_rule (append_clean hd hd')
    rw [ht, ht']
    exact (operator_eq _ _).mpr ((binaryResult_iff hl.ne_invalid hr.ne_invalid).mp h)
  | .assign hs ht hv h => by
    obtain ⟨hd, ht'⟩ := ht.check
    obtain ⟨hd', hv'⟩ := hv.check
    apply check_of_rule (append_clean hd hd')
    rw [ht', hv']
    exact (assign_eq _ _ ht.bound ht.ne_invalid hv.ne_invalid).mpr ⟨hs, rfl, h⟩
  | .compound hs ht hv hu h => by
    obtain ⟨hd, ht'⟩ := ht.check
    obtain ⟨hd', hv'⟩ := hv.check
    apply check_of_rule (append_clean hd hd')
    rw [ht', hv']
    exact (assign_eq _ _ ht.bound ht.ne_invalid hv.ne_invalid).mpr ⟨hs, rfl, _, hu, h⟩
  | .call hf hn ha => by
    obtain ⟨hd, hargs⟩ := ha.check _ 1
    have hcall := fun l => (call_eq l).mpr ⟨rfl, (length_checkAll _).symm ▸ hn, hargs⟩
    simp [Expr.check, Rule.callee, hf, hd, hcall]
  | .index hb hi ht h => by
    obtain ⟨hd, hb'⟩ := hb.check
    obtain ⟨hd', hi'⟩ := hi.check
    apply check_of_rule (append_clean hd hd')
    rw [hb', hi']
    exact (index_eq _ _ hb.ne_invalid hi.ne_invalid).mpr ⟨ht, h⟩

theorem Fit.check {ps : List Parameter} {es : List Expr} : Fit names ps es →
    ∀ (f : String) (n : Nat), (Expr.checkAll names es).2.diagnostics = [] ∧
      Rule.arguments f n ps (Expr.checkAll names es).1 = []
  | .nil => fun f n => ⟨rfl, by cases ps <;> rfl⟩
  | .cons he h hs => fun f n => by
    obtain ⟨hd, ht⟩ := he.check
    obtain ⟨hd', hargs⟩ := hs.check f (n + 1)
    simp only [Expr.checkAll_cons, Findings.diagnostics_append, hd, hd', List.append_nil, ht,
      arguments_cons_eq_nil he.ne_invalid, h, hargs, and_self]
  | .surplus he hs => fun f n => by
    obtain ⟨hd, -⟩ := he.check
    obtain ⟨hd', -⟩ := hs.check f n
    simp only [Expr.checkAll_cons, Findings.diagnostics_append, hd, hd', List.append_nil,
      Rule.arguments, and_self]

end

/-! ## Parts of typed expressions -/

/-- What holds of the nodes of the parts and of the node behind them holds of all. -/
theorem forall_mem_concat {P : Expr → Prop} {es : List Expr} {e : Expr} (hes : ∀ d ∈ es, P d)
    (he : P e) : ∀ d ∈ es ++ [e], P d :=
  List.forall_mem_append.mpr ⟨hes, List.forall_mem_singleton.mpr he⟩

theorem forall_mem_pair_concat {P : Expr → Prop} {ds es : List Expr} {e : Expr}
    (hds : ∀ d ∈ ds, P d) (hes : ∀ d ∈ es, P d) (he : P e) : ∀ d ∈ ds ++ es ++ [e], P d :=
  forall_mem_concat (List.forall_mem_append.mpr ⟨hds, hes⟩) he

mutual

/-- All nodes of a typed expression are typed. -/
theorem HasType.nodes {e : Expr} {t : ValueType} :
    HasType names e t → ∀ d ∈ e.nodes, ∃ u, HasType names d u
  | .int => List.forall_mem_singleton.mpr ⟨_, .int⟩
  | .float => List.forall_mem_singleton.mpr ⟨_, .float⟩
  | .char => List.forall_mem_singleton.mpr ⟨_, .char⟩
  | .string => List.forall_mem_singleton.mpr ⟨_, .string⟩
  | .ident hs h => List.forall_mem_singleton.mpr ⟨_, .ident hs h⟩
  | .unary he h => forall_mem_concat he.nodes ⟨_, .unary he h⟩
  | .binary hl hr h => forall_mem_pair_concat hl.nodes hr.nodes ⟨_, .binary hl hr h⟩
  | .assign hs ht hv h => forall_mem_pair_concat ht.nodes hv.nodes ⟨_, .assign hs ht hv h⟩
  | .compound hs ht hv hu h =>
    forall_mem_pair_concat ht.nodes hv.nodes ⟨_, .compound hs ht hv hu h⟩
  | .call hf hn ha =>
    forall_mem_pair_concat (List.forall_mem_singleton.mpr ⟨_, .ident hf .function⟩) ha.nodes
      ⟨_, .call hf hn ha⟩
  | .index hb hi ht h => forall_mem_pair_concat hb.nodes hi.nodes ⟨_, .index hb hi ht h⟩

theorem Fit.nodes {ps : List Parameter} {es : List Expr} :
    Fit names ps es → ∀ d ∈ Expr.nodesAll es, ∃ u, HasType names d u
  | .nil => nofun
  | .cons he _ hs => List.forall_mem_append.mpr ⟨he.nodes, hs.nodes⟩
  | .surplus he hs => List.forall_mem_append.mpr ⟨he.nodes, hs.nodes⟩

end

/-- An expression is checked without a finding exactly if it has a type. That type is then the
checked one and not `invalid`, and every node of the expression is recorded with a type that
the node has. -/
theorem check_eq_nil_iff_hasType (names : Names) (e : Expr) :
    ((e.check names).findings.diagnostics = [] ↔ ∃ t, HasType names e t) ∧
      ∀ t, HasType names e t → t = (e.check names).type ∧ t ≠ .invalid ∧
        ∀ d ∈ e.nodes, ∃ u, HasType names d u ∧ (d.id, u) ∈ (e.check names).findings.types := by
  refine ⟨⟨fun h => ⟨_, hasType_of_check e h⟩, fun ⟨t, h⟩ => h.check.1⟩, fun t h => ?_⟩
  refine ⟨h.check.2.symm, h.ne_invalid, fun d hd => ?_⟩
  obtain ⟨u, hu⟩ := h.nodes d hd
  refine ⟨u, hu, ?_⟩
  rw [Expr.check_types, List.mem_map]
  exact ⟨d, hd, by rw [hu.check.2]⟩

end Typing

end CSubset
