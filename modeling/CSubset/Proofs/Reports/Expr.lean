-- SUMMARY: No expression is reported twice for one reason, by its own rule and the rules around it.
import CSubset.Proofs.Check.Expr
import CSubset.Proofs.Grammar.Positions
import CSubset.Proofs.Typing.Exactness
import Mathlib.Data.List.Nodup

/-!
# Reports about expressions

A rule reports at the position of its own node or at that of a part. To see that nothing is said
twice, the kinds of reports are shared out: what is wrong inside an expression is reported there
by its own rule, and a mismatch then makes its type `invalid`; what is left to the construct
around it is to object to it as an assignment target, or to its type if that is known. `Judged`
says that a rule keeps to this, and `Settled` that a checked expression does.
-/

namespace CSubset

/-- What a report is recognized by: its kind and its position. -/
def Diagnostic.key (d : Diagnostic) : Kind × Option Location := (d.kind, d.location?)

/-- The reports differ from each other in kind or position, and stand at some of the positions
`ls`. -/
structure Distinct (ls : List Location) (ds : List Diagnostic) : Prop where
  nodup : (ds.map Diagnostic.key).Nodup
  within : ∀ d ∈ ds, ∃ l ∈ ls, d.location? = some l

namespace Distinct

variable {ls ms : List Location} {ds ds' : List Diagnostic}

theorem nil (ls : List Location) : Distinct ls [] := ⟨.nil, by simp⟩

theorem single {l : Location} {d : Diagnostic} (h : d.location? = some l) : Distinct [l] [d] :=
  ⟨by simp, by simp [h]⟩

theorem perm (h : Distinct ls ds) (hp : ds'.Perm ds) : Distinct ls ds' :=
  ⟨(hp.map _).nodup_iff.mpr h.nodup, fun d hd => h.within d (hp.mem_iff.mp hd)⟩

theorem widen (h : Distinct ls ds) (hs : ls ⊆ ms) : Distinct ms ds :=
  ⟨h.nodup, fun d hd => (h.within d hd).imp fun _ hl => ⟨hs hl.1, hl.2⟩⟩

/-- Reports of different kinds or positions can be put together. -/
theorem join (h : Distinct ls ds) (h' : Distinct ls ds')
    (hkeys : ∀ d ∈ ds, ∀ d' ∈ ds', d.key ≠ d'.key) : Distinct ls (ds ++ ds') := by
  refine ⟨?_, ?_⟩
  · rw [List.map_append]
    refine h.nodup.append h'.nodup fun k hk hk' => ?_
    obtain ⟨d, hd, rfl⟩ := List.mem_map.mp hk
    obtain ⟨d', hd', heq⟩ := List.mem_map.mp hk'
    exact hkeys d hd d' hd' heq.symm
  · intro d hd
    rcases List.mem_append.mp hd with hd | hd
    · exact h.within d hd
    · exact h'.within d hd

/-- Reports at different positions can be put together. -/
theorem append (h : Distinct ls ds) (h' : Distinct ms ds') (hd : (ls ++ ms).Nodup) :
    Distinct (ls ++ ms) (ds ++ ds') := by
  refine (h.widen (List.subset_append_left _ _)).join (h'.widen (List.subset_append_right _ _)) ?_
  intro d hd₁ d' hd₂ heq
  obtain ⟨l, hl, hdl⟩ := h.within d hd₁
  obtain ⟨m, hm, hdm⟩ := h'.within d' hd₂
  obtain rfl : l = m := Option.some.inj (hdl ▸ hdm ▸ (congrArg Prod.snd heq : d.location? = _))
  exact List.disjoint_of_nodup_append hd hl hm

end Distinct

/-! ## What is left to the construct around an expression -/

/-- The kinds of reports about an expression of a type that are left to the construct around it:
that nothing can be assigned to it, and that its type does not fit, if the type is known. -/
def Diagnostic.Kind.LeftFor (k : Diagnostic.Kind) (t : ValueType) : Prop :=
  k = .notAssignable ∨ k = .typeMismatch ∧ t ≠ .invalid

/-- The reports of a rule about a node of type `t` at `l`, whose parts have these types and
positions: about the node itself only what is not left to others, about a part only what is. -/
structure Judged (l : Location) (t : ValueType) (parts : List (ValueType × Location))
    (ds : List Diagnostic) : Prop where
  nodup : (ds.map Diagnostic.key).Nodup
  about : ∀ d ∈ ds, (d.location? = some l ∧ ¬ d.kind.LeftFor t) ∨
    ∃ p ∈ parts, d.location? = some p.2 ∧ d.kind.LeftFor p.1

namespace Judged

variable {l : Location} {t : ValueType} {parts : List (ValueType × Location)}

theorem nil : Judged l t parts [] := ⟨.nil, by simp⟩

theorem self {d : Diagnostic} (hd : d.location? = some l) (hk : ¬ d.kind.LeftFor t) :
    Judged l t parts [d] :=
  ⟨by simp, by simp [hd, hk]⟩

theorem widen {ps : List (ValueType × Location)} {ds : List Diagnostic} (h : Judged l t ps ds)
    (hp : ps ⊆ parts) : Judged l t parts ds :=
  ⟨h.nodup, fun d hd => (h.about d hd).imp_right fun ⟨p, hmem, hd⟩ => ⟨p, hp hmem, hd⟩⟩

theorem join {ds ds' : List Diagnostic} (h : Judged l t parts ds) (h' : Judged l t parts ds')
    (hkeys : ∀ d ∈ ds, ∀ d' ∈ ds', d.key ≠ d'.key) : Judged l t parts (ds ++ ds') := by
  refine ⟨?_, fun d hd => (List.mem_append.mp hd).elim (h.about d) (h'.about d)⟩
  rw [List.map_append]
  refine h.nodup.append h'.nodup fun k hk hk' => ?_
  obtain ⟨d, hd, rfl⟩ := List.mem_map.mp hk
  obtain ⟨d', hd', heq⟩ := List.mem_map.mp hk'
  exact hkeys d hd d' hd' heq.symm

/-- The type of a part does not fit, and is known. -/
theorem mismatch {m : Mismatch} {p : ValueType × Location} (hp : p ∈ parts)
    (ht : p.1 ≠ .invalid) : Judged l t parts [m.report p.2] :=
  ⟨by simp, by simpa using .inr ⟨p.1, p.2, hp, rfl, .inr ⟨rfl, ht⟩⟩⟩

end Judged

theorem Symbol.valueType_ne_invalid (s : Symbol) : s.valueType ≠ .invalid := by
  cases s with
  | function => exact ValueType.noConfusion
  | var => exact Typing.ofDeclared_ne_invalid _
  | parameter => exact Typing.ofDeclared_ne_invalid _

namespace Rule

variable {l : Location} {parts : List (ValueType × Location)}

/-! ## Rules keep to their share -/

theorem operator_judged (result : Option ValueType) (m : Mismatch) :
    Judged l (operator result m l).1 parts (operator result m l).2 := by
  cases result with
  | some t => exact .nil
  | none => exact .self rfl fun h => h.elim Diagnostic.Kind.noConfusion fun h => h.2 rfl

theorem unary_judged (op : UnaryOp) (t : ValueType) :
    Judged l (unary op t l).1 parts (unary op t l).2 := operator_judged _ _

theorem binary_judged (op : BinaryOp) (s t : ValueType) :
    Judged l (binary op s t l).1 parts (binary op s t l).2 := operator_judged _ _

theorem ne_invalid_of_unfit {s t : ValueType} (h : s.assignableTo t = false) : s ≠ .invalid := by
  rintro rfl
  simp [ValueType.assignableTo] at h

theorem store_judged {stored value target : ValueType} {k : Location}
    (hvalue : value = .invalid → stored = .invalid) (hp : (value, k) ∈ parts) :
    Judged l (store stored target k).1 parts (store stored target k).2 := by
  unfold store
  cases h : stored.assignableTo target with
  | true => exact .nil
  | false => exact .mismatch hp fun hv => ne_invalid_of_unfit h (hvalue hv)

theorem assign_judged (names : Names) (op : AssignOp) (e : Expr) (target value : ValueType)
    (k : Location) :
    Judged l (assign names op e target value k).1 [(target, e.location), (value, k)]
      (assign names op e target value k).2 := by
  have hvalue : (value, k) ∈ [(target, e.location), (value, k)] := by simp
  unfold assign
  split
  · exact ⟨by simp, by simp [Diagnostic.location?, Diagnostic.kind, Diagnostic.Kind.LeftFor]⟩
  · split
    · exact store_judged id hvalue
    · next arith =>
      have hinvalid (h : value = .invalid) :
          (BinaryOp.arith arith).result? target value = some .invalid := by
        simp [BinaryOp.result?, h]
      split
      · next stored h =>
        refine store_judged (fun hv => ?_) hvalue
        rw [hinvalid hv] at h
        cases h
        rfl
      · next h =>
        refine .mismatch hvalue fun hv => ?_
        rw [hinvalid hv] at h
        cases h

theorem index_judged {base subscript : ValueType} {k m : Location} (hkm : k ≠ m) :
    Judged l (index base subscript k m).1 [(base, k), (subscript, m)]
      (index base subscript k m).2 := by
  have hwrong (t : ValueType) : Judged l t [(base, k), (subscript, m)]
      (if subscript = .invalid ∨ subscript.isIntegral then []
        else [(Mismatch.subscript subscript).report m]) := by
    split
    · exact .nil
    · next h => exact .mismatch (p := (subscript, m)) (by simp) fun hs => h (.inl hs)
  unfold index
  dsimp only
  split
  · exact hwrong _
  · next h =>
    split
    · exact hwrong _
    · refine (hwrong _).join (.mismatch (p := (base, k)) (by simp) h) fun d hd d' hd' heq => ?_
      split at hd
      · cases hd
      · cases List.mem_singleton.mp hd
        cases List.mem_singleton.mp hd'
        exact hkm (Option.some.inj (congrArg Prod.snd heq)).symm

theorem callee_judged (names : Names) (e : Expr) (t : ValueType) :
    Judged l t [((e.check names).type, e.location)]
      (callee names e (e.check names).type).2 := by
  unfold callee
  split
  · next a name =>
    cases h : names name with
    | none => exact .nil
    | some s =>
      have ht : (Expr.check names (.ident a name)).type ≠ .invalid := by
        rw [Expr.check, h]
        exact s.valueType_ne_invalid
      cases s with
      | function => exact .nil
      | var | parameter =>
        exact .mismatch (p := (_, Expr.location (.ident a name))) (List.mem_singleton.mpr rfl) ht
  · dsimp only
    split
    · exact .nil
    · next h =>
      exact .mismatch (p := (_, e.location)) (List.mem_singleton.mpr rfl) h

theorem callee_location {names : Names} {e : Expr} {t : ValueType} {d : Diagnostic}
    (hd : d ∈ (callee names e t).2) : d.location? = some e.location := by
  unfold callee at hd
  split at hd
  · split at hd
    · cases hd
    · cases List.mem_singleton.mp hd
      rfl
    · cases hd
  · dsimp only at hd
    split at hd
    · cases hd
    · cases List.mem_singleton.mp hd
      rfl

/-- Arguments are only reported as mismatches, at their own positions and in their order. -/
theorem arguments_locations (f : String) (n : Nat) (ps : List Parameter)
    (args : List (ValueType × Location)) :
    ((arguments f n ps args).map Diagnostic.location?).Sublist
      (args.map fun arg => some arg.2) := by
  induction ps generalizing n args with
  | nil => exact List.nil_sublist _
  | cons p ps ih =>
    cases args with
    | nil => exact List.nil_sublist _
    | cons arg args =>
      rw [arguments]
      split
      · exact (ih (n + 1) args).cons _
      · exact (ih (n + 1) args).cons_cons _

theorem arguments_about {f : String} {n : Nat} {ps : List Parameter}
    {args : List (ValueType × Location)} {d : Diagnostic} (hd : d ∈ arguments f n ps args) :
    d.kind = .typeMismatch ∧ ∃ arg ∈ args, d.location? = some arg.2 ∧ arg.1 ≠ .invalid := by
  induction ps generalizing n args with
  | nil => cases hd
  | cons p ps ih =>
    cases args with
    | nil => cases hd
    | cons arg args =>
      rw [arguments] at hd
      rcases List.mem_append.mp hd with hd | hd
      · split at hd
        · cases hd
        · next h =>
          cases List.mem_singleton.mp hd
          exact ⟨rfl, arg, List.mem_cons_self, rfl,
            ne_invalid_of_unfit (Bool.eq_false_iff.mpr h)⟩
      · obtain ⟨hk, x, hx, hl⟩ := ih hd
        exact ⟨hk, x, List.mem_cons_of_mem _ hx, hl⟩

theorem call_judged (function : Option Prototype) {args : List (ValueType × Location)}
    (hargs : (args.map Prod.snd).Nodup) :
    Judged l (call function args l).1 args (call function args l).2 := by
  cases function with
  | none => exact .nil
  | some p =>
    have harguments (t : ValueType) : Judged l t args (arguments p.name 1 p.parameters args) := by
      refine ⟨?_, fun d hd => .inr ?_⟩
      · apply List.Nodup.of_map Prod.snd
        rw [List.map_map]
        refine (arguments_locations _ _ _ _).nodup ?_
        have hsome := hargs.map (f := some) fun _ _ => Option.some.inj
        rwa [List.map_map] at hsome
      · obtain ⟨hk, arg, harg, hl, ht⟩ := arguments_about hd
        exact ⟨arg, harg, hl, .inr ⟨hk, ht⟩⟩
    have harity : Judged l (call (some p) args l).1 args
        (if takes p args.length then []
          else [.arityMismatch p.name p.parameters.length args.length p.variadic l]) := by
      split
      · exact .nil
      · exact .self rfl (by simp [Diagnostic.Kind.LeftFor, Diagnostic.kind])
    refine harity.join (harguments _) fun d hd d' hd' heq => ?_
    have hk : d.kind = .typeMismatch := (congrArg Prod.fst heq).trans (arguments_about hd').1
    split at hd
    · cases hd
    · cases List.mem_singleton.mp hd
      cases hk

end Rule

/-! ## Expressions -/

namespace Expr

variable {names : Names}

/-- What is reported in an expression. -/
def reports (names : Names) (e : Expr) : List Diagnostic := (e.check names).findings.diagnostics

/-- What a rule about the construct around an expression sees of it. -/
def part (names : Names) (e : Expr) : ValueType × Location := ((e.check names).type, e.location)

theorem checkAll_parts (es : List Expr) : (checkAll names es).1 = es.map (part names) := by
  induction es with
  | nil => rfl
  | cons e rest ih => rw [checkAll_cons, ih, List.map_cons]; rfl

theorem checkAll_reports (es : List Expr) :
    (checkAll names es).2.diagnostics = es.flatMap (reports names) := by
  induction es with
  | nil => rfl
  | cons e rest ih => rw [checkAll_cons, Findings.diagnostics_append, ih, List.flatMap_cons]; rfl

/-- Nothing is reported twice in an expression, and nothing about it that is left to others. -/
structure Settled (names : Names) (e : Expr) : Prop where
  distinct : Distinct e.positions (e.reports names)
  leaves : ∀ d ∈ e.reports names, d.kind.LeftFor (e.check names).type →
    d.location? ≠ some e.location

/-- Expressions side by side share no position. -/
theorem eq_of_shared {es : List Expr} (h : (es.flatMap positions).Nodup) {c d : Expr}
    (hc : c ∈ es) (hd : d ∈ es) {l : Location} (hlc : l ∈ c.positions) (hld : l ∈ d.positions) :
    c = d := by
  have hdisjoint := (List.nodup_flatMap.mp h).2
  refine List.Pairwise.forall_of_forall_of_flip
    (R := fun c d => ∀ l ∈ c.positions, l ∈ d.positions → c = d)
    (fun _ _ _ _ _ => rfl) ?_ ?_ hc hd l hlc hld
  · exact hdisjoint.imp fun h l hl hl' => (h hl hl').elim
  · exact hdisjoint.imp fun h => fun l hl hl' => (h hl' hl).elim

theorem nodup_locations {es : List Expr} (h : (es.flatMap positions).Nodup) :
    (es.map location).Nodup := by
  refine List.Sublist.nodup ?_ h
  induction es with
  | nil => exact List.nil_sublist _
  | cons e rest ih =>
    exact (List.singleton_sublist.mpr e.location_mem_positions).append
      (ih (List.nodup_append.mp h).2.1)

theorem distinct_flatMap {es : List Expr} (h : (es.flatMap positions).Nodup)
    (hes : ∀ e ∈ es, Settled names e) :
    Distinct (es.flatMap positions) (es.flatMap (reports names)) := by
  induction es with
  | nil => exact .nil _
  | cons e rest ih =>
    have hrest := (List.nodup_append.mp h).2.1
    exact (hes e List.mem_cons_self).distinct.append
      (ih hrest fun d hd => hes d (List.mem_cons_of_mem _ hd)) h

/-- A node whose rule keeps to its share says nothing that was said in the parts. -/
theorem Settled.of_parts {e : Expr} (hnodup : e.positions.Nodup)
    (hparts : ∀ c ∈ e.children, Settled names c) {own : List Diagnostic}
    (hown : Judged e.location (e.check names).type (e.children.map (part names)) own)
    (hreports : (e.reports names).Perm (e.children.flatMap (reports names) ++ own)) :
    Settled names e := by
  obtain ⟨hself, hchildren⟩ := List.nodup_cons.mp (e.positions_perm.nodup_iff.mp hnodup)
  have hinner := distinct_flatMap hchildren hparts
  have hsub : e.location :: e.children.flatMap positions ⊆ e.positions :=
    e.positions_perm.symm.subset
  have hplace : ∀ c ∈ e.children, c.location ∈ e.children.flatMap positions :=
    fun c hc => List.mem_flatMap.mpr ⟨c, hc, c.location_mem_positions⟩
  have hwithin : Distinct e.positions own := by
    refine ⟨hown.nodup, fun d hd => ?_⟩
    rcases hown.about d hd with ⟨hl, -⟩ | ⟨p, hp, hl, -⟩
    · exact ⟨_, hsub List.mem_cons_self, hl⟩
    · obtain ⟨c, hc, rfl⟩ := List.mem_map.mp hp
      exact ⟨_, hsub (List.mem_cons_of_mem _ (hplace c hc)), hl⟩
  refine ⟨?_, fun d hd hk hl => ?_⟩
  · refine Distinct.perm (Distinct.join (hinner.widen ?_) hwithin ?_) hreports
    · exact fun l hl => hsub (List.mem_cons_of_mem _ hl)
    intro d hd d' hd' heq
    have hkind : d.kind = d'.kind := congrArg Prod.fst heq
    have hlocation : d.location? = d'.location? := congrArg Prod.snd heq
    rcases hown.about d' hd' with ⟨hl, -⟩ | ⟨p, hp, hl, hk⟩
    · obtain ⟨l, hmem, hdl⟩ := hinner.within d hd
      rw [hlocation, hl] at hdl
      cases hdl
      exact hself hmem
    · obtain ⟨c, hc, rfl⟩ := List.mem_map.mp hp
      obtain ⟨c', hc', hdc⟩ := List.mem_flatMap.mp hd
      obtain ⟨l, hmem, hdl⟩ := (hparts c' hc').distinct.within d hdc
      rw [hlocation, hl] at hdl
      cases hdl
      obtain rfl := eq_of_shared hchildren hc hc' c.location_mem_positions hmem
      exact (hparts c hc).leaves d hdc (hkind ▸ hk) (hlocation ▸ hl)
  · rcases List.mem_append.mp (hreports.mem_iff.mp hd) with hd | hd
    · obtain ⟨l, hmem, hdl⟩ := hinner.within d hd
      rw [hl] at hdl
      cases hdl
      exact hself hmem
    · rcases hown.about d hd with ⟨-, hleft⟩ | ⟨p, hp, hpl, -⟩
      · exact hleft hk
      · obtain ⟨c, hc, rfl⟩ := List.mem_map.mp hp
        rw [hl] at hpl
        exact hself (Option.some.inj hpl ▸ hplace c hc)

/-- The reports of a call, those about the called expression put behind those of the parts. -/
theorem reports_call (a : Anchor) (callee : Expr) (args : List Expr) :
    ((call a callee args).reports names).Perm
      ((callee :: args).flatMap (reports names) ++
        ((Rule.callee names callee (callee.check names).type).2 ++
          (Rule.call (Rule.callee names callee (callee.check names).type).1
            (args.map (part names)) a.location).2)) := by
  unfold reports
  rw [check_call, Findings.conclude_diagnostics, Findings.diagnostics_append,
    Findings.diagnostics_append, Findings.diagnostics_ofDiagnostics, checkAll_reports,
    checkAll_parts, List.flatMap_cons, List.append_assoc, List.append_assoc, List.append_assoc]
  exact .append_left _ (List.perm_append_comm_assoc _ _ _)

theorem call_judged {a : Anchor} {callee : Expr} {args : List Expr}
    (h : (call a callee args).positions.Nodup) :
    Judged a.location ((call a callee args).check names).type
      (callee.part names :: args.map (part names))
      ((Rule.callee names callee (callee.check names).type).2 ++
        (Rule.call (Rule.callee names callee (callee.check names).type).1
          (args.map (part names)) a.location).2) := by
  obtain ⟨hself, hparts⟩ :=
    List.nodup_cons.mp ((positions_perm (call a callee args)).nodup_iff.mp h)
  obtain ⟨-, hargs, hapart⟩ := List.nodup_append.mp hparts
  have hlocations : ((args.map (part names)).map Prod.snd).Nodup := by
    rw [List.map_map]
    exact nodup_locations hargs
  rw [check_call, Findings.conclude_type, checkAll_parts]
  have hcallee := Rule.callee_judged (l := a.location) names callee
    (Rule.call (Rule.callee names callee (callee.check names).type).1
      (args.map (part names)) a.location).1
  have hcall := Rule.call_judged (l := a.location)
    (Rule.callee names callee (callee.check names).type).1 hlocations
  refine (hcallee.widen ?_).join (hcall.widen (List.subset_cons_self _ _)) ?_
  · exact List.cons_subset_cons _ (List.nil_subset _)
  intro d hd d' hd' heq
  have hlocation : d.location? = d'.location? := congrArg Prod.snd heq
  have hd := Rule.callee_location hd
  have hdistinct : ((callee :: args).map location).Nodup := nodup_locations hparts
  rcases hcall.about d' hd' with ⟨hl, -⟩ | ⟨p, hp, hl, -⟩
  · rw [← hlocation, hd] at hl
    have hsame : (call a callee args).location = callee.location := (Option.some.inj hl).symm
    rw [hsame] at hself
    exact hself (List.mem_flatMap.mpr
      ⟨callee, List.mem_cons_self, callee.location_mem_positions⟩)
  · obtain ⟨arg, harg, rfl⟩ := List.mem_map.mp hp
    rw [← hlocation, hd] at hl
    refine (List.nodup_cons.mp hdistinct).1 (List.mem_map.mpr ⟨arg, harg, ?_⟩)
    exact (Option.some.inj hl).symm

theorem sizeOf_child {e c : Expr} (h : c ∈ e.children) : sizeOf c < sizeOf e := by
  cases e <;> simp only [children, List.mem_cons, List.not_mem_nil, or_false] at h
  case call a callee args =>
    rcases h with rfl | h
    · simp only [call.sizeOf_spec]
      omega
    · have := List.sizeOf_lt_of_mem h
      simp only [call.sizeOf_spec]
      omega
  all_goals
    rcases h with rfl | rfl <;> simp <;> omega

/-- In an expression whose positions differ, nothing is reported twice, and nothing about it that
is left to the construct around it. -/
theorem settled (names : Names) {e : Expr} (h : e.positions.Nodup) : Settled names e := by
  have hinner := (List.nodup_cons.mp (e.positions_perm.nodup_iff.mp h)).2
  have hparts : ∀ c ∈ e.children, Settled names c :=
    fun c hc => settled names ((List.nodup_flatMap.mp hinner).1 c hc)
  cases e with
  | literal a value =>
    refine .of_parts h hparts .nil ?_
    simp [reports, check, children]
  | ident a name =>
    cases hs : names name with
    | some s =>
      refine .of_parts h hparts .nil ?_
      simp [reports, check, children, hs]
    | none =>
      refine .of_parts h hparts (.self (d := .undefinedSymbol name a.location) rfl ?_) ?_
      · simp [Diagnostic.Kind.LeftFor, Diagnostic.kind]
      · simp [reports, check, children, hs]
  | unary a op operand =>
    refine .of_parts h hparts (Rule.unary_judged op (operand.check names).type) (.of_eq ?_)
    simp [reports, check, children, location, anchor]
  | binary a op left right =>
    refine .of_parts h hparts
      (Rule.binary_judged op (left.check names).type (right.check names).type) (.of_eq ?_)
    simp [reports, check, children, location, anchor]
  | assign a op target value =>
    refine .of_parts h hparts (Rule.assign_judged names op target (target.check names).type
      (value.check names).type value.location) (.of_eq ?_)
    simp [reports, check, children]
  | call a callee args =>
    exact .of_parts h hparts (call_judged h) (reports_call _ _ _)
  | index a base subscript =>
    have hapart : base.location ≠ subscript.location := by
      have hlocations := nodup_locations hinner
      simpa [children] using hlocations
    refine .of_parts h hparts (Rule.index_judged hapart) (.of_eq ?_)
    simp [reports, check, children]
termination_by sizeOf e
decreasing_by exact sizeOf_child hc

end Expr

end CSubset
