-- SUMMARY: Constants are not assigned to by name; the elements of constant arrays are not protected.
import CSubset.Compile
import CSubset.Proofs.Check.Composition
import CSubset.Proofs.Reports.Expr
import CSubset.Proofs.Typing.Annotations
import CSubset.Proofs.Typing.Exactness

/-!
# Assigning to constants

Whether a declaration is constant does not show in the type of an expression, so a constant is
protected by the form of what is assigned to: a name has to stand for storage that can be written.
The form of an element says nothing about the array. In a unit without diagnostics every expression
has a type where it is checked (`WellTyped`), which decides what its assignments can be to; and what
the checker makes of an expression stays the same if arrays are no longer constant
(`Expr.check_unguarded`).
-/

namespace CSubset

open Typing

/-! ## Expressions of a clean unit -/

/-- The nodes of an expression, where the same names are known. -/
def Occurrence.nodes (o : Occurrence) : List Occurrence := o.node.nodes.map (Occurrence.mk o.names)

/-- If some findings have no diagnostics, then they are about expressions that have a type where
they are checked. -/
def WellTyped (f : Findings) (es : List Expr) : Prop :=
  f.diagnostics = [] → ∃ os : List Occurrence, os.map Occurrence.node = es ∧
    Annotates f (os.flatMap Occurrence.nodes) ∧ ∀ o ∈ os, ∃ t, HasType o.names o.node t

theorem wellTyped_composes : Composes WellTyped where
  append := by
    intro f g ds es hf hg h
    rw [Findings.diagnostics_append, List.append_eq_nil_iff] at h
    obtain ⟨os, hds, hos, htyped⟩ := hf h.1
    obtain ⟨ps, hes, hps, htyped'⟩ := hg h.2
    refine ⟨os ++ ps, ?_, ?_, List.forall_mem_append.mpr ⟨htyped, htyped'⟩⟩
    · rw [List.map_append, hds, hes]
    · rw [List.flatMap_append]
      exact hos.append hps
  bare := by
    intro f htypes hsymbols h
    exact ⟨[], rfl, ⟨htypes, hsymbols, congrArg undefinedAmong h⟩, List.forall_mem_nil _⟩
  expr := by
    intro t scope e h
    refine ⟨[⟨t.lookup scope, e⟩], rfl, ?_, List.forall_mem_singleton.mpr ⟨_, hasType_of_check e h⟩⟩
    rw [List.flatMap_singleton]
    exact e.check_annotates _

theorem nodes_flatMap (os : List Occurrence) :
    (os.flatMap Occurrence.nodes).map Occurrence.node =
      (os.map Occurrence.node).flatMap Expr.nodes := by
  rw [List.map_flatMap, List.flatMap_map]
  exact congrArg (List.flatMap · os) (funext fun o => List.map_map.trans (List.map_id _))

/-- A node of expressions about which nothing is reported has a type, where its identifiers stand
for what is recorded of them. -/
theorem WellTyped.typed_node {f : Findings} {es : List Expr} (h : WellTyped f es)
    (hclean : f.diagnostics = []) (hnd : ((es.flatMap Expr.nodes).map Expr.id).Nodup) {e : Expr}
    (he : e ∈ es.flatMap Expr.nodes) :
    ∃ names t, HasType names e t ∧
      ∀ a name, .ident a name ∈ e.nodes → f.symbols.lookup a.id = names name := by
  obtain ⟨os, rfl, hannotates, htyped⟩ := h hclean
  rw [← nodes_flatMap, List.map_map] at hnd
  obtain ⟨root, hroot, he⟩ := List.mem_flatMap.mp he
  obtain ⟨o, ho, rfl⟩ := List.mem_map.mp hroot
  obtain ⟨_, htypedRoot⟩ := htyped o ho
  obtain ⟨t, ht⟩ := htypedRoot.nodes e he
  refine ⟨o.names, t, ht, fun a name hident => ?_⟩
  have hmem : ⟨o.names, .ident a name⟩ ∈ os.flatMap Occurrence.nodes :=
    List.mem_flatMap.mpr ⟨o, ho, List.mem_map_of_mem ((o.node.nodes_sublist e he).subset hident)⟩
  exact (hannotates.lookup_ident hnd hmem rfl).1

/-! ## What an expression names -/

/-- The name that an expression is, or whose element, or element of an element, it is. -/
def Expr.base? : Expr → Option (Anchor × String)
  | .ident a name => some (a, name)
  | .index _ base _ => base.base?
  | _ => none

/-- Variables and parameters that are declared constant and are no pointers. -/
def Symbol.isConstant : Symbol → Bool
  | .function _ _ => false
  | s => s.declaredType.isConst && s.declaredType.pointers = 0

/-- An expression names storage of a constant: it is a name that stands for one, or an element of
such a name with any number of subscripts. -/
def Report.NamesConstant (r : Report) (e : Expr) (s : Symbol) : Prop :=
  ∃ a name, e.base? = some (a, name) ∧ r.symbolOf? a.id = some s ∧ s.isConstant = true

theorem Expr.base?_mem_nodes {a : Anchor} {name : String} : ∀ {e : Expr},
    e.base? = some (a, name) → .ident a name ∈ e.nodes
  | .ident _ _, h => by
    cases h
    exact List.mem_singleton_self _
  | .index _ _ _, h => List.mem_append_left _ (List.mem_append_left _ (base?_mem_nodes h))

/-- What can be written is no constant. -/
theorem isConstant_of_writable {s : Symbol} (h : Writable s) : s.isConstant = false := by
  cases h with
  | var h | parameter h =>
    obtain ⟨-, hconst⟩ := h
    exact Bool.and_eq_false_imp.mpr fun hc => decide_eq_false (hconst hc)

/-- Only arrays among the constants have elements. -/
theorem dimensions_ne_nil {s : Symbol} {t u : ValueType} (hs : SymbolType s t) (h : Pointee t u)
    (hconst : s.isConstant = true) : s.declaredType.dimensions ≠ [] := by
  have hbase (d : DeclaredType) (hp : d.pointers = 0) (hd : d.dimensions = []) :
      (ValueType.ofDeclared d).pointee? = none := by
    rw [ValueType.ofDeclared, hp, hd]
    cases d.base <;> rfl
  intro hd
  rw [pointee_iff] at h
  cases hs with
  | function => cases hconst
  | var | parameter =>
    have hp := of_decide_eq_true (Bool.and_eq_true_iff.mp hconst).2
    cases (hbase _ hp hd).symm.trans h

/-- In what has elements, the innermost name is that of something that has elements. -/
theorem base_of_pointee {names : Names} {a : Anchor} {name : String} :
    ∀ {e : Expr} {t u : ValueType}, e.base? = some (a, name) → HasType names e t → Pointee t u →
      ∃ s t' u', names name = some s ∧ SymbolType s t' ∧ Pointee t' u'
  | .ident _ _, _, _, hbase, htype, h => by
    cases hbase
    cases htype with
    | ident hs ht => exact ⟨_, _, _, hs, ht, h⟩
  | .index _ base _, _, _, hbase, htype, _ => by
    have hbase : base.base? = some (a, name) := hbase
    cases htype with
    | index hb _ _ helement => exact base_of_pointee hbase hb helement

/-- A typed expression that can be assigned to is a name that can be written, a dereference or an
element. -/
theorem storage_cases {names : Names} {e : Expr} (h : Typing.Storage names e) :
    (∃ a name s, e = .ident a name ∧ names name = some s ∧ Writable s) ∨
      (∃ a operand, e = .unary a .dereference operand) ∨
        ∃ a base subscript, e = .index a base subscript := by
  cases h with
  | ident hs hw => exact .inl ⟨_, _, _, rfl, hs, hw⟩
  | dereference => exact .inr (.inl ⟨_, _, rfl⟩)
  | index => exact .inr (.inr ⟨_, _, _, rfl⟩)

theorem Typing.HasType.assigned {names : Names} {a : Anchor} {op : AssignOp} {target value : Expr}
    {t : ValueType} (h : HasType names (.assign a op target value) t) :
    Typing.Storage names target ∧ HasType names target t := by
  cases h with
  | assign hs ht | compound hs ht => exact ⟨hs, ht⟩

/-- Of a constant only elements can be assigned to, and only if it is an array. -/
theorem element_of_storage {names : Names} {e : Expr} {t : ValueType} {a : Anchor} {name : String}
    {s : Symbol} (hstorage : Typing.Storage names e) (htype : HasType names e t)
    (hbase : e.base? = some (a, name)) (hs : names name = some s) (hconst : s.isConstant = true) :
    (∃ b base subscript, e = .index b base subscript) ∧ s.declaredType.dimensions ≠ [] := by
  cases hstorage with
  | ident hs' hw =>
    cases hbase
    obtain rfl : _ = s := Option.some.inj (hs'.symm.trans hs)
    rw [isConstant_of_writable hw] at hconst
    cases hconst
  | dereference => cases hbase
  | @index _ base _ =>
    have hbase : base.base? = some (a, name) := hbase
    cases htype with
    | index hb _ _ helement =>
      obtain ⟨s', t', u', hs', ht', hu'⟩ := base_of_pointee hbase hb helement
      obtain rfl : s' = s := Option.some.inj (hs'.symm.trans hs)
      exact ⟨⟨_, _, _, rfl⟩, dimensions_ne_nil ht' hu' hconst⟩

/-! ## Constant arrays -/

/-- The type with arrays no longer constant. -/
def DeclaredType.unguarded (t : DeclaredType) : DeclaredType :=
  if t.dimensions = [] then t else { t with isConst := false }

/-- The symbol with arrays no longer constant. -/
def Symbol.unguarded : Symbol → Symbol
  | .function p defined => .function p defined
  | .var name t forward l => .var name t.unguarded forward l
  | .parameter p => .parameter { p with type := p.type.unguarded }

/-- What names stand for if arrays are no longer constant. -/
def Names.unguarded (names : Names) : Names := fun name => (names name).map Symbol.unguarded

theorem DeclaredType.ofDeclared_unguarded (t : DeclaredType) :
    ValueType.ofDeclared t.unguarded = .ofDeclared t := by
  unfold unguarded
  split <;> rfl

theorem Symbol.valueType_unguarded (s : Symbol) : s.unguarded.valueType = s.valueType := by
  cases s with
  | function => rfl
  | var | parameter => exact DeclaredType.ofDeclared_unguarded _

theorem Rule.writable_unguarded (s : Symbol) : writable s.unguarded = writable s := by
  have htype (t : DeclaredType) :
      (decide (t.unguarded.dimensions = []) &&
        !(t.unguarded.isConst && decide (t.unguarded.pointers = 0))) =
      (decide (t.dimensions = []) && !(t.isConst && decide (t.pointers = 0))) := by
    unfold DeclaredType.unguarded
    split
    · rfl
    · next h => simp [h]
  cases s with
  | function => rfl
  | var | parameter => exact htype _

theorem Rule.denotesStorage_unguarded (names : Names) (e : Expr) :
    denotesStorage names.unguarded e = denotesStorage names e := by
  cases e with
  | ident a name =>
    simp only [denotesStorage, Names.unguarded, Option.all_map]
    congr 1
    funext s
    exact writable_unguarded s
  | unary a op operand => cases op <;> rfl
  | literal | binary | assign | call | index => rfl

theorem Rule.callee_unguarded (names : Names) (e : Expr) (t : ValueType) :
    callee names.unguarded e t = callee names e t := by
  cases e with
  | ident a name =>
    simp only [callee, Names.unguarded]
    rcases names name with _ | ⟨_ | _ | _⟩ <;> rfl
  | literal | unary | binary | assign | call | index => rfl

/-- Whether arrays are constant makes no difference to the type of an expression, and none to what
is reported in it. -/
theorem Expr.check_unguarded (names : Names) (e : Expr) :
    (e.check names.unguarded).type = (e.check names).type ∧
      e.reports names.unguarded = e.reports names := by
  induction e using children_induction with
  | step e ih =>
    have hpart {c : Expr} (hc : c ∈ e.children) : c.part names.unguarded = c.part names :=
      Prod.ext (ih c hc).1 rfl
    cases e with
    | literal => exact ⟨rfl, rfl⟩
    | ident a name =>
      unfold reports
      simp only [check, Names.unguarded]
      cases names name with
      | none => exact ⟨rfl, rfl⟩
      | some s => exact ⟨s.valueType_unguarded, rfl⟩
    | unary a op operand =>
      obtain ⟨ht, hr⟩ := ih operand (List.mem_singleton_self _)
      unfold reports at hr ⊢
      simp only [check, Findings.conclude_type, Findings.conclude_diagnostics, ht, hr, and_self]
    | binary a op left right =>
      obtain ⟨hl, hl'⟩ := ih left List.mem_cons_self
      obtain ⟨hr, hr'⟩ := ih right (List.mem_cons_of_mem _ (List.mem_singleton_self _))
      unfold reports at hl' hr' ⊢
      simp only [check, Findings.conclude_type, Findings.conclude_diagnostics,
        Findings.diagnostics_append, hl, hl', hr, hr', and_self]
    | assign a op target value =>
      obtain ⟨ht, ht'⟩ := ih target List.mem_cons_self
      obtain ⟨hv, hv'⟩ := ih value (List.mem_cons_of_mem _ (List.mem_singleton_self _))
      unfold reports at ht' hv' ⊢
      simp only [check, Findings.conclude_type, Findings.conclude_diagnostics,
        Findings.diagnostics_append, ht, ht', hv, hv', Rule.assign, Rule.denotesStorage_unguarded,
        and_self]
    | index a base subscript =>
      obtain ⟨hb, hb'⟩ := ih base List.mem_cons_self
      obtain ⟨hs, hs'⟩ := ih subscript (List.mem_cons_of_mem _ (List.mem_singleton_self _))
      unfold reports at hb' hs' ⊢
      simp only [check, Findings.conclude_type, Findings.conclude_diagnostics,
        Findings.diagnostics_append, hb, hb', hs, hs', and_self]
    | call a callee args =>
      obtain ⟨hc, hc'⟩ := ih callee List.mem_cons_self
      have hparts : args.map (part names.unguarded) = args.map (part names) :=
        List.map_congr_left fun c hc => hpart (List.mem_cons_of_mem _ hc)
      have hreports : args.flatMap (reports names.unguarded) = args.flatMap (reports names) :=
        List.flatMap_congr fun c hc => (ih c (List.mem_cons_of_mem _ hc)).2
      unfold reports at hc' ⊢
      simp only [check_call, Findings.conclude_type, Findings.conclude_diagnostics,
        Findings.diagnostics_append, checkAll_parts, checkAll_reports, hc, hc', hparts, hreports,
        Rule.callee_unguarded, and_self]

/-! ## Assignments of a clean unit -/

/-- An expression can be assigned to by what a report records: it is a name that stands for storage
which can be written, a dereference or an element. -/
def Report.Assignable (r : Report) (e : Expr) : Prop :=
  (∃ a name s, e = .ident a name ∧ r.symbolOf? a.id = some s ∧ Writable s) ∨
    (∃ a operand, e = .unary a .dereference operand) ∨
      ∃ a base subscript, e = .index a base subscript

/-- In a unit without diagnostics only writable names, dereferences and elements are assigned to. If
what is assigned to is storage of a constant, then it is an element of an array: no name of a
constant is assigned to, nor what a constant of any other type leads to. Elements of constant arrays
are not protected: what the checker makes of an expression is the same if arrays are no longer
constant. -/
theorem check_guards_constants {source : String} {c : Compilation} (h : compile source = .ok c)
    (returnTypes : Bool) :
    let r := c.unit.check returnTypes
    let nodes := ((Node.unit c.unit).walk fun _ => true).filterMap Node.expr?
    (r.isClean = true → ∀ a op target value, .assign a op target value ∈ nodes →
      r.Assignable target ∧ ∀ s, r.NamesConstant target s →
        (∃ b base subscript, target = .index b base subscript) ∧ s.declaredType.dimensions ≠ []) ∧
      ∀ (names : Names) (e : Expr), (e.check names.unguarded).type = (e.check names).type ∧
        e.reports names.unguarded = e.reports names := by
  intro r nodes
  refine ⟨fun hclean a op target value hmem => ?_, fun names e => e.check_unguarded names⟩
  have htyped : WellTyped r.findings c.unit.exprs :=
    c.unit.check_composed wellTyped_composes returnTypes
  obtain ⟨names, t, ht, hnames⟩ := htyped.typed_node (List.isEmpty_iff.mp hclean)
    (nodes_ids_nodup (ofTokens?_of_compile h)) ((Walk.found_unit_perm c.unit).mem_iff.mp hmem)
  obtain ⟨hstorage, htarget⟩ := ht.assigned
  have hpart {d : Expr} (hd : d ∈ target.nodes) : d ∈ (Expr.assign a op target value).nodes :=
    List.mem_append_left _ (List.mem_append_left _ hd)
  constructor
  · rcases storage_cases hstorage with ⟨b, name, s, rfl, hs, hw⟩ | hother
    · have hsymbol := hnames b name (hpart (List.mem_singleton_self _))
      exact .inl ⟨b, name, s, rfl, hsymbol.trans hs, hw⟩
    · exact .inr hother
  · rintro s ⟨b, name, hbase, hs, hconst⟩
    have hsymbol := hnames b name (hpart (Expr.base?_mem_nodes hbase))
    exact element_of_storage hstorage htarget hbase (hsymbol.symm.trans hs) hconst

/-- The text `int main() { const int a[1]; a[0] = 1; return 0; }`. -/
def constantElementText : String := "int main() { const int a[1]; a[0] = 1; return 0; }"

/-- The element in it that is assigned to. -/
def constantElement : Expr :=
  .index ⟨2, ⟨1, 31⟩⟩ (.ident ⟨0, ⟨1, 30⟩⟩ "a") (.literal ⟨1, ⟨1, 32⟩⟩ (.int 0))

/-- The assignment in it. -/
def constantElementAssigned : Expr :=
  .assign ⟨4, ⟨1, 35⟩⟩ .plain constantElement (.literal ⟨3, ⟨1, 37⟩⟩ (.int 1))

/-- The unit that it is read as. -/
def constantElementUnit : CompilationUnit :=
  ⟨[.definition ⟨⟨.int, false, 0, []⟩, "main", [], false, .none, ⟨1, 5⟩⟩
    (.mk [.var ⟨⟨.int, true, 0, [1]⟩, "a", none, .none, ⟨1, 24⟩⟩]
      [.expr constantElementAssigned ⟨1, 30⟩,
        .returnStmt (some (.literal ⟨5, ⟨1, 47⟩⟩ (.int 0))) ⟨1, 40⟩] ⟨1, 12⟩)]⟩

theorem compile_constantElementText :
    compile constantElementText = .ok ⟨constantElementUnit, []⟩ := by
  have hscan : scan constantElementText =
      ⟨[.ofWord .intKw ⟨1, 1⟩, ⟨.identifier "main", ⟨1, 5⟩⟩, .ofMark .leftParen ⟨1, 9⟩,
        .ofMark .rightParen ⟨1, 10⟩, .ofMark .leftBrace ⟨1, 12⟩, .ofWord .constKw ⟨1, 14⟩,
        .ofWord .intKw ⟨1, 20⟩, ⟨.identifier "a", ⟨1, 24⟩⟩, .ofMark .leftBracket ⟨1, 25⟩,
        ⟨.intLiteral 1, ⟨1, 26⟩⟩, .ofMark .rightBracket ⟨1, 27⟩, .ofMark .semicolon ⟨1, 28⟩,
        ⟨.identifier "a", ⟨1, 30⟩⟩, .ofMark .leftBracket ⟨1, 31⟩, ⟨.intLiteral 0, ⟨1, 32⟩⟩,
        .ofMark .rightBracket ⟨1, 33⟩, .ofMark .assign ⟨1, 35⟩, ⟨.intLiteral 1, ⟨1, 37⟩⟩,
        .ofMark .semicolon ⟨1, 38⟩, .ofWord .returnKw ⟨1, 40⟩, ⟨.intLiteral 0, ⟨1, 47⟩⟩,
        .ofMark .semicolon ⟨1, 48⟩, .ofMark .rightBrace ⟨1, 50⟩], []⟩ := by decide +kernel
  rw [compile, hscan]
  cbv

theorem constantElementAssigned_mem :
    constantElementAssigned ∈
      ((Node.unit constantElementUnit).walk fun _ => true).filterMap Node.expr? :=
  (Walk.found_unit_perm constantElementUnit).mem_iff.mpr
    (.tail _ (.tail _ (.tail _ (.tail _ (.head _)))))

/-- An element is among what can be assigned to, also where the array is constant. -/
theorem check_guards_constants_element :
    compile constantElementText = .ok ⟨constantElementUnit, []⟩ ∧
      (constantElementUnit.check true).isClean = true ∧
      constantElementAssigned ∈
        ((Node.unit constantElementUnit).walk fun _ => true).filterMap Node.expr? ∧
      (constantElementUnit.check true).Assignable constantElement := by
  have hclean : (constantElementUnit.check true).isClean = true := by decide +kernel
  obtain ⟨hassigned, -⟩ := check_guards_constants compile_constantElementText true
  exact ⟨compile_constantElementText, hclean, constantElementAssigned_mem,
    (hassigned hclean _ _ _ _ constantElementAssigned_mem).1⟩

/-- In a unit without diagnostics storage of a constant is assigned to. -/
theorem clean_unit_assigns_to_constant :
    compile constantElementText = .ok ⟨constantElementUnit, []⟩ ∧
      (constantElementUnit.check true).isClean = true ∧
      constantElementAssigned ∈
        ((Node.unit constantElementUnit).walk fun _ => true).filterMap Node.expr? ∧
      (constantElementUnit.check true).NamesConstant constantElement
        (.var "a" ⟨.int, true, 0, [1]⟩ false ⟨1, 24⟩) :=
  ⟨compile_constantElementText, by decide +kernel, constantElementAssigned_mem,
    ⟨0, ⟨1, 30⟩⟩, "a", rfl, by decide +kernel, rfl⟩

end CSubset
