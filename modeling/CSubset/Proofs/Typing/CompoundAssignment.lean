-- SUMMARY: A compound assignment is checked like the assignment that it abbreviates.
import CSubset.Proofs.Relabeling.Check
import CSubset.Proofs.Typing.Annotations
import CSubset.Proofs.Typing.Exactness

/-!
# Compound assignments

`a += b` abbreviates `a = a + b`, in which `a` stands a second time as a copy with labels of its
own. The checker has a rule for either form: one applies the operator and stores the result, the
other stores what the rule for the operator has left, which is `invalid` if the operator was
reported. Both rules are content with the same operands (`Rule.assign_compound_clean`), and about
a target that is storage each form makes one report at most.
-/

namespace CSubset

/-! ## Copies -/

namespace Expr

variable {names : Names} {copy e : Expr}

theorem check_copy (names : Names) (h : copy.relabel .bare = e.relabel .bare) :
    (copy.check names).relabel .bare = (e.check names).relabel .bare := by
  rw [← check_relabel, ← check_relabel, h]

/-- A copy has the type of the original. -/
theorem type_of_copy (h : copy.relabel .bare = e.relabel .bare) :
    (copy.check names).type = (e.check names).type := by
  have hrelabeled := congrArg Typed.type (check_copy names h)
  exact hrelabeled

/-- Something is wrong with a copy exactly if something is with the original. -/
theorem clean_of_copy (h : copy.relabel .bare = e.relabel .bare) :
    (copy.check names).findings.diagnostics = [] ↔ (e.check names).findings.diagnostics = [] := by
  have hmap := congrArg (fun x : Typed => x.findings.diagnostics) (check_copy names h)
  simp only [Typed.relabel, Findings.diagnostics_relabel] at hmap
  rw [← List.map_eq_nil_iff (f := Diagnostic.relabel .bare), hmap, List.map_eq_nil_iff]

end Expr

/-! ## The two rules -/

namespace Rule

variable {names : Names} {e : Expr} {op : ArithOp} {target value : ValueType} {l : Location}

theorem assign_of_not_storage (h : denotesStorage names e = false) (op : AssignOp) :
    assign names op e target value l = (.invalid, [.notAssignable e.text e.location]) := by
  simp [assign, h]

theorem assign_plain (h : denotesStorage names e = true) :
    assign names .plain e target value l = store value target l := by
  simp [assign, h]

theorem assign_compound_some (h : denotesStorage names e = true) {stored : ValueType}
    (hr : (BinaryOp.arith op).result? target value = some stored) :
    assign names (.compound op) e target value l = store stored target l := by
  simp [assign, h, hr]

theorem assign_compound_none (h : denotesStorage names e = true)
    (hr : (BinaryOp.arith op).result? target value = none) :
    assign names (.compound op) e target value l =
      (.invalid, [(Mismatch.operands (AssignOp.compound op).symbol target value).report l]) := by
  simp [assign, h, hr]

/-- What a reported operator has left can be stored everywhere. -/
theorem store_invalid (target : ValueType) (l : Location) :
    store .invalid target l = (target, []) := by
  simp [store, ValueType.assignableTo]

/-- A store finds fault with the types alone, wherever the value stands. -/
theorem store_clean_iff (stored target : ValueType) (k l : Location) :
    (store stored target k).2 = [] ↔ (store stored target l).2 = [] := by
  unfold store
  cases stored.assignableTo target <;> simp

/-- A store makes one report at most, a mismatch. -/
theorem store_single {stored : ValueType} (h : (store stored target l).2 ≠ []) :
    ∃ m : Mismatch, (store stored target l).2 = [m.report l] := by
  unfold store at h ⊢
  split
  · next hfits => simp [hfits] at h
  · exact ⟨_, rfl⟩

/-- Both forms are content with the same operands, and then the assignment has the same type. -/
theorem assign_compound_clean (names : Names) (e : Expr) (op : ArithOp)
    (target value : ValueType) (k l : Location) :
    let operated := binary (.arith op) target value k
    ((assign names (.compound op) e target value l).2 = [] ↔
        operated.2 = [] ∧ (assign names .plain e target operated.1 k).2 = []) ∧
      ((assign names (.compound op) e target value l).2 = [] →
        (assign names (.compound op) e target value l).1 =
          (assign names .plain e target operated.1 k).1) := by
  intro operated
  cases hs : denotesStorage names e with
  | false => simp [assign_of_not_storage hs]
  | true =>
    rw [assign_plain hs]
    cases hr : (BinaryOp.arith op).result? target value with
    | some stored =>
      have hoperated : operated = (stored, []) := by simp [operated, binary, operator, hr]
      rw [assign_compound_some hs hr, hoperated]
      refine ⟨?_, fun _ => rfl⟩
      simpa using store_clean_iff stored target l k
    | none =>
      have hoperated : operated.2 ≠ [] := by simp [operated, binary, operator, hr]
      simp [assign_compound_none hs hr, hoperated]

/-- About a target that is storage each form makes one report at most, a mismatch. -/
theorem assign_compound_single (h : denotesStorage names e = true) (k : Location)
    (hwrong : (assign names (.compound op) e target value l).2 ≠ []) :
    (∃ m : Mismatch, (assign names (.compound op) e target value l).2 = [m.report l]) ∧
      ∃ m : Mismatch,
        let operated := binary (.arith op) target value k
        operated.2 ++ (assign names .plain e target operated.1 k).2 = [m.report k] := by
  cases hr : (BinaryOp.arith op).result? target value with
  | none =>
    refine ⟨⟨_, by rw [assign_compound_none h hr]⟩, ?_⟩
    refine ⟨.operands (BinaryOp.arith op).symbol target value, ?_⟩
    simp [binary, operator, hr, assign_plain h, store_invalid]
  | some stored =>
    rw [assign_compound_some h hr] at hwrong ⊢
    refine ⟨store_single hwrong, ?_⟩
    simp only [binary, operator, hr, assign_plain h, List.nil_append]
    exact store_single fun hclean => hwrong ((store_clean_iff _ _ _ _).mp hclean)

end Rule

/-! ## The two forms -/

namespace Expr

variable {names : Names} {a b : Anchor} {op : ArithOp} {target copy value : Expr}

/-- The assignment `target = copy op value`, with the anchors of the assignment and of the
operator. -/
def assignResult (a b : Anchor) (op : ArithOp) (target copy value : Expr) : Expr :=
  .assign a .plain target (.binary b (.arith op) copy value)

theorem compound_diagnostics :
    ((assign a (.compound op) target value).check names).findings.diagnostics =
      (target.check names).findings.diagnostics ++ (value.check names).findings.diagnostics ++
        (Rule.assign names (.compound op) target (target.check names).type
          (value.check names).type value.location).2 := by
  simp only [check, Findings.conclude_diagnostics, Findings.diagnostics_append]

theorem assignResult_diagnostics (h : copy.relabel .bare = target.relabel .bare) :
    let operated := Rule.binary (.arith op) (target.check names).type (value.check names).type
      b.location
    ((assignResult a b op target copy value).check names).findings.diagnostics =
      (target.check names).findings.diagnostics ++
        ((copy.check names).findings.diagnostics ++ (value.check names).findings.diagnostics) ++
          (operated.2 ++ (Rule.assign names .plain target (target.check names).type operated.1
            b.location).2) := by
  simp only [assignResult, check, Findings.conclude_diagnostics, Findings.diagnostics_append,
    Findings.conclude_type, type_of_copy h, List.append_assoc]
  rfl

/-- Nothing is wrong with the one form exactly if nothing is with the other. -/
theorem compound_clean_iff (h : copy.relabel .bare = target.relabel .bare) :
    ((assign a (.compound op) target value).check names).findings.diagnostics = [] ↔
      ((assignResult a b op target copy value).check names).findings.diagnostics = [] := by
  have hrule := (Rule.assign_compound_clean names target op (target.check names).type
    (value.check names).type b.location value.location).1
  rw [compound_diagnostics, assignResult_diagnostics h]
  simp only [List.append_eq_nil_iff, clean_of_copy h, hrule]
  tauto

theorem compound_type (h : copy.relabel .bare = target.relabel .bare)
    (hclean : ((assign a (.compound op) target value).check names).findings.diagnostics = []) :
    ((assign a (.compound op) target value).check names).type =
      ((assignResult a b op target copy value).check names).type := by
  rw [compound_diagnostics, List.append_eq_nil_iff] at hclean
  have hrule := (Rule.assign_compound_clean names target op (target.check names).type
    (value.check names).type b.location value.location).2 hclean.2
  simp only [assignResult, check, Findings.conclude_type, type_of_copy h]
  exact hrule

/-- Where only the assignment itself can be wrong, each form is reported once, for a mismatch. -/
theorem compound_single (h : copy.relabel .bare = target.relabel .bare)
    (ht : (target.check names).findings.diagnostics = [])
    (hv : (value.check names).findings.diagnostics = []) (hs : Typing.Storage names target)
    (hwrong : ((assign a (.compound op) target value).check names).findings.diagnostics ≠ []) :
    (∃ m : Mismatch, ((assign a (.compound op) target value).check names).findings.diagnostics =
        [m.report value.location]) ∧
      ∃ m : Mismatch, ((assignResult a b op target copy value).check names).findings.diagnostics =
        [m.report b.location] := by
  have hstorage := (Typing.storage_iff (Typing.hasType_of_check target ht).bound).mp hs
  rw [compound_diagnostics, ht, hv] at hwrong
  rw [compound_diagnostics, assignResult_diagnostics h, (clean_of_copy h).mpr ht, ht, hv]
  exact Rule.assign_compound_single hstorage b.location hwrong

/-! ## Recorded types -/

/-- In an expression whose nodes have different numbers, every node is found with the type that
checking it alone gives. -/
theorem lookup_check_types {e d : Expr} (h : (e.nodes.map Expr.id).Nodup) (hd : d ∈ e.nodes) :
    (e.check names).findings.types.lookup d.id = some (d.check names).type := by
  apply (e.check_annotates names).lookup_types (o := ⟨names, d⟩) _ (List.mem_map_of_mem hd)
  rwa [List.map_map]

/-- The nodes of the short form have the numbers of nodes of the long form. -/
theorem compound_ids_sublist (a b : Anchor) (op : ArithOp) (target copy value : Expr) :
    ((assign a (.compound op) target value).nodes.map Expr.id).Sublist
      ((assignResult a b op target copy value).nodes.map Expr.id) := by
  have hvalue : (value.nodes.map Expr.id).Sublist
      ((copy.nodes ++ value.nodes ++ [binary b (.arith op) copy value]).map Expr.id) :=
    ((List.sublist_append_right _ _).trans (List.sublist_append_left _ _)).map _
  simp only [assignResult, nodes, List.map_append] at hvalue ⊢
  exact ((List.Sublist.refl _).append hvalue).append (List.Sublist.refl [a.id])

/-- If nothing is wrong, all nodes of the short form are found with the same types in both. -/
theorem compound_lookup (h : copy.relabel .bare = target.relabel .bare)
    (hfresh : ((assignResult a b op target copy value).nodes.map Expr.id).Nodup)
    (hclean : ((assign a (.compound op) target value).check names).findings.diagnostics = [])
    {d : Expr} (hd : d ∈ (assign a (.compound op) target value).nodes) :
    ∃ t, ((assign a (.compound op) target value).check names).findings.types.lookup d.id = some t ∧
      ((assignResult a b op target copy value).check names).findings.types.lookup d.id =
        some t := by
  have hshort := hfresh.sublist (compound_ids_sublist a b op target copy value)
  refine ⟨_, lookup_check_types hshort hd, ?_⟩
  rw [nodes, List.mem_append, List.mem_singleton] at hd
  rcases hd with hpart | rfl
  · apply lookup_check_types hfresh
    simp only [assignResult, nodes, List.mem_append] at hpart ⊢
    tauto
  · rw [compound_type h hclean]
    exact lookup_check_types hfresh (self_mem_nodes _)

end Expr

/-- Nothing is wrong with `target op= value` exactly if nothing is with `target = copy op value`;
then both assignments have one type, and if the copy of the target has numbers of its own, all
nodes of the first are found with the same types in both. If nothing is wrong with the operands
and the target is storage, what is wrong is in either form one mismatch. -/
theorem check_compound_abbreviates (names : Names) (a b : Anchor) (op : ArithOp) (value : Expr)
    {target copy : Expr} (hcopy : copy.relabel .bare = target.relabel .bare) :
    let short := (Expr.assign a (.compound op) target value).check names
    let long := (Expr.assignResult a b op target copy value).check names
    (short.findings.diagnostics = [] ↔ long.findings.diagnostics = []) ∧
      (short.findings.diagnostics = [] → short.type = long.type ∧
        (((Expr.assignResult a b op target copy value).nodes.map Expr.id).Nodup →
          ∀ d ∈ (Expr.assign a (.compound op) target value).nodes, ∃ t,
            short.findings.types.lookup d.id = some t ∧
              long.findings.types.lookup d.id = some t)) ∧
      ((target.check names).findings.diagnostics = [] →
        (value.check names).findings.diagnostics = [] → Typing.Storage names target →
          short.findings.diagnostics ≠ [] →
            (∃ message l, short.findings.diagnostics = [.typeMismatch message l]) ∧
              ∃ message l, long.findings.diagnostics = [.typeMismatch message l]) := by
  intro short long
  refine ⟨Expr.compound_clean_iff hcopy, fun hclean => ?_, fun ht hv hs hwrong => ?_⟩
  · exact ⟨Expr.compound_type hcopy hclean, fun hfresh d hd =>
      Expr.compound_lookup hcopy hfresh hclean hd⟩
  · obtain ⟨⟨m, hm⟩, n, hn⟩ := Expr.compound_single (b := b) hcopy ht hv hs hwrong
    exact ⟨⟨m.message, value.location, hm⟩, n.message, b.location, hn⟩

/-- The names in a block that declares `char *p;`. -/
def pointerNames : Names := fun name =>
  if name = "p" then some (.var "p" ⟨.char, false, 1, []⟩ false ⟨1, 7⟩) else none

/-- The name `p`, as the node with a given number. -/
def pointerExpr (id : Nat) : Expr := .ident ⟨id, ⟨1, 10⟩⟩ "p"

/-- The assignment `p = p op "s"`. -/
def pointerAssign (op : ArithOp) : Expr :=
  .assignResult ⟨4, ⟨1, 12⟩⟩ ⟨3, ⟨1, 16⟩⟩ op (pointerExpr 0) (pointerExpr 1)
    (.literal ⟨2, ⟨1, 18⟩⟩ (.string "s"))

/-- Texts can be joined with `+=` but not subtracted with `-=`. -/
theorem check_compound_abbreviates_text :
    (pointerExpr 1).relabel .bare = (pointerExpr 0).relabel .bare ∧
      (∀ op, ((pointerAssign op).nodes.map Expr.id).Nodup) ∧
      ((pointerAssign .add).check pointerNames).findings.diagnostics = [] ∧
      ((pointerAssign .add).check pointerNames).type = .pointer .char ∧
      ((pointerAssign .add).check pointerNames).findings.types.lookup 2 = some .string ∧
      ∃ message l,
        ((pointerAssign .sub).check pointerNames).findings.diagnostics =
          [.typeMismatch message l] := by
  have hcopy : (pointerExpr 1).relabel .bare = (pointerExpr 0).relabel .bare := rfl
  have hfresh (op : ArithOp) : ((pointerAssign op).nodes.map Expr.id).Nodup := by
    have hids : (pointerAssign op).nodes.map Expr.id = [0, 1, 2, 3, 4] := rfl
    rw [hids]
    decide
  have habbreviates (op : ArithOp) := check_compound_abbreviates pointerNames ⟨4, ⟨1, 12⟩⟩
    ⟨3, ⟨1, 16⟩⟩ op (.literal ⟨2, ⟨1, 18⟩⟩ (.string "s")) hcopy
  obtain ⟨hiff, htypes, -⟩ := habbreviates .add
  obtain ⟨-, -, hsingle⟩ := habbreviates .sub
  have hclean : ((Expr.assign ⟨4, ⟨1, 12⟩⟩ (.compound .add) (pointerExpr 0)
      (.literal ⟨2, ⟨1, 18⟩⟩ (.string "s"))).check pointerNames).findings.diagnostics = [] := by
    decide
  obtain ⟨htype, hlookup⟩ := htypes hclean
  refine ⟨hcopy, hfresh, hiff.mp hclean, htype.symm.trans (by decide), ?_, ?_⟩
  · obtain ⟨t, hshort, hlong⟩ := hlookup (hfresh .add) (.literal ⟨2, ⟨1, 18⟩⟩ (.string "s"))
      (by simp [Expr.nodes])
    exact hlong.trans (hshort.symm.trans (by decide))
  · have hstorage : Typing.Storage pointerNames (pointerExpr 0) :=
      .ident rfl (.var ⟨rfl, fun _ => Nat.one_ne_zero⟩)
    exact (hsingle (by decide) (by decide) hstorage (by decide)).2

end CSubset
