-- SUMMARY: The laws that the results of binary operators obey, whatever the types of the operands.
import CSubset.Proofs.Typing.CompoundAssignment
import CSubset.Proofs.Typing.Tables

/-!
# Laws of the operators

Which operands an operator accepts, what it makes of them, and what may be stored where stand in
tables of their own. That these agree is shown on the relations of the judgement, where each is a
matter of a few rules, and carried over to the tables; what remains are operands of the type
`invalid`, which every table accepts.
-/

namespace CSubset

namespace Typing

open ValueType

variable {s t u : ValueType}

/-! ## Operands in either order -/

theorem Promotes.symm : Promotes s t u → Promotes t s u
  | .floatLeft h => .floatRight h
  | .floatRight h => .floatLeft h
  | .whole hs ht => .whole ht hs

theorem Comparable.symm : Comparable s t → Comparable t s
  | .numeric hs ht => .numeric ht hs
  | .same hv hf => .same hv hf

theorem Equatable.symm : Equatable s t → Equatable t s
  | .comparable h => .comparable h.symm
  | .pointers hs ht h => .pointers ht hs h.symm

theorem BinaryResult.symm {op : BinaryOp} : BinaryResult op s t u → BinaryResult op t s u
  | .arith h => .arith h.symm
  | .concat hs ht => .concat ht hs
  | .order h => .order h.symm
  | .equal h => .equal h.symm
  | .notEqual h => .notEqual h.symm
  | .and hs ht => .and ht hs
  | .or hs ht => .or ht hs

/-! ## Results -/

/-- Operators yield numbers, truth values among them, and texts. -/
theorem BinaryResult.type_eq {op : BinaryOp} (h : BinaryResult op s t u) :
    u = .int ∨ u = .float ∨ u = .string := by
  cases h with
  | arith h =>
    cases h with
    | floatLeft | floatRight => exact .inr (.inl rfl)
    | whole => exact .inl rfl
  | concat => exact .inr (.inr rfl)
  | order | equal | notEqual | and | or => exact .inl rfl

theorem Promotes.numeric : Promotes s t u → Numeric s ∧ Numeric t ∧ Numeric u
  | .floatLeft h => ⟨.float, h, .float⟩
  | .floatRight h => ⟨h, .float, .float⟩
  | .whole hs ht => ⟨numeric_iff_integral_or_float.mpr (.inl hs),
      numeric_iff_integral_or_float.mpr (.inl ht), .int⟩

theorem Text.assignable_string : Text t → Assignable .string t
  | .string => .same
  | .pointer => .stringToText

/-- What arithmetic makes of two operands can be stored in the place of either. -/
theorem BinaryResult.assignable {op : ArithOp} (h : BinaryResult (.arith op) s t u) :
    Assignable u s ∧ Assignable u t := by
  cases h with
  | arith h =>
    obtain ⟨hs, ht, hu⟩ := h.numeric
    exact ⟨.numeric hu hs, .numeric hu ht⟩
  | concat hs ht => exact ⟨hs.assignable_string, ht.assignable_string⟩

/-! ## Operands -/

/-- Types of values that can be told apart. -/
def Distinguishable (t : ValueType) : Prop := t ≠ .void ∧ t ≠ .function

theorem Numeric.distinguishable (h : Numeric t) : Distinguishable t := by
  cases h <;> exact ⟨nofun, nofun⟩

theorem PointerLike.distinguishable (h : PointerLike t) : Distinguishable t := by
  cases h <;> exact ⟨nofun, nofun⟩

theorem Comparable.distinguishable (h : Comparable s t) :
    Distinguishable s ∧ Distinguishable t := by
  cases h with
  | numeric hs ht => exact ⟨hs.distinguishable, ht.distinguishable⟩
  | same hv hf => exact ⟨⟨hv, hf⟩, hv, hf⟩

theorem Comparable.assignable : Comparable s t → Assignable s t
  | .numeric hs ht => .numeric hs ht
  | .same _ _ => .same

/-- Of two different types that can be stored one in the place of the other, either both are numbers
or both are pointers or strings. -/
theorem Assignable.equatable (h : Assignable s t) (hs : Distinguishable s) : Equatable s t := by
  cases h with
  | same => exact .comparable (.same hs.1 hs.2)
  | numeric hs ht => exact .comparable (.numeric hs ht)
  | stringToText => exact .pointers .string .pointer (.inl .stringToText)
  | stringToVoid => exact .pointers .string .pointer (.inl .stringToVoid)
  | pointerToVoid => exact .pointers .pointer .pointer (.inl .pointerToVoid)
  | voidToPointer => exact .pointers .pointer .pointer (.inl .voidToPointer)

/-- Equality is for values of which one could be stored in the place of the other. -/
theorem equatable_iff_assignable :
    Equatable s t ↔
      (Distinguishable s ∧ Distinguishable t) ∧ (Assignable s t ∨ Assignable t s) := by
  constructor
  · intro h
    cases h with
    | comparable h => exact ⟨h.distinguishable, .inl h.assignable⟩
    | pointers hs ht h => exact ⟨⟨hs.distinguishable, ht.distinguishable⟩, h⟩
  · rintro ⟨⟨hs, ht⟩, h | h⟩
    · exact h.equatable hs
    · exact (h.equatable ht).symm

/-- Types other than `void` and functions have values that decide a condition. -/
theorem Distinguishable.truthValue (h : Distinguishable t) (ht : t ≠ .invalid) : TruthValue t := by
  cases t with
  | int => exact .numeric .int
  | float => exact .numeric .float
  | char => exact .numeric .char
  | string => exact .string
  | pointer target => exact .pointer
  | void => exact absurd rfl h.1
  | function => exact absurd rfl h.2
  | invalid => exact absurd rfl ht

/-! ## The tables -/

section Tables

variable {op : BinaryOp}

theorem result?_of_invalid (op : BinaryOp) (h : s = .invalid ∨ t = .invalid) :
    op.result? s t = some .invalid := if_pos h

theorem result?_comm (op : BinaryOp) (s t : ValueType) : op.result? s t = op.result? t s := by
  by_cases h : s = .invalid ∨ t = .invalid
  · rw [result?_of_invalid op h, result?_of_invalid op h.symm]
  · obtain ⟨hs, ht⟩ := not_or.mp h
    refine Option.ext fun u => ?_
    rw [← binaryResult_iff hs ht, ← binaryResult_iff ht hs]
    exact ⟨BinaryResult.symm, BinaryResult.symm⟩

theorem result?_eq_invalid_iff : op.result? s t = some .invalid ↔ s = .invalid ∨ t = .invalid := by
  refine ⟨fun hu => ?_, result?_of_invalid op⟩
  by_contra h
  obtain ⟨hs, ht⟩ := not_or.mp h
  exact proper_of_binaryResult ((binaryResult_iff hs ht).mpr hu)

theorem type_of_result? (hu : op.result? s t = some u) :
    u = .invalid ∨ u = .int ∨ u = .float ∨ u = .string := by
  by_cases h : s = .invalid ∨ t = .invalid
  · rw [result?_of_invalid op h] at hu
    exact .inl (Option.some.inj hu).symm
  · obtain ⟨hs, ht⟩ := not_or.mp h
    exact .inr ((binaryResult_iff hs ht).mpr hu).type_eq

theorem isSome_result?_iff (hs : s ≠ .invalid) (ht : t ≠ .invalid) :
    (op.result? s t).isSome ↔ ∃ u, BinaryResult op s t u := by
  rw [Option.isSome_iff_exists]
  exact exists_congr fun u => (binaryResult_iff hs ht).symm

/-- Both tests for equality accept the same operands. -/
theorem isSome_equality_iff (hop : op = .equal ∨ op = .notEqual) (hs : s ≠ .invalid)
    (ht : t ≠ .invalid) : (op.result? s t).isSome ↔ Equatable s t := by
  rw [isSome_result?_iff hs ht]
  rcases hop with rfl | rfl
  · exact ⟨fun ⟨_, .equal h⟩ => h, fun h => ⟨_, .equal h⟩⟩
  · exact ⟨fun ⟨_, .notEqual h⟩ => h, fun h => ⟨_, .notEqual h⟩⟩

/-- What can be ordered can be tested for equality. -/
theorem isSome_equality_of_order {order : OrderOp} (hop : op = .equal ∨ op = .notEqual)
    (h : ((BinaryOp.order order).result? s t).isSome) : (op.result? s t).isSome := by
  by_cases hinvalid : s = .invalid ∨ t = .invalid
  · rw [result?_of_invalid op hinvalid]
    rfl
  · obtain ⟨hs, ht⟩ := not_or.mp hinvalid
    obtain ⟨_, hresult⟩ := (isSome_result?_iff hs ht).mp h
    cases hresult with
    | order h => exact (isSome_equality_iff hop hs ht).mpr (.comparable h)

/-- What can be tested for equality can be connected. -/
theorem isSome_connective_of_equality {connective : BinaryOp}
    (hconnective : connective = .and ∨ connective = .or) (hop : op = .equal ∨ op = .notEqual)
    (h : (op.result? s t).isSome) : (connective.result? s t).isSome := by
  by_cases hinvalid : s = .invalid ∨ t = .invalid
  · rw [result?_of_invalid connective hinvalid]
    rfl
  · obtain ⟨hs, ht⟩ := not_or.mp hinvalid
    have hequatable := (isSome_equality_iff hop hs ht).mp h
    obtain ⟨⟨hs', ht'⟩, -⟩ := equatable_iff_assignable.mp hequatable
    rw [isSome_result?_iff hs ht]
    rcases hconnective with rfl | rfl
    · exact ⟨_, .and (hs'.truthValue hs) (ht'.truthValue ht)⟩
    · exact ⟨_, .or (hs'.truthValue hs) (ht'.truthValue ht)⟩

theorem assignableTo_of_result? {op : ArithOp} (hu : (BinaryOp.arith op).result? s t = some u) :
    u.assignableTo s = true ∧ u.assignableTo t = true := by
  by_cases h : s = .invalid ∨ t = .invalid
  · rw [result?_of_invalid _ h] at hu
    cases hu
    exact ⟨rfl, rfl⟩
  · obtain ⟨hs, ht⟩ := not_or.mp h
    have hresult := (binaryResult_iff hs ht).mpr hu
    have hu' := ne_invalid_of_proper (proper_of_binaryResult hresult)
    rw [← assignable_iff hu' hs, ← assignable_iff hu' ht]
    exact hresult.assignable

end Tables

end Typing

open Typing

/-- The laws of binary operators, for operands of any two types. Their order makes no difference.
The result, if there is one, is `invalid` exactly if an operand is, and else int, float or string;
so it can decide a condition. On operands of which none is `invalid`, equality is defined exactly
where neither is void or a function and one can be stored in the place of the other. Where an order
is defined so is equality, and where equality is defined so are the connectives. What arithmetic
makes of two operands can be stored in the place of either, so a compound assignment to storage
whose operator is defined has the type of its target and nothing wrong with it. -/
theorem BinaryOp.result?_laws (left right : ValueType) :
    (∀ op : BinaryOp, op.result? left right = op.result? right left) ∧
      (∀ op : BinaryOp,
        (op.result? left right = some .invalid ↔ left = .invalid ∨ right = .invalid) ∧
          ∀ t, op.result? left right = some t →
            (t = .invalid ∨ t = .int ∨ t = .float ∨ t = .string) ∧ t.isTruthValue = true ∧
              t.isPointer = false ∧ t ≠ .void ∧ t ≠ .function) ∧
      (left ≠ .invalid → right ≠ .invalid → ∀ op : BinaryOp, op = .equal ∨ op = .notEqual →
        ((op.result? left right).isSome ↔
          (left ≠ .void ∧ left ≠ .function) ∧ (right ≠ .void ∧ right ≠ .function) ∧
            (left.assignableTo right = true ∨ right.assignableTo left = true))) ∧
      (∀ op : BinaryOp, op = .equal ∨ op = .notEqual →
        (∀ order : OrderOp, ((BinaryOp.order order).result? left right).isSome →
            (op.result? left right).isSome) ∧
          ((op.result? left right).isSome →
            (BinaryOp.and.result? left right).isSome ∧
              (BinaryOp.or.result? left right).isSome)) ∧
      ∀ (op : ArithOp) (t : ValueType), (BinaryOp.arith op).result? left right = some t →
        t.assignableTo left = true ∧ t.assignableTo right = true ∧
          ∀ (names : Names) (target : Expr) (l : Location), Rule.denotesStorage names target →
            Rule.assign names (.compound op) target left right l = (left, []) := by
  refine ⟨fun op => result?_comm op _ _, fun op => ⟨result?_eq_invalid_iff, fun t ht => ?_⟩,
    fun hl hr op hop => ?_, fun op hop => ⟨fun order => isSome_equality_of_order hop, fun h => ?_⟩,
    fun op t ht => ?_⟩
  · have htype := type_of_result? ht
    refine ⟨htype, ?_⟩
    rcases htype with rfl | rfl | rfl | rfl <;> exact ⟨rfl, rfl, nofun, nofun⟩
  · rw [isSome_equality_iff hop hl hr, equatable_iff_assignable, assignable_iff hl hr,
      assignable_iff hr hl, and_assoc]
    rfl
  · exact ⟨isSome_connective_of_equality (.inl rfl) hop h,
      isSome_connective_of_equality (.inr rfl) hop h⟩
  · obtain ⟨hleft, hright⟩ := assignableTo_of_result? ht
    refine ⟨hleft, hright, fun names target l hstorage => ?_⟩
    rw [Rule.assign_compound_some hstorage ht, Rule.store, if_pos hleft]

/-- A string and a pointer to void can be compared for equality but not ordered or joined; a string
and a pointer to characters can be joined, and the text be stored in the place of the pointer. -/
theorem BinaryOp.result?_laws_strings :
    (BinaryOp.equal.result? .string (.pointer .void)).isSome ∧
      (BinaryOp.and.result? .string (.pointer .void)).isSome ∧
      (BinaryOp.order .less).result? .string (.pointer .void) = none ∧
      (BinaryOp.arith .add).result? .string (.pointer .void) = none ∧
      (BinaryOp.arith .add).result? (.pointer .char) .string = some .string ∧
      ValueType.string.assignableTo (.pointer .char) = true ∧
      Rule.assign pointerNames (.compound .add) (pointerExpr 0) (.pointer .char) .string ⟨1, 18⟩ =
        (.pointer .char, []) := by
  obtain ⟨-, -, hequality, hweaker, -⟩ := BinaryOp.result?_laws .string (.pointer .void)
  obtain ⟨-, -, -, -, hstore⟩ := BinaryOp.result?_laws (.pointer .char) .string
  have hequal := (hequality nofun nofun .equal (.inl rfl)).mpr
    ⟨⟨nofun, nofun⟩, ⟨nofun, nofun⟩, .inl (by decide)⟩
  obtain ⟨hassignable, -, hassign⟩ := hstore .add .string (by decide)
  exact ⟨hequal, ((hweaker .equal (.inl rfl)).2 hequal).1, by decide, by decide, by decide,
    hassignable, hassign pointerNames (pointerExpr 0) ⟨1, 18⟩ (by decide)⟩

end CSubset
