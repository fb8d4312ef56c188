-- SUMMARY: The checker's tables of types agree with the relations of the typing judgement.
import CSubset.Proofs.Typing.Judgement

/-!
# Tables and relations

The checker decides by Boolean tables in which `invalid` agrees with everything. On all other
types a table says the same as the relation of the judgement. `ValueType.Proper` singles out
the types in which `invalid` occurs nowhere; these are closed under all rules.
-/

namespace CSubset

/-- The type of a faultless expression: `invalid` occurs in it at no depth. -/
def ValueType.Proper : ValueType → Prop
  | .invalid => False
  | .pointer target => target.Proper
  | _ => True

namespace Typing

open ValueType

variable {s t u : ValueType}

theorem ne_invalid_of_proper (h : t.Proper) : t ≠ .invalid := by
  rintro rfl
  exact h

theorem proper_ofDeclared (d : DeclaredType) : (ofDeclared d).Proper := by
  have base : d.base.valueType.Proper := by
    cases d.base <;> trivial
  have depth (n : Nat) : (d.base.valueType.pointers n).Proper := by
    induction n with
    | zero => exact base
    | succ n ih => exact ih
  exact depth _

/-! ## Classes of types -/

theorem numeric_iff : Numeric t ↔ t.isNumeric = true := by
  constructor
  · intro h
    cases h <;> rfl
  · intro h
    cases t <;> first | constructor | cases h

theorem integral_iff : Integral t ↔ t.isIntegral = true := by
  constructor
  · intro h
    cases h <;> rfl
  · intro h
    cases t <;> first | constructor | cases h

theorem numeric_iff_integral_or_float : Numeric t ↔ Integral t ∨ t = .float := by
  constructor
  · intro h
    cases h with
    | int => exact .inl .int
    | float => exact .inr rfl
    | char => exact .inl .char
  · rintro (h | rfl)
    · cases h <;> constructor
    · exact .float

theorem truthValue_iff (ht : t ≠ .invalid) : TruthValue t ↔ t.isTruthValue = true := by
  constructor
  · intro h
    cases h with
    | numeric h => cases h <;> rfl
    | string | pointer => rfl
  · intro h
    cases t with
    | int => exact .numeric .int
    | float => exact .numeric .float
    | char => exact .numeric .char
    | string => exact .string
    | pointer target => exact .pointer
    | invalid => exact absurd rfl ht
    | void | function => cases h

theorem text_iff : Text t ↔ t.isText = true := by
  constructor
  · intro h
    cases h <;> rfl
  · intro h
    unfold isText at h
    split at h
    · exact .string
    · exact .pointer
    · cases h

theorem pointerLike_iff : PointerLike t ↔ t.isPointerLike = true := by
  constructor
  · intro h
    cases h <;> rfl
  · intro h
    cases t <;> first | constructor | cases h

theorem pointee_iff : Pointee t u ↔ t.pointee? = some u := by
  constructor
  · intro h
    cases h <;> rfl
  · intro h
    cases t <;> cases h <;> constructor

theorem proper_of_pointee (h : Pointee t u) (ht : t.Proper) : u.Proper := by
  cases h with
  | pointer => exact ht
  | string => trivial

theorem isVoidPointer_eq_true : t.isVoidPointer = true ↔ t = .pointer .void := by
  unfold isVoidPointer
  split <;> simp_all

theorem assignable_iff (hs : s ≠ .invalid) (ht : t ≠ .invalid) :
    Assignable s t ↔ s.assignableTo t = true := by
  constructor
  · intro h
    cases h with
    | same => simp [assignableTo]
    | numeric hs ht => simp [assignableTo, numeric_iff.mp hs, numeric_iff.mp ht]
    | stringToText | stringToVoid | pointerToVoid | voidToPointer =>
      simp [assignableTo, isVoidPointer]
  · intro h
    simp only [assignableTo, hs, ht, decide_false, Bool.false_or, Bool.or_eq_true,
      decide_eq_true_eq, Bool.and_eq_true] at h
    obtain (rfl | ⟨hs, ht⟩) | h := h
    · exact .same
    · exact .numeric (numeric_iff.mpr hs) (numeric_iff.mpr ht)
    · split at h
      · simp only [Bool.or_eq_true, decide_eq_true_eq] at h
        obtain rfl | rfl := h
        · exact .stringToText
        · exact .stringToVoid
      · rw [Bool.or_eq_true, isVoidPointer_eq_true, isVoidPointer_eq_true] at h
        obtain h | h := h
        · cases h
          exact .voidToPointer
        · cases h
          exact .pointerToVoid
      · cases h

/-! ## Operators -/

theorem promotes_iff :
    Promotes s t u ↔ (s.isNumeric = true ∧ t.isNumeric = true) ∧ promote s t = u := by
  constructor
  · intro h
    cases h with
    | floatLeft h => exact ⟨⟨rfl, numeric_iff.mp h⟩, by simp [promote]⟩
    | floatRight h => exact ⟨⟨numeric_iff.mp h, rfl⟩, by simp [promote]⟩
    | whole hs ht =>
      refine ⟨⟨?_, ?_⟩, ?_⟩
      · cases hs <;> rfl
      · cases ht <;> rfl
      · cases hs <;> cases ht <;> rfl
  · rintro ⟨⟨hs, ht⟩, rfl⟩
    rw [← numeric_iff] at hs ht
    unfold promote
    split
    · next h =>
      obtain rfl | rfl := h
      · exact .floatLeft ht
      · exact .floatRight hs
    · next h =>
      rw [not_or] at h
      exact .whole ((numeric_iff_integral_or_float.mp hs).resolve_right h.1)
        ((numeric_iff_integral_or_float.mp ht).resolve_right h.2)

theorem comparable_iff : Comparable s t ↔ comparable s t = true := by
  simp only [comparable, Bool.or_eq_true, Bool.and_eq_true, decide_eq_true_eq]
  constructor
  · intro h
    cases h with
    | numeric hs ht => exact .inl ⟨numeric_iff.mp hs, numeric_iff.mp ht⟩
    | same hv hf => exact .inr ⟨⟨rfl, hv⟩, hf⟩
  · rintro (⟨hs, ht⟩ | ⟨⟨rfl, hv⟩, hf⟩)
    · exact .numeric (numeric_iff.mpr hs) (numeric_iff.mpr ht)
    · exact .same hv hf

theorem equatable_iff (hs : s ≠ .invalid) (ht : t ≠ .invalid) :
    Equatable s t ↔ (comparable s t || pointersComparable s t) = true := by
  simp only [pointersComparable, Bool.or_eq_true, Bool.and_eq_true, ← comparable_iff,
    ← pointerLike_iff, ← assignable_iff hs ht, ← assignable_iff ht hs]
  constructor
  · intro h
    cases h with
    | comparable h => exact .inl h
    | pointers hs ht h => exact .inr ⟨⟨hs, ht⟩, h⟩
  · rintro (h | ⟨⟨hs, ht⟩, h⟩)
    · exact .comparable h
    · exact .pointers hs ht h

theorem not_numeric_of_text (h : Text t) : ¬ t.isNumeric = true := by
  cases h <;> exact nofun

theorem arithResult_iff {op : ArithOp} :
    BinaryResult (.arith op) s t u ↔ op.result? s t = some u := by
  unfold ArithOp.result?
  constructor
  · intro h
    cases h with
    | arith h =>
      obtain ⟨⟨hs, ht⟩, rfl⟩ := promotes_iff.mp h
      have htext : ¬ (op = .add ∧ s.isText = true ∧ t.isText = true) :=
        fun h => not_numeric_of_text (text_iff.mpr h.2.1) hs
      rw [if_neg htext, if_pos ⟨hs, ht⟩]
    | concat hs ht => rw [if_pos ⟨rfl, text_iff.mp hs, text_iff.mp ht⟩]
  · intro h
    split at h
    · next htext =>
      obtain ⟨rfl, hs, ht⟩ := htext
      cases h
      exact .concat (text_iff.mpr hs) (text_iff.mpr ht)
    · split at h
      · next hnum =>
        cases h
        exact .arith (promotes_iff.mpr ⟨hnum, rfl⟩)
      · cases h

/-- A test with a result of type int. -/
theorem some_int_iff {P : Prop} {b : Bool} (h : P ↔ b = true) :
    (if b = true then some ValueType.int else none) = some u ↔ P ∧ u = .int := by
  rw [h]
  cases b <;> simp [eq_comm]

theorem binaryResult_iff {op : BinaryOp} (hs : s ≠ .invalid) (ht : t ≠ .invalid) :
    BinaryResult op s t u ↔ op.result? s t = some u := by
  have htruth : TruthValue s ∧ TruthValue t ↔ (s.isTruthValue && t.isTruthValue) = true := by
    rw [Bool.and_eq_true, truthValue_iff hs, truthValue_iff ht]
  unfold BinaryOp.result?
  rw [if_neg (not_or.mpr ⟨hs, ht⟩)]
  cases op with
  | arith op => exact arithResult_iff
  | order op =>
    dsimp only
    rw [some_int_iff comparable_iff]
    exact ⟨fun h => by cases h with | order h => exact ⟨h, rfl⟩, fun ⟨h, hu⟩ => hu ▸ .order h⟩
  | equal =>
    dsimp only
    rw [some_int_iff (equatable_iff hs ht)]
    exact ⟨fun h => by cases h with | equal h => exact ⟨h, rfl⟩, fun ⟨h, hu⟩ => hu ▸ .equal h⟩
  | notEqual =>
    dsimp only
    rw [some_int_iff (equatable_iff hs ht)]
    exact ⟨fun h => by cases h with | notEqual h => exact ⟨h, rfl⟩,
      fun ⟨h, hu⟩ => hu ▸ .notEqual h⟩
  | and =>
    dsimp only
    rw [some_int_iff htruth]
    exact ⟨fun h => by cases h with | and h h' => exact ⟨⟨h, h'⟩, rfl⟩,
      fun ⟨h, hu⟩ => hu ▸ .and h.1 h.2⟩
  | or =>
    dsimp only
    rw [some_int_iff htruth]
    exact ⟨fun h => by cases h with | or h h' => exact ⟨⟨h, h'⟩, rfl⟩,
      fun ⟨h, hu⟩ => hu ▸ .or h.1 h.2⟩

theorem proper_of_binaryResult {op : BinaryOp} (h : BinaryResult op s t u) : u.Proper := by
  cases h with
  | arith h => cases h <;> trivial
  | concat | order | equal | notEqual | and | or => trivial

theorem unaryResult_iff {op : UnaryOp} (ht : t ≠ .invalid) :
    UnaryResult op t u ↔ op.result? t = some u := by
  have sign : (if t.isNumeric = true then some (promote t .int) else none) = some u ↔
      t = .float ∧ u = .float ∨ Integral t ∧ u = .int := by
    cases t with
    | int => simp [isNumeric, promote, integral_iff, isIntegral, eq_comm]
    | float => simp [isNumeric, promote, integral_iff, isIntegral, eq_comm]
    | char => simp [isNumeric, promote, integral_iff, isIntegral, eq_comm]
    | _ => simp [isNumeric, integral_iff, isIntegral]
  unfold UnaryOp.result?
  rw [if_neg ht]
  cases op with
  | negate =>
    dsimp only
    rw [sign]
    constructor
    · intro h
      cases h with
      | negateFloat => exact .inl ⟨rfl, rfl⟩
      | negateWhole h => exact .inr ⟨h, rfl⟩
    · rintro (⟨rfl, rfl⟩ | ⟨h, rfl⟩)
      · exact .negateFloat
      · exact .negateWhole h
  | plus =>
    dsimp only
    rw [sign]
    constructor
    · intro h
      cases h with
      | plusFloat => exact .inl ⟨rfl, rfl⟩
      | plusWhole h => exact .inr ⟨h, rfl⟩
    · rintro (⟨rfl, rfl⟩ | ⟨h, rfl⟩)
      · exact .plusFloat
      · exact .plusWhole h
  | not =>
    dsimp only
    rw [some_int_iff (truthValue_iff ht)]
    exact ⟨fun h => by cases h with | not h => exact ⟨h, rfl⟩, fun ⟨h, hu⟩ => hu ▸ .not h⟩
  | dereference =>
    dsimp only
    rw [← pointee_iff]
    exact ⟨fun h => by cases h with | dereference h => exact h, .dereference⟩
  | addressOf =>
    dsimp only
    constructor
    · intro h
      cases h with
      | addressOf h => rw [if_neg h]
    · intro h
      split at h
      · cases h
      · next hf =>
        cases h
        exact .addressOf hf

theorem proper_of_unaryResult {op : UnaryOp} (h : UnaryResult op t u) (ht : t.Proper) :
    u.Proper := by
  cases h with
  | dereference h => exact proper_of_pointee h ht
  | addressOf => exact ht
  | negateFloat | negateWhole | plusFloat | plusWhole | not => trivial

/-! ## Names -/

theorem symbolType_iff {s : Symbol} : SymbolType s t ↔ s.valueType = t := by
  constructor
  · intro h
    cases h <;> rfl
  · rintro rfl
    cases s with
    | function => exact .function
    | var => exact .var
    | parameter => exact .parameter

theorem proper_of_symbolType {s : Symbol} (h : SymbolType s t) : t.Proper := by
  cases h with
  | function => trivial
  | var | parameter => exact proper_ofDeclared _

theorem writable_iff {s : Symbol} : Writable s ↔ Rule.writable s = true := by
  have hover (d : DeclaredType) : Overwritable d ↔
      (decide (d.dimensions = []) && !(d.isConst && decide (d.pointers = 0))) = true := by
    unfold Overwritable
    cases d.isConst <;> simp
  cases s with
  | function => exact ⟨nofun, nofun⟩
  | var =>
    exact ⟨fun h => by cases h with | var h => exact (hover _).mp h,
      fun h => .var ((hover _).mpr h)⟩
  | parameter =>
    exact ⟨fun h => by cases h with | parameter h => exact (hover _).mp h,
      fun h => .parameter ((hover _).mpr h)⟩

/-- On an expression in which no name is unbound, the checker's test is the judgement's. -/
theorem storage_iff {names : Names} {e : Expr}
    (hbound : ∀ a name, e = .ident a name → names name ≠ none) :
    Storage names e ↔ Rule.denotesStorage names e = true := by
  constructor
  · intro h
    cases h with
    | ident hs h => simp [Rule.denotesStorage, hs, writable_iff.mp h]
    | dereference | index => rfl
  · intro h
    unfold Rule.denotesStorage at h
    split at h
    · next a name =>
      obtain ⟨s, hs⟩ := Option.ne_none_iff_exists'.mp (hbound a name rfl)
      rw [hs, Option.all_some] at h
      exact .ident hs (writable_iff.mpr h)
    · exact .dereference
    · exact .index
    · cases h

theorem takes_iff {p : Prototype} {n : Nat} : Takes p n ↔ Rule.takes p n = true := by
  unfold Takes Rule.takes
  cases p.variadic with
  | false => simp
  | true =>
    simp only [if_true, true_and, decide_eq_true_eq]
    exact ⟨fun h => h.elim (fun h => Nat.le_of_eq h.symm) id, .inr⟩

end Typing

end CSubset
