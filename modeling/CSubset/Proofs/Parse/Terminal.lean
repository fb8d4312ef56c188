-- SUMMARY: Which tokens the parsers admit, in terms of the tokens that the grammar writes.
import CSubset.Proofs.Grammar.Unit
import CSubset.Proofs.Parse.Plain

/-!
# Terminals

A parser asks of a token what it stands for; a production of the grammar says which token
writes something. The two tables run in opposite directions and agree, one lemma for each.
-/

namespace CSubset.Parse

variable {β : Type}

/-! ## Tables -/

theorem mark?_eq_some {m : Punctuator} {k : Token.Kind} {x : Unit} :
    mark? m k = some x ↔ k = .punctuator m := by
  simp [mark?]

theorem keyword?_eq_some {w : Keyword} {k : Token.Kind} {x : Unit} :
    keyword? w k = some x ↔ k = .keyword w := by
  simp [keyword?]

theorem identifier?_eq_some {k : Token.Kind} {name : String} :
    identifier? k = some name ↔ k = .identifier name := by
  cases k <;> simp [identifier?]

theorem string?_eq_some {k : Token.Kind} {s : String} :
    string? k = some s ↔ k = .stringLiteral s := by
  cases k <;> simp [string?]

theorem assignOp?_eq_some {k : Token.Kind} {op : AssignOp} :
    assignOp? k = some op ↔ k = .punctuator op.mark := by
  constructor
  · intro h
    unfold assignOp? at h
    split at h <;> cases h <;> rfl
  · rintro rfl
    rcases op with _ | _ | _ | _ | _ | _ <;> rfl

theorem unaryOp?_eq_some {k : Token.Kind} {op : UnaryOp} :
    unaryOp? k = some op ↔ k = .punctuator op.mark := by
  constructor
  · intro h
    unfold unaryOp? at h
    split at h <;> cases h <;> rfl
  · rintro rfl
    cases op <;> rfl

theorem binaryOp?_eq_some {k : Token.Kind} {op : BinaryOp} :
    binaryOp? k = some op ↔ k = .punctuator op.mark := by
  constructor
  · intro h
    unfold binaryOp? at h
    split at h <;> cases h <;> rfl
  · rintro rfl
    rcases op with (_ | _ | _ | _ | _) | (_ | _ | _ | _) | _ | _ | _ | _ <;> rfl

theorem binaryOpFrom?_eq_some {least : Nat} {k : Token.Kind} {op : BinaryOp} :
    binaryOpFrom? least k = some op ↔ k = .punctuator op.mark ∧ least ≤ op.precedence := by
  simp [binaryOpFrom?, Option.filter_eq_some_iff, binaryOp?_eq_some]

theorem baseType?_eq_some {k : Token.Kind} {b : BaseType} :
    baseType? k = some b ↔ k = .keyword b.keyword := by
  constructor
  · intro h
    unfold baseType? at h
    split at h <;> cases h <;> rfl
  · rintro rfl
    cases b <;> rfl

theorem arraySize?_eq_some {k : Token.Kind} {n : Nat} :
    arraySize? k = some n ↔ k = .intLiteral n := by
  constructor
  · intro h
    unfold arraySize? at h
    split at h <;> cases h
    rfl
  · rintro rfl
    rfl

@[simp] theorem mark?_self (m : Punctuator) : mark? m (.punctuator m) = some () :=
  mark?_eq_some.mpr rfl

@[simp] theorem keyword?_self (w : Keyword) : keyword? w (.keyword w) = some () :=
  keyword?_eq_some.mpr rfl

@[simp] theorem assignOp?_mark (op : AssignOp) : assignOp? (.punctuator op.mark) = some op :=
  assignOp?_eq_some.mpr rfl

@[simp] theorem unaryOp?_mark (op : UnaryOp) : unaryOp? (.punctuator op.mark) = some op :=
  unaryOp?_eq_some.mpr rfl

@[simp] theorem baseType?_keyword (b : BaseType) : baseType? (.keyword b.keyword) = some b :=
  baseType?_eq_some.mpr rfl

theorem binaryOpFrom?_mark {least : Nat} {op : BinaryOp} (h : least ≤ op.precedence) :
    binaryOpFrom? least (.punctuator op.mark) = some op :=
  binaryOpFrom?_eq_some.mpr ⟨rfl, h⟩

theorem nextNot_binary_mono {p q : Nat} {ts : List Token} (hpq : p ≤ q)
    (h : NextNot (binaryOpFrom? p) ts) : NextNot (binaryOpFrom? q) ts := by
  intro t ht
  refine Option.eq_none_iff_forall_ne_some.mpr fun op hop => ?_
  obtain ⟨hk, hle⟩ := binaryOpFrom?_eq_some.mp hop
  have := binaryOpFrom?_eq_some.mpr ⟨hk, Nat.le_trans hpq hle⟩
  rw [h t ht] at this
  cases this

/-- No operator binds more tightly than those of the last stratum. -/
theorem nextNot_binary_of_six_lt {p : Nat} (hp : 6 < p) (ts : List Token) :
    NextNot (binaryOpFrom? p) ts := by
  intro t _
  refine Option.eq_none_iff_forall_ne_some.mpr fun op hop => ?_
  have hle := (binaryOpFrom?_eq_some.mp hop).2
  have := op.precedence_le
  omega

/-- The kind of token that announces a statement other than an expression. -/
def Leader.kind : Leader → Token.Kind
  | .block => .punctuator .leftBrace
  | .branch => .keyword .ifKw
  | .whileLoop => .keyword .whileKw
  | .forLoop => .keyword .forKw
  | .returnStmt => .keyword .returnKw
  | .jump kind => .keyword kind.keyword

theorem leader?_eq_some {k : Token.Kind} {lead : Leader} :
    leader? k = some lead ↔ k = lead.kind := by
  constructor
  · intro h
    unfold leader? at h
    split at h <;> cases h <;> rfl
  · rintro rfl
    rcases lead with _ | _ | _ | _ | _ | _ | _ <;> rfl

theorem storage?_eq_some {k : Token.Kind} {storage : Storage} :
    storage? k = some storage ↔
      k = .keyword .staticKw ∧ storage = .static ∨
        k = .keyword .externKw ∧ storage = .external := by
  constructor
  · intro h
    unfold storage? at h
    split at h <;> cases h <;> simp
  · rintro (⟨rfl, rfl⟩ | ⟨rfl, rfl⟩) <;> rfl

/-! ## Reading a terminal -/

/-- A table that admits exactly the kinds that `w` writes reads what `w` writes. -/
theorem next?_eq_some_of_table {pick : Token.Kind → Option β} {w : β → Token.Kind}
    (hpick : ∀ k b, pick k = some b ↔ k = w b) {c c' : Cursor} {b : β} {l : Location} :
    c.next? pick = some ((b, l), c') ↔ c = ⟨⟨w b, l⟩ :: c'.rest, c'.nextId⟩ := by
  rw [Cursor.next?_eq_some]
  rcases c with ⟨rest, i⟩
  rcases c' with ⟨rest', j⟩
  constructor
  · rintro ⟨k, rfl, hk, hi⟩
    obtain rfl : j = i := hi
    rw [(hpick k b).mp hk]
  · intro h
    cases h
    exact ⟨_, rfl, (hpick _ b).mpr rfl, rfl⟩

theorem next?_mark {m : Punctuator} {c c' : Cursor} {x : Unit} {l : Location} :
    c.next? (mark? m) = some ((x, l), c') ↔ c = ⟨.ofMark m l :: c'.rest, c'.nextId⟩ :=
  next?_eq_some_of_table (w := fun _ => .punctuator m) fun _ _ => mark?_eq_some

theorem next?_keyword {w : Keyword} {c c' : Cursor} {x : Unit} {l : Location} :
    c.next? (keyword? w) = some ((x, l), c') ↔ c = ⟨.ofWord w l :: c'.rest, c'.nextId⟩ :=
  next?_eq_some_of_table (w := fun _ => .keyword w) fun _ _ => keyword?_eq_some

theorem next?_identifier {c c' : Cursor} {name : String} {l : Location} :
    c.next? identifier? = some ((name, l), c') ↔
      c = ⟨⟨.identifier name, l⟩ :: c'.rest, c'.nextId⟩ :=
  next?_eq_some_of_table fun _ _ => identifier?_eq_some

theorem next?_string {c c' : Cursor} {s : String} {l : Location} :
    c.next? string? = some ((s, l), c') ↔ c = ⟨⟨.stringLiteral s, l⟩ :: c'.rest, c'.nextId⟩ :=
  next?_eq_some_of_table fun _ _ => string?_eq_some

theorem next?_assignOp {c c' : Cursor} {op : AssignOp} {l : Location} :
    c.next? assignOp? = some ((op, l), c') ↔ c = ⟨.ofMark op.mark l :: c'.rest, c'.nextId⟩ :=
  next?_eq_some_of_table (w := fun op : AssignOp => .punctuator op.mark)
    fun _ _ => assignOp?_eq_some

theorem next?_unaryOp {c c' : Cursor} {op : UnaryOp} {l : Location} :
    c.next? unaryOp? = some ((op, l), c') ↔ c = ⟨.ofMark op.mark l :: c'.rest, c'.nextId⟩ :=
  next?_eq_some_of_table (w := fun op : UnaryOp => .punctuator op.mark)
    fun _ _ => unaryOp?_eq_some

theorem next?_baseType {c c' : Cursor} {b : BaseType} {l : Location} :
    c.next? baseType? = some ((b, l), c') ↔ c = ⟨.ofWord b.keyword l :: c'.rest, c'.nextId⟩ :=
  next?_eq_some_of_table (w := fun b : BaseType => .keyword b.keyword)
    fun _ _ => baseType?_eq_some

theorem next?_arraySize {c c' : Cursor} {n : Nat} {l : Location} :
    c.next? arraySize? = some ((n, l), c') ↔ c = ⟨⟨.intLiteral n, l⟩ :: c'.rest, c'.nextId⟩ :=
  next?_eq_some_of_table (w := fun n : Nat => .intLiteral n) fun _ _ => arraySize?_eq_some

theorem next?_leader {c c' : Cursor} {lead : Leader} {l : Location} :
    c.next? leader? = some ((lead, l), c') ↔ c = ⟨⟨lead.kind, l⟩ :: c'.rest, c'.nextId⟩ :=
  next?_eq_some_of_table fun _ _ => leader?_eq_some

theorem next?_binaryOp {least : Nat} {c c' : Cursor} {op : BinaryOp} {l : Location} :
    c.next? (binaryOpFrom? least) = some ((op, l), c') ↔
      c = ⟨.ofMark op.mark l :: c'.rest, c'.nextId⟩ ∧ least ≤ op.precedence := by
  rw [Cursor.next?_eq_some]
  rcases c with ⟨rest, i⟩
  rcases c' with ⟨rest', j⟩
  constructor
  · rintro ⟨k, rfl, hk, hi⟩
    obtain rfl : j = i := hi
    obtain ⟨rfl, hle⟩ := binaryOpFrom?_eq_some.mp hk
    exact ⟨rfl, hle⟩
  · rintro ⟨h, hle⟩
    cases h
    exact ⟨_, rfl, binaryOpFrom?_eq_some.mpr ⟨rfl, hle⟩, rfl⟩

/-- A punctuator that has to come next is there, and the cursor behind it is handed on. -/
theorem plain_expect_eq_ok {m : Punctuator} {place : Place} {c c' : Cursor} {x : Unit} :
    plain (expect m place c) = .ok (x, c') ↔
      ∃ l, c = ⟨.ofMark m l :: c'.rest, c'.nextId⟩ := by
  rw [plain_expect]
  cases h : c.next? (mark? m) with
  | none =>
    refine ⟨nofun, fun ⟨l, hl⟩ => ?_⟩
    rw [next?_mark (x := ()).mpr hl] at h
    cases h
  | some y =>
    obtain ⟨⟨_, l⟩, c₁⟩ := y
    have hc := next?_mark.mp h
    constructor
    · intro h
      cases h
      exact ⟨l, hc⟩
    · rintro ⟨l', hl'⟩
      rw [hc] at hl'
      cases c₁
      cases c'
      simp_all

/-- A punctuator that is there is read. -/
theorem plain_expect_cons (m : Punctuator) (place : Place) (l : Location) (rest : List Token)
    (i : Nat) : plain (expect m place ⟨.ofMark m l :: rest, i⟩) = .ok ((), ⟨rest, i⟩) :=
  plain_expect_eq_ok.mpr ⟨l, rfl⟩

end CSubset.Parse
