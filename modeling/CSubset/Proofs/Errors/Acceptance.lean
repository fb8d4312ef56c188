-- SUMMARY: The parser reads every sentence to its end, unless it objects to a function among the parameters.
import CSubset.Proofs.Errors.UnitViability
import CSubset.Proofs.Parse.UnitCompleteness

/-!
# Acceptance

Completeness once more, for shapes in place of derived syntax: on the tokens of a phrase, with
something behind them that cannot extend it, a parser stops at the end of the phrase. The one
objection left is that to a function among the parameters, and it is raised only if the grammar
allows such parameters. For the grammar that does not allow them this leaves no objection.
-/

namespace CSubset

open Grammar

namespace Grammar.Shape

/-! ## Expressions from every number on -/

theorem Expression.numbered {ts : List Token} (h : Expression ts) (i : Nat) :
    ∃ e j, Assignment i ts e j := by
  obtain ⟨_, _, _, h⟩ := h
  exact h.renumber i

theorem Clause.numbered {ts : List Token} (h : Clause ts) (i : Nat) :
    ∃ e j, Grammar.Clause i ts e j := by
  cases h with
  | none => exact ⟨_, _, .none⟩
  | some h =>
    obtain ⟨_, _, h⟩ := h.numbered i
    exact ⟨_, _, .some h⟩

end Grammar.Shape

namespace Parse

variable {nested : Prop} {α β : Type}

/-- The parser stops at the tokens `rest` with a value of which `q` holds, or it objects to a
function among the parameters, provided that there may be one. -/
inductive Admits (nested : Prop) (rest : List Token) (q : α → Prop) :
    Except Failure (α × Cursor) → Prop where
  | read {a : α} {j : Nat} (hq : q a) : Admits nested rest q (.ok (a, ⟨rest, j⟩))
  | objects {f : Failure} (hn : nested) (hf : f.complaint.isFunctionParameter = true) :
      Admits nested rest q (.error f)

theorem Admits.bind {rest rest' : List Token} {q : α → Prop} {q' : β → Prop}
    {r : Except Failure (α × Cursor)} {g : α × Cursor → Except Failure (β × Cursor)}
    (h : Admits nested rest q r)
    (hg : ∀ a j, q a → Admits nested rest' q' (g (a, ⟨rest, j⟩))) :
    Admits nested rest' q' (r >>= g) := by
  cases h with
  | read hq => exact hg _ _ hq
  | objects hn hf => exact .objects hn hf

/-- The parser stops at the tokens `rest`, with any value. -/
abbrev Passes (nested : Prop) (rest : List Token) (r : Except Failure (α × Cursor)) : Prop :=
  Admits nested rest (fun _ => True) r

/-! ## Declarators -/

/-- What a declarator declares. -/
def Declarator.declared (d : Declarator) : Shape.Declared :=
  match d.tail with
  | .dimensions _ => .object
  | .parameters _ _ => .function

mutual

theorem declarator_admits {declared : Shape.Declared} {ts : List Token} (rest : List Token)
    (hr : declared = .object → EndsName rest) (i : Nat) :
    Shape.Declarator nested declared ts →
      Admits nested rest (fun d => d.declared = declared) (plain (declarator ⟨ts ++ rest, i⟩))
  | .pointer h => by
    rw [plain_declarator]
    simp only [List.cons_append, Cursor.next?_cons, mark?_self, Option.map_some]
    exact .bind (declarator_admits rest hr i h) fun d j hd => .read hd
  | @Shape.Declarator.object _ _ _ name l h => by
    have hd := declarator_dimensions h (hr rfl) name l i
    rw [List.cons_append, hd]
    exact .read rfl
  | @Shape.Declarator.function _ us name l l₁ l₂ h => by
    have hstar : mark? .star (.identifier name) = none := rfl
    have hname : identifier? (.identifier name) = some name := rfl
    rw [plain_declarator]
    simp only [List.cons_append, List.append_assoc, List.nil_append, Cursor.next?_cons, hstar,
      hname, mark?_self, Option.map_none, Option.map_some]
    refine .bind (parameterList_admits rest l₂ i h) fun list j _ => ?_
    simp only [plain_expect_cons, ok_bind]
    exact .read rfl

theorem parameterList_admits {ts : List Token} (rest : List Token) (l : Location) (i : Nat) :
    Shape.ParamList nested ts →
      Passes nested (.ofMark .rightParen l :: rest)
        (plain (parameterList ⟨ts ++ .ofMark .rightParen l :: rest, i⟩))
  | .nothing => by
    rw [paramList_complete .nothing]
    exact .read trivial
  | .void => by
    rw [paramList_complete .void]
    exact .read trivial
  | .params h => by
    have hclose :
        Cursor.next? ⟨ts ++ .ofMark .rightParen l :: rest, i⟩ (mark? .rightParen) = none :=
      Cursor.next?_eq_none.mpr ((h.begins.append _).nextNot_mark _)
    have hvoid : (Cursor.next? ⟨ts ++ .ofMark .rightParen l :: rest, i⟩ (keyword? .voidKw)).filter
        (fun word => (word.2.next? (mark? .rightParen)).isSome) = none := by
      rw [Option.filter_eq_none_iff]
      rintro ⟨⟨x, l'⟩, c⟩ hv hnext
      rw [Cursor.next?_eq_none.mpr (h.void_next hv)] at hnext
      cases hnext
    rw [plain_parameterList, hclose, hvoid]
    exact parameters_admits true rest l i h

theorem parameters_admits {ts : List Token} (first : Bool) (rest : List Token) (l : Location)
    (i : Nat) :
    Shape.Params nested ts →
      Passes nested (.ofMark .rightParen l :: rest)
        (plain (parameters first ⟨ts ++ .ofMark .rightParen l :: rest, i⟩))
  | .last h => by
    have hcomma : mark? .comma (.punctuator .rightParen) = none := rfl
    have hdots := Cursor.next?_eq_none (c := ⟨ts ++ .ofMark .rightParen l :: rest, i⟩).mpr
      ((h.begins.append _).nextNot_mark .ellipsis)
    have hends := endsName_of_mark (m := .rightParen) (by simp) l rest
    rw [plain_parameters, hdots]
    refine .bind (parameter_admits hends i h) fun p j _ => ?_
    simp only [Cursor.next?_cons, hcomma, Option.map_none]
    exact .read trivial
  | @Shape.Params.variadic _ us l₁ l₂ h => by
    have hdots := Cursor.next?_eq_none
      (c := ⟨us ++ .ofMark .comma l₁ :: .ofMark .ellipsis l₂ ::
        .ofMark .rightParen l :: rest, i⟩).mpr
      ((h.begins.append _).nextNot_mark .ellipsis)
    have hends := endsName_of_mark (m := .comma) (by simp) l₁
      (.ofMark .ellipsis l₂ :: .ofMark .rightParen l :: rest)
    rw [plain_parameters, List.append_assoc, List.cons_append, List.singleton_append, hdots]
    refine .bind (parameter_admits hends i h) fun p j _ => ?_
    simp only [Cursor.next?_cons, mark?_self, Option.map_some]
    rw [plain_parameters]
    simp only [Cursor.next?_cons, mark?_self, Option.map_some, Bool.false_eq_true, if_false,
      ok_bind]
    exact .read trivial
  | @Shape.Params.more _ us vs l₁ h hs => by
    have hdots := Cursor.next?_eq_none
      (c := ⟨us ++ .ofMark .comma l₁ :: (vs ++ .ofMark .rightParen l :: rest), i⟩).mpr
      ((h.begins.append _).nextNot_mark .ellipsis)
    have hends := endsName_of_mark (m := .comma) (by simp) l₁ (vs ++ .ofMark .rightParen l :: rest)
    rw [plain_parameters, List.append_assoc, List.cons_append, hdots]
    refine .bind (parameter_admits hends i h) fun p j _ => ?_
    simp only [Cursor.next?_cons, mark?_self, Option.map_some]
    exact .bind (parameters_admits false rest l j hs) fun list k _ => .read trivial

theorem parameter_admits {ts rest : List Token} (hr : EndsName rest) (i : Nat) :
    Shape.Param nested ts → Passes nested rest (plain (parameter ⟨ts ++ rest, i⟩))
  | @Shape.Param.mk _ us vs type declared ht hd hn => by
    rw [plain_parameter, List.append_assoc, typeSpecifier_complete ht, ok_bind]
    refine .bind (declarator_admits rest (fun _ => hr) i hd) fun d j h => ?_
    obtain ⟨n, name, l, tail⟩ := d
    cases tail with
    | dimensions => exact .read trivial
    | parameters => exact .objects (hn h.symm) rfl

end

/-! ## Declarations -/

/-- What a heading as read declares, and with which storage class if it is a function. -/
def Heading.Declares (storage : Storage) (declared : Shape.Declared) : Heading → Prop
  | .var _ => declared = .object
  | .function p => declared = .function ∧ p.storage = storage

theorem Declarator.heading_declares (d : Declarator) (storage : Storage) (type : DeclaredType) :
    (d.heading storage type).Declares storage d.declared := by
  obtain ⟨n, name, l, tail⟩ := d
  cases tail with
  | dimensions => rfl
  | parameters => exact ⟨rfl, rfl⟩

theorem heading_admits {storage : Storage} {declared : Shape.Declared} {ts rest : List Token}
    (h : Shape.Heading nested storage declared ts) (hr : declared = .object → EndsName rest)
    (i : Nat) :
    Admits nested rest (Heading.Declares storage declared) (plain (heading ⟨ts ++ rest, i⟩)) := by
  obtain ⟨hs, ht, hd⟩ := h
  rw [List.append_assoc, List.append_assoc, heading_storage hs ht, plain_typedHeading,
    typeSpecifier_complete ht, ok_bind]
  refine .bind (declarator_admits rest hr i hd) fun d j h => ?_
  subst h
  exact .read (d.heading_declares _ _)

/-- What is declared in a block can also be declared at file level. -/
theorem localDecl_admits {ts : List Token} (rest : List Token) (h : Shape.LocalDecl nested ts)
    (i : Nat) :
    Passes nested rest (plain (blockDecl ⟨ts ++ rest, i⟩)) ∧
      Passes nested rest (plain (external ⟨ts ++ rest, i⟩)) := by
  rw [plain_blockDecl, plain_external]
  cases h with
  | @plain us storage declared l h =>
    have hassign : mark? .assign (.punctuator .semicolon) = none := rfl
    have hbrace : mark? .leftBrace (.punctuator .semicolon) = none := rfl
    have hends := endsName_of_mark (m := .semicolon) (by simp) l rest
    rw [List.append_assoc, List.singleton_append]
    constructor
    all_goals
      refine .bind (heading_admits h (fun _ => hends) i) fun h j hh => ?_
      cases h with
      | var v =>
        simp only [plain_variableEnd, Cursor.next?_cons, hassign, Option.map_none,
          plain_expect_cons, ok_bind]
        exact .read trivial
      | function p =>
        simp only [plain_prototypeEnd, Cursor.next?_cons, hbrace, Option.map_none,
          Option.isSome_none, Bool.false_eq_true, if_false, plain_expect_cons, ok_bind]
        exact .read trivial
  | @initialized us vs storage l l' h he =>
    have hends := endsName_of_mark (m := .assign) (by simp) l (vs ++ .ofMark .semicolon l' :: rest)
    rw [List.append_assoc, List.cons_append, List.append_assoc, List.singleton_append]
    constructor
    all_goals
      refine .bind (heading_admits h (fun _ => hends) i) fun h j hh => ?_
      cases h with
      | function p => cases hh.1
      | var v =>
        obtain ⟨e, k, de⟩ := he.numbered j
        have hexpr := expr_complete (endsExpr_of_mark (m := .semicolon) (by simp) l' rest) de
        simp only [plain_variableEnd, Cursor.next?_cons, mark?_self, Option.map_some, hexpr,
          plain_expect_cons, ok_bind]
        exact .read trivial

theorem blockDecls_admits {ts rest : List Token} (hr : EndsDecls rest)
    (h : Shape.Sequence (Shape.LocalDecl nested) ts) (i : Nat) :
    Passes nested rest (plain (blockDecls ⟨ts ++ rest, i⟩)) := by
  induction h generalizing i with
  | nil =>
    rw [blockDecls_complete hr .nil]
    exact .read trivial
  | @cons us vs h hs ih =>
    obtain ⟨t, us', hus, ht⟩ := h.begins
    rw [plain_blockDecls, List.append_assoc, if_pos (by simp [hus, ht])]
    refine .bind (localDecl_admits _ h i).1 fun d j _ => ?_
    exact .bind (ih j) fun ds k _ => .read trivial

/-! ## Statements -/

/-- A block that is read behind its opening brace. -/
def PassesBlock (nested : Prop) (ts rest : List Token) : Prop :=
  ∃ l us, ts = .ofMark .leftBrace l :: us ∧
    ∀ i, Passes nested rest (plain (block l ⟨us ++ rest, i⟩))

theorem PassesBlock.body {ts rest : List Token} (h : PassesBlock nested ts rest)
    (owner : Keyword) (i : Nat) : Passes nested rest (plain (body owner ⟨ts ++ rest, i⟩)) := by
  obtain ⟨l, us, rfl, hb⟩ := h
  rw [plain_body]
  simp only [List.cons_append, Cursor.next?_cons, mark?_self, Option.map_some]
  exact hb i

mutual

theorem stmt_admits {ts rest : List Token} (hr : NextNot (keyword? .elseKw) rest) (i : Nat) :
    Shape.Statement nested ts → Passes nested rest (plain (stmt ⟨ts ++ rest, i⟩))
  | .block h => by
    have hlead : leader? (.punctuator .leftBrace) = some .block := rfl
    obtain ⟨l, us, rfl, hb⟩ := compound_admits rest h
    rw [plain_stmt]
    simp only [List.cons_append, Cursor.next?_cons, hlead, Option.map_some, plain_ledStmt_block]
    exact .bind (hb i) fun b j _ => .read trivial
  | @Shape.Statement.ifThen _ us vs _ l₁ l₂ he hb => by
    have hlead : leader? (.keyword .ifKw) = some .branch := rfl
    obtain ⟨e, j, de⟩ := he.numbered i
    have h₁ := condition_complete (vs ++ rest) de .ifKw l₁ l₂
    rw [plain_stmt, List.cons_append, List.cons_append, List.append_assoc, List.cons_append]
    simp only [Cursor.next?_cons, hlead, Option.map_some, plain_ledStmt_branch, h₁, ok_bind]
    refine .bind ((compound_admits rest hb).body .ifKw j) fun b k _ => ?_
    simp only [Cursor.next?_eq_none (c := ⟨rest, k⟩).mpr hr]
    exact .read trivial
  | @Shape.Statement.ifElse _ us vs ws _ l₁ l₂ l₃ he hb ha => by
    have hlead : leader? (.keyword .ifKw) = some .branch := rfl
    obtain ⟨e, j, de⟩ := he.numbered i
    have h₁ := condition_complete (vs ++ .ofWord .elseKw l₃ :: (ws ++ rest)) de .ifKw l₁ l₂
    rw [plain_stmt, List.cons_append, List.cons_append, List.append_assoc, List.cons_append,
      List.append_assoc, List.cons_append]
    simp only [Cursor.next?_cons, hlead, Option.map_some, plain_ledStmt_branch, h₁, ok_bind]
    refine .bind ((compound_admits _ hb).body .ifKw j) fun b k _ => ?_
    simp only [Cursor.next?_cons, keyword?_self, Option.map_some]
    exact .bind ((compound_admits rest ha).body .elseKw k) fun a m _ => .read trivial
  | @Shape.Statement.whileLoop _ us vs _ l₁ l₂ he hb => by
    have hlead : leader? (.keyword .whileKw) = some .whileLoop := rfl
    obtain ⟨e, j, de⟩ := he.numbered i
    have h₁ := condition_complete (vs ++ rest) de .whileKw l₁ l₂
    rw [plain_stmt, List.cons_append, List.cons_append, List.append_assoc, List.cons_append]
    simp only [Cursor.next?_cons, hlead, Option.map_some, plain_ledStmt_whileLoop, h₁, ok_bind]
    exact .bind ((compound_admits rest hb).body .whileKw j) fun b k _ => .read trivial
  | @Shape.Statement.forLoop _ us vs ws xs _ l₁ l₂ l₃ l₄ h₁ h₂ h₃ hb => by
    have hlead : leader? (.keyword .forKw) = some .forLoop := rfl
    obtain ⟨_, j, d₁⟩ := h₁.numbered i
    obtain ⟨_, k, d₂⟩ := h₂.numbered j
    obtain ⟨_, m, d₃⟩ := h₃.numbered k
    have hf := forClauses_complete (xs ++ rest) d₁ d₂ d₃ l₁ l₂ l₃ l₄
    rw [plain_stmt, List.cons_append, List.cons_append, List.append_assoc, List.cons_append,
      List.append_assoc, List.cons_append, List.append_assoc, List.cons_append]
    simp only [Cursor.next?_cons, hlead, Option.map_some, plain_ledStmt_forLoop, hf, ok_bind]
    exact .bind ((compound_admits rest hb).body .forKw m) fun b k _ => .read trivial
  | @Shape.Statement.jump _ kind l l₁ => by
    have d : Statement i [.ofWord kind.keyword l, .ofMark .semicolon l₁] (.jump kind l) i := .jump
    rw [stmt_complete hr d]
    exact .read trivial
  | @Shape.Statement.returnStmt _ us l l₁ h => by
    obtain ⟨v, j, dv⟩ := h.numbered i
    rw [stmt_complete hr (.returnStmt (l := l) dv)]
    exact .read trivial
  | @Shape.Statement.expr _ us l h => by
    obtain ⟨e, j, de⟩ := h.numbered i
    obtain ⟨t, us, rfl, -⟩ := h.begins
    rw [List.cons_append, stmt_complete hr (.expr de)]
    exact .read trivial

theorem compound_admits {ts : List Token} (rest : List Token) :
    Shape.Compound nested ts → PassesBlock nested ts rest
  | @Shape.Compound.mk _ us vs l l' hd hs => by
    refine ⟨l, _, rfl, fun i => ?_⟩
    rw [plain_block, List.append_assoc, List.append_assoc, List.singleton_append]
    refine .bind (blockDecls_admits (hs.endsDecls rest l') hd i) fun ds j _ => ?_
    refine .bind (stmts_admits rest l' j hs) fun ss k _ => ?_
    simp only [plain_expect_cons, ok_bind]
    exact .read trivial

theorem stmts_admits {ts : List Token} (rest : List Token) (l : Location) (i : Nat) :
    Shape.Statements nested ts →
      Passes nested (.ofMark .rightBrace l :: rest)
        (plain (stmts ⟨ts ++ .ofMark .rightBrace l :: rest, i⟩))
  | .nil => by
    rw [stmts_complete rest l .nil]
    exact .read trivial
  | @Shape.Statements.cons _ us vs h hs => by
    obtain ⟨t, us', hus, ht⟩ := h.begins
    have h₁ := stmt_admits (hs.nextNot_else rest l) i h
    rw [hus] at h₁
    rw [plain_stmts, List.append_assoc, hus]
    simp only [List.cons_append, List.head?_cons, startsStatement_punctuator ht,
      (startsStatement_keyword ht).1, Bool.false_eq_true, if_false]
    refine .bind h₁ fun s j _ => ?_
    exact .bind (stmts_admits rest l j hs) fun ss k _ => .read trivial

end

/-! ## Units -/

theorem external_admits {ts : List Token} (rest : List Token) (h : Shape.FileDecl nested ts)
    (i : Nat) : Passes nested rest (plain (external ⟨ts ++ rest, i⟩)) := by
  cases h with
  | decl h => exact (localDecl_admits rest h i).2
  | definition h hs hb =>
    obtain ⟨l, us, rfl, hblock⟩ := compound_admits rest hb
    rw [plain_external, List.append_assoc]
    refine .bind (heading_admits h nofun i) fun h j hh => ?_
    cases h with
    | var v => cases hh
    | function p =>
      obtain ⟨-, rfl⟩ := hh
      simp only [List.cons_append, Cursor.next?_cons, mark?_self, Option.map_some, hs, if_false]
      exact .bind (hblock j) fun b k _ => .read trivial

/-- A sentence is read to its end, unless there is a function among the parameters. -/
theorem reading_admits {ts : List Token} (h : Sentence nested ts) (i : Nat) :
    (Reading.from ⟨ts, i⟩).failure = none ∨ nested ∧
      ∃ complaint, (Reading.from ⟨ts, i⟩).failure = some complaint ∧
        complaint.isFunctionParameter = true := by
  induction h generalizing i with
  | nil =>
    rw [Reading.from_eq]
    exact .inl rfl
  | @cons us vs h hs ih =>
    have h₁ := external_admits vs h i
    rw [Reading.from_eq]
    split
    · exact .inl rfl
    · cases h₂ : plain (external ⟨us ++ vs, i⟩) with
      | error f =>
        rw [h₂] at h₁
        cases h₁ with
        | objects hn hf => exact .inr ⟨hn, _, rfl, hf⟩
      | ok x =>
        rw [h₂] at h₁
        cases h₁ with
        | @read _ j => exact ih j

end Parse

end CSubset
