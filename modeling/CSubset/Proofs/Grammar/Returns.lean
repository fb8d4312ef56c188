-- SUMMARY: The return keywords among the tokens of a derived unit are those of its return statements.
import CSubset.Proofs.Syntax.Statements

/-!
# Return keywords

Nothing but a return statement is written with the keyword `return`: expressions and the headings
of declarations have no such token. So the return keywords among the tokens of a derived unit stand
where its return statements do, in their order.
-/

namespace CSubset

/-- Whether a token is the keyword of a return statement. -/
def Token.isReturn (t : Token) : Bool := t.kind = .keyword .returnKw

/-- The positions of the return statements among statements. -/
def PlacedStmt.returnsAt (xs : List PlacedStmt) : List Location :=
  xs.filterMap fun x => x.stmt.return?.map Prod.snd

open PlacedStmt (returnsAt)

theorem PlacedStmt.returnsAt_append (xs ys : List PlacedStmt) :
    returnsAt (xs ++ ys) = returnsAt xs ++ returnsAt ys := List.filterMap_append

/-- A statement that is no return has no position among those of returns. -/
theorem PlacedStmt.returnsAt_cons {x : PlacedStmt} (hx : x.stmt.return? = none)
    (xs : List PlacedStmt) : returnsAt (x :: xs) = returnsAt xs := by
  rw [returnsAt, List.filterMap_cons_none]
  · rfl
  · rw [hx]
    rfl

namespace Grammar

/-- The positions `ls` are those of the return keywords among the tokens `ts`. -/
def Returns (ts : List Token) (ls : List Location) : Prop :=
  (ts.filter Token.isReturn).map Token.location = ls

namespace Returns

variable {ts us : List Token} {ls ms : List Location}

theorem nil : Returns [] [] := rfl

theorem append (h : Returns ts ls) (h' : Returns us ms) : Returns (ts ++ us) (ls ++ ms) := by
  rw [Returns, List.filter_append, List.map_append, h, h']

/-- Tokens without a return can stand behind the others. -/
theorem close (h : Returns ts ls) (h' : Returns us []) : Returns (ts ++ us) ls := by
  have happend := h.append h'
  rwa [List.append_nil] at happend

/-- A token that is no return can stand in front of the others. -/
theorem skip (h : Returns ts ls) {t : Token} (ht : t.isReturn = false) : Returns (t :: ts) ls := by
  rw [Returns, List.filter_cons_of_neg]
  · exact h
  · rw [ht]
    exact Bool.false_ne_true

theorem leaf {t : Token} (ht : t.isReturn = false) : Returns [t] [] := nil.skip ht

theorem cons (h : Returns ts ls) (l : Location) :
    Returns (.ofWord .returnKw l :: ts) (l :: ls) := by
  rw [Returns, List.filter_cons_of_pos rfl, List.map_cons, h]

end Returns

/-! ## Expressions -/

theorem Strings.returnless {ts : List Token} {s : String} (h : Strings ts s) : Returns ts [] := by
  induction h with
  | nil => exact .nil
  | cons _ ih => exact ih.skip rfl

mutual

theorem Assignment.returnless {i j : Nat} {ts : List Token} {e : Expr} :
    Assignment i ts e j → Returns ts []
  | .operand h => h.returnless
  | .assign ht hv => ht.returnless.append (hv.returnless.skip rfl)

theorem Binary.returnless {p i j : Nat} {ts : List Token} {e : Expr} :
    Binary p i ts e j → Returns ts []
  | .operand h => h.returnless
  | .tighter h => h.returnless
  | .operator _ hl hr => hl.returnless.append (hr.returnless.skip rfl)

theorem Unary.returnless {i j : Nat} {ts : List Token} {e : Expr} :
    Unary i ts e j → Returns ts []
  | .operand h => h.returnless
  | .operator h => h.returnless.skip rfl

theorem Suffixed.returnless {i j : Nat} {ts : List Token} {e : Expr} :
    Suffixed i ts e j → Returns ts []
  | .primary h => h.returnless
  | .call hc ha => hc.returnless.append ((ha.returnless.append (.leaf rfl)).skip rfl)
  | .index hb hs => hb.returnless.append ((hs.returnless.append (.leaf rfl)).skip rfl)

theorem Arguments.returnless {i j : Nat} {ts : List Token} {es : List Expr} :
    Arguments i ts es j → Returns ts []
  | .none => .nil
  | .some h => h.returnless

theorem ArgumentList.returnless {i j : Nat} {ts : List Token} {es : List Expr} :
    ArgumentList i ts es j → Returns ts []
  | .last h => h.returnless
  | .more h hs => h.returnless.append (hs.returnless.skip rfl)

theorem Primary.returnless {i j : Nat} {ts : List Token} {e : Expr} :
    Primary i ts e j → Returns ts []
  | .int => .leaf rfl
  | .float => .leaf rfl
  | .char => .leaf rfl
  | .string h => h.returnless.skip rfl
  | .ident => .leaf rfl
  | .group h => (h.returnless.append (.leaf rfl)).skip rfl

end

theorem Clause.returnless {i j : Nat} {ts : List Token} {e : Option Expr} (h : Clause i ts e j) :
    Returns ts [] := by
  cases h with
  | none => exact .nil
  | some h => exact h.returnless

/-! ## Declarations -/

theorem StorageClass.returnless {ts : List Token} {storage : Storage}
    (h : StorageClass ts storage) : Returns ts [] := by
  cases h with
  | none => exact .nil
  | static => exact .leaf rfl
  | external => exact .leaf rfl

theorem TypeSpecifier.returnless {ts : List Token} {type : DeclaredType}
    (h : TypeSpecifier ts type) : Returns ts [] := by
  have hbase : ∀ (b : BaseType) (l : Location), (Token.ofWord b.keyword l).isReturn = false := by
    intro b l
    cases b <;> rfl
  cases h with
  | plain => exact .leaf (hbase _ _)
  | const => exact Returns.skip (.leaf (hbase _ _)) rfl

theorem Stars.returnless {ts : List Token} {n : Nat} (h : Stars ts n) : Returns ts [] := by
  induction h with
  | nil => exact .nil
  | cons _ ih => exact ih.skip rfl

theorem Dimensions.returnless {ts : List Token} {ns : List Nat} (h : Dimensions ts ns) :
    Returns ts [] := by
  induction h with
  | nil => exact .nil
  | cons _ ih => exact ((ih.skip rfl).skip rfl).skip rfl

theorem Typed.returnless {ts : List Token} {type : DeclaredType} {name : String} {l : Location}
    (h : Typed ts type name l) : Returns ts [] := by
  cases h with
  | mk ht hp hd => exact ht.returnless.append (hp.returnless.append (hd.returnless.skip rfl))

theorem Params.returnless {ts : List Token} {ps : List Parameter} {variadic : Bool}
    (h : Params ts ps variadic) : Returns ts [] := by
  induction h with
  | last h => cases h with | mk h => exact h.returnless
  | variadic h => cases h with | mk h => exact h.returnless.append (Returns.skip (.leaf rfl) rfl)
  | more h _ ih => cases h with | mk h => exact h.returnless.append (ih.skip rfl)

theorem ParamList.returnless {ts : List Token} {ps : List Parameter} {variadic : Bool}
    (h : ParamList ts ps variadic) : Returns ts [] := by
  cases h with
  | nothing => exact .nil
  | void => exact .leaf rfl
  | params h => exact h.returnless

theorem VarHeading.returnless {ts : List Token} {v : Variable} (h : VarHeading ts v) :
    Returns ts [] := by
  cases h with
  | mk hs h => exact hs.returnless.append h.returnless

theorem FunHeading.returnless {ts : List Token} {p : Prototype} (h : FunHeading ts p) :
    Returns ts [] := by
  cases h with
  | mk hs ht hp hq =>
    exact hs.returnless.append (ht.returnless.append (hp.returnless.append
      (((hq.returnless.append (.leaf rfl)).skip rfl).skip rfl)))

theorem LocalDecl.returnless {i j : Nat} {ts : List Token} {d : Decl} (h : LocalDecl i ts d j) :
    Returns ts [] := by
  cases h with
  | var h => exact h.returnless.append (.leaf rfl)
  | initialized h he =>
    exact h.returnless.append ((he.returnless.append (.leaf rfl)).skip rfl)
  | prototype h => exact h.returnless.append (.leaf rfl)

theorem Many.returnless {i j : Nat} {ts : List Token} {ds : List Decl}
    (h : Many LocalDecl i ts ds j) : Returns ts [] := by
  induction h with
  | nil => exact .nil
  | cons h _ ih => exact h.returnless.append ih

/-! ## Statements and units -/

mutual

theorem Statement.returns {i j : Nat} {ts : List Token} {s : Stmt} (p : Prototype)
    (around : List Stmt) : Statement i ts s j → Returns ts (returnsAt (s.placed p around))
  | .block h => by
    rw [Stmt.placed, PlacedStmt.returnsAt_cons rfl]
    exact h.returns p _
  | .ifThen he hb => by
    rw [Stmt.placed, PlacedStmt.returnsAt_cons rfl]
    exact ((he.returnless.append ((hb.returns p _).skip rfl)).skip rfl).skip rfl
  | .ifElse he hb ha => by
    rw [Stmt.placed, PlacedStmt.returnsAt_cons rfl, PlacedStmt.returnsAt_append]
    exact ((he.returnless.append (((hb.returns p _).append
      ((ha.returns p _).skip rfl)).skip rfl)).skip rfl).skip rfl
  | .whileLoop he hb => by
    rw [Stmt.placed, PlacedStmt.returnsAt_cons rfl]
    exact ((he.returnless.append ((hb.returns p _).skip rfl)).skip rfl).skip rfl
  | .forLoop h₁ h₂ h₃ hb => by
    rw [Stmt.placed, PlacedStmt.returnsAt_cons rfl]
    exact ((h₁.returnless.append ((h₂.returnless.append ((h₃.returnless.append
      ((hb.returns p _).skip rfl)).skip rfl)).skip rfl)).skip rfl).skip rfl
  | @Statement.jump _ kind _ _ => by
    cases kind <;> exact Returns.skip (.leaf rfl) rfl
  | .returnStmt h => (h.returnless.append (.leaf rfl)).cons _
  | .expr h => h.returnless.append (.leaf rfl)

theorem Statements.returns {i j : Nat} {ts : List Token} {ss : List Stmt} (p : Prototype)
    (around : List Stmt) :
    Statements i ts ss j → Returns ts (returnsAt (Stmt.placedAll p around ss))
  | .nil => .nil
  | .cons h hs => by
    rw [Stmt.placedAll, PlacedStmt.returnsAt_append]
    exact (h.returns p around).append (hs.returns p around)

theorem Compound.returns {i j : Nat} {ts : List Token} {b : Block} (p : Prototype)
    (around : List Stmt) : Compound i ts b j → Returns ts (returnsAt (b.placed p around))
  | .mk hd hs => by
    rw [Block.placed]
    exact (hd.returnless.append ((hs.returns p around).close (.leaf rfl))).skip rfl

end

theorem Many.returns {α : Type} {phrase : Nat → List Token → α → Nat → Prop}
    {placed : α → List PlacedStmt} {i j : Nat} {ts : List Token} {xs : List α}
    (h : Many phrase i ts xs j)
    (hphrase : ∀ i j ts x, phrase i ts x j → Returns ts (returnsAt (placed x))) :
    Returns ts (returnsAt (xs.flatMap placed)) := by
  induction h with
  | nil => exact .nil
  | cons h _ ih =>
    rw [List.flatMap_cons, PlacedStmt.returnsAt_append]
    exact (hphrase _ _ _ _ h).append ih

theorem FileDecl.returns {i j : Nat} {ts : List Token} {d : External} (h : FileDecl i ts d j) :
    Returns ts (returnsAt d.placed) := by
  cases h with
  | decl h => exact h.returnless
  | definition h _ hb => exact h.returnless.append (hb.returns _ [])

/-- The return keywords in a derived unit stand where its return statements do. -/
theorem TranslationUnit.returns {ts : List Token} {u : CompilationUnit}
    (h : TranslationUnit ts u) : Returns ts (returnsAt u.placed) := by
  obtain ⟨j, h⟩ := h
  exact h.returns fun _ _ _ _ h => h.returns

end Grammar

end CSubset
