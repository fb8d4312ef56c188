-- SUMMARY: The names in a derived unit are the identifiers among its tokens, in their order.
import CSubset.Proofs.Grammar.Unit
import CSubset.Proofs.Syntax.Names

/-!
# Names and identifiers

A grammar takes names from identifiers and from nothing else, and leaves none of them out. So the
names in a unit, from left to right, are the identifiers among the tokens that form it.
-/

namespace CSubset

/-- The name that a token is, if it is an identifier. -/
def Token.name? (t : Token) : Option String :=
  match t.kind with
  | .identifier name => some name
  | _ => none

theorem Token.name?_eq_some {t : Token} {name : String} (h : t.name? = some name) :
    t.kind = .identifier name := by
  unfold name? at h
  split at h
  · next hkind => exact hkind.trans (congrArg _ (Option.some.inj h))
  · cases h

namespace Grammar

/-- The names of the identifiers among the tokens `ts` are `names`, in this order. -/
def Identifiers (ts : List Token) (names : List String) : Prop := ts.filterMap Token.name? = names

namespace Identifiers

variable {ts us : List Token} {xs ys : List String}

theorem nil : Identifiers [] [] := rfl

theorem append (h : Identifiers ts xs) (h' : Identifiers us ys) :
    Identifiers (ts ++ us) (xs ++ ys) := by
  rw [Identifiers, List.filterMap_append, h, h']

/-- Tokens without an identifier can stand behind the others. -/
theorem close (h : Identifiers ts xs) (h' : Identifiers us []) : Identifiers (ts ++ us) xs := by
  have happend := h.append h'
  rwa [List.append_nil] at happend

/-- A token that is no identifier can stand in front of the others. -/
theorem skip (h : Identifiers ts xs) {t : Token} (ht : t.name? = none) :
    Identifiers (t :: ts) xs := by
  rw [Identifiers, List.filterMap_cons_none ht]
  exact h

theorem leaf {t : Token} (ht : t.name? = none) : Identifiers [t] [] := nil.skip ht

theorem cons (h : Identifiers ts xs) (name : String) (l : Location) :
    Identifiers (⟨.identifier name, l⟩ :: ts) (name :: xs) := by
  exact congrArg (name :: ·) h

end Identifiers

/-! ## Expressions -/

theorem Strings.names {ts : List Token} {s : String} (h : Strings ts s) : Identifiers ts [] := by
  induction h with
  | nil => exact .nil
  | cons _ ih => exact ih.skip rfl

mutual

theorem Assignment.names {i j : Nat} {ts : List Token} {e : Expr} :
    Assignment i ts e j → Identifiers ts e.names
  | .operand h => h.names
  | .assign ht hv => ht.names.append (hv.names.skip rfl)

theorem Binary.names {p i j : Nat} {ts : List Token} {e : Expr} :
    Binary p i ts e j → Identifiers ts e.names
  | .operand h => h.names
  | .tighter h => h.names
  | .operator _ hl hr => hl.names.append (hr.names.skip rfl)

theorem Unary.names {i j : Nat} {ts : List Token} {e : Expr} :
    Unary i ts e j → Identifiers ts e.names
  | .operand h => h.names
  | .operator h => h.names.skip rfl

theorem Suffixed.names {i j : Nat} {ts : List Token} {e : Expr} :
    Suffixed i ts e j → Identifiers ts e.names
  | .primary h => h.names
  | .call hc ha => hc.names.append ((ha.names.close (.leaf rfl)).skip rfl)
  | .index hb hs => hb.names.append ((hs.names.close (.leaf rfl)).skip rfl)

theorem Arguments.names {i j : Nat} {ts : List Token} {es : List Expr} :
    Arguments i ts es j → Identifiers ts (Expr.namesAll es)
  | .none => .nil
  | .some h => h.names

theorem ArgumentList.names {i j : Nat} {ts : List Token} {es : List Expr} :
    ArgumentList i ts es j → Identifiers ts (Expr.namesAll es)
  | .last h => by simpa [Expr.namesAll] using h.names
  | .more h hs => h.names.append (hs.names.skip rfl)

theorem Primary.names {i j : Nat} {ts : List Token} {e : Expr} :
    Primary i ts e j → Identifiers ts e.names
  | .int => .leaf rfl
  | .float => .leaf rfl
  | .char => .leaf rfl
  | .string h => h.names.skip rfl
  | .ident => Identifiers.nil.cons _ _
  | .group h => (h.names.close (.leaf rfl)).skip rfl

end

theorem Clause.names {i j : Nat} {ts : List Token} {e : Option Expr} (h : Clause i ts e j) :
    Identifiers ts (Expr.optionalNames e) := by
  cases h with
  | none => exact .nil
  | some h => exact h.names

/-! ## Declarations -/

theorem StorageClass.nameless {ts : List Token} {storage : Storage}
    (h : StorageClass ts storage) : Identifiers ts [] := by
  cases h with
  | none => exact .nil
  | static => exact .leaf rfl
  | external => exact .leaf rfl

theorem TypeSpecifier.nameless {ts : List Token} {type : DeclaredType}
    (h : TypeSpecifier ts type) : Identifiers ts [] := by
  cases h with
  | plain => exact .leaf rfl
  | const => exact Identifiers.skip (.leaf rfl) rfl

theorem Stars.nameless {ts : List Token} {n : Nat} (h : Stars ts n) : Identifiers ts [] := by
  induction h with
  | nil => exact .nil
  | cons _ ih => exact ih.skip rfl

theorem Dimensions.nameless {ts : List Token} {ns : List Nat} (h : Dimensions ts ns) :
    Identifiers ts [] := by
  induction h with
  | nil => exact .nil
  | cons _ ih => exact ((ih.skip rfl).skip rfl).skip rfl

theorem Typed.names {ts : List Token} {type : DeclaredType} {name : String} {l : Location}
    (h : Typed ts type name l) : Identifiers ts [name] := by
  cases h with
  | mk ht hp hd => exact ht.nameless.append (hp.nameless.append (hd.nameless.cons _ _))

theorem Param.names {ts : List Token} {p : Parameter} (h : Param ts p) :
    Identifiers ts [p.name] := by
  cases h with
  | mk h => exact h.names

theorem Params.names {ts : List Token} {ps : List Parameter} {variadic : Bool}
    (h : Params ts ps variadic) : Identifiers ts (ps.map Parameter.name) := by
  induction h with
  | last h => exact h.names
  | variadic h => exact h.names.close (Identifiers.skip (.leaf rfl) rfl)
  | more h _ ih => exact h.names.append (ih.skip rfl)

theorem ParamList.names {ts : List Token} {ps : List Parameter} {variadic : Bool}
    (h : ParamList ts ps variadic) : Identifiers ts (ps.map Parameter.name) := by
  cases h with
  | nothing => exact .nil
  | void => exact .leaf rfl
  | params h => exact h.names

theorem VarHeading.names {ts : List Token} {v : Variable} (h : VarHeading ts v) :
    Identifiers ts [v.name] := by
  cases h with
  | mk hs h => exact hs.nameless.append h.names

theorem VarHeading.initializer {ts : List Token} {v : Variable} (h : VarHeading ts v) :
    v.initializer = none := by
  cases h with
  | mk => rfl

theorem FunHeading.names {ts : List Token} {p : Prototype} (h : FunHeading ts p) :
    Identifiers ts p.names := by
  cases h with
  | mk hs ht hp hq =>
    exact hs.nameless.append (ht.nameless.append (hp.nameless.append
      (((hq.names.close (.leaf rfl)).skip rfl).cons _ _)))

theorem LocalDecl.names {i j : Nat} {ts : List Token} {d : Decl} (h : LocalDecl i ts d j) :
    Identifiers ts d.names := by
  cases h with
  | var h =>
    rw [Decl.names, h.initializer]
    exact h.names.close (.leaf rfl)
  | initialized h he => exact h.names.append ((he.names.close (.leaf rfl)).skip rfl)
  | prototype h => exact h.names.close (.leaf rfl)

theorem Many.names {α : Type} {phrase : Nat → List Token → α → Nat → Prop}
    {names : α → List String} {i j : Nat} {ts : List Token} {xs : List α}
    (h : Many phrase i ts xs j) (hphrase : ∀ i j ts x, phrase i ts x j → Identifiers ts (names x)) :
    Identifiers ts (xs.flatMap names) := by
  induction h with
  | nil => exact .nil
  | cons h _ ih =>
    rw [List.flatMap_cons]
    exact (hphrase _ _ _ _ h).append ih

/-! ## Statements and units -/

mutual

theorem Statement.names {i j : Nat} {ts : List Token} {s : Stmt} :
    Statement i ts s j → Identifiers ts s.names
  | .block h => h.names
  | .ifThen he hb => ((he.names.append (hb.names.skip rfl)).skip rfl).skip rfl
  | .ifElse he hb ha =>
    ((he.names.append ((hb.names.append (ha.names.skip rfl)).skip rfl)).skip rfl).skip rfl
  | .whileLoop he hb => ((he.names.append (hb.names.skip rfl)).skip rfl).skip rfl
  | .forLoop h₁ h₂ h₃ hb =>
    ((h₁.names.append ((h₂.names.append ((h₃.names.append
      (hb.names.skip rfl)).skip rfl)).skip rfl)).skip rfl).skip rfl
  | .jump => Identifiers.skip (.leaf rfl) rfl
  | .returnStmt h => (h.names.close (.leaf rfl)).skip rfl
  | .expr h => h.names.close (.leaf rfl)

theorem Statements.names {i j : Nat} {ts : List Token} {ss : List Stmt} :
    Statements i ts ss j → Identifiers ts (Stmt.namesAll ss)
  | .nil => .nil
  | .cons h hs => h.names.append hs.names

theorem Compound.names {i j : Nat} {ts : List Token} {b : Block} :
    Compound i ts b j → Identifiers ts b.names
  | .mk hd hs =>
    ((hd.names fun _ _ _ _ h => h.names).append (hs.names.close (.leaf rfl))).skip rfl

end

theorem FileDecl.names {i j : Nat} {ts : List Token} {d : External} (h : FileDecl i ts d j) :
    Identifiers ts d.names := by
  cases h with
  | decl h => exact h.names
  | definition h _ hb => exact h.names.append hb.names

/-- The names in a derived unit are the identifiers among its tokens. -/
theorem TranslationUnit.names {ts : List Token} {u : CompilationUnit} (h : TranslationUnit ts u) :
    Identifiers ts u.names := by
  obtain ⟨j, h⟩ := h
  exact h.names fun _ _ _ _ h => h.names

end Grammar

end CSubset
