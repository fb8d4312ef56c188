-- SUMMARY: The nodes of a derived unit are numbered one by one, and its identifiers stand in the tokens in order.
import CSubset.Proofs.Grammar.Unit
import CSubset.Proofs.Syntax.Nodes

/-!
# Node numbers

A derivation numbers the nodes from `i` up to `j` in the order of `Expr.nodes`, and leaves out
none of the numbers between. Besides, the identifiers among the nodes are tokens of the phrase
and stand there in the same order. `Carries` says both of a list of nodes, and `Completes` breaks
the tokens of any phrase down into the expressions that end in them.
-/

namespace CSubset

/-- The token that an identifier node is read from. -/
def Expr.identToken? : Expr → Option Token
  | .ident a name => some ⟨.identifier name, a.location⟩
  | _ => none

namespace Grammar

/-- The tokens carry these nodes: numbered from `i` up to `j`, and with the identifiers among
them in place. -/
structure Carries (i : Nat) (ts : List Token) (nodes : List Expr) (j : Nat) : Prop where
  count : j = i + nodes.length
  ids : nodes.map Expr.id = List.range' i nodes.length
  idents : (nodes.filterMap Expr.identToken?).Sublist ts

namespace Carries

variable {i j k : Nat} {ts us : List Token} {xs ys : List Expr}

theorem nil (i : Nat) (ts : List Token) : Carries i ts [] i := ⟨rfl, rfl, List.nil_sublist ts⟩

theorem append (h : Carries i ts xs j) (h' : Carries j us ys k) :
    Carries i (ts ++ us) (xs ++ ys) k := by
  refine ⟨?_, ?_, ?_⟩
  · rw [h'.count, h.count, List.length_append, Nat.add_assoc]
  · rw [List.map_append, h.ids, h'.ids, h.count, List.length_append, List.range'_append_1]
  · rw [List.filterMap_append]
    exact h.idents.append h'.idents

/-- Tokens that carry no nodes can stand around and between the others. -/
theorem widen (h : Carries i ts xs j) (hts : ts.Sublist us) : Carries i us xs j :=
  ⟨h.count, h.ids, h.idents.trans hts⟩

/-- A node takes the next number behind those of its parts. -/
theorem node {e : Expr} (h : Carries i ts xs j) (hid : e.id = j) (he : e.identToken? = none) :
    Carries i ts (xs ++ [e]) (j + 1) := by
  refine ⟨?_, ?_, ?_⟩
  · rw [h.count, List.length_append, List.length_singleton, Nat.add_assoc]
  · rw [List.map_append, List.map_singleton, h.ids, hid, h.count, List.length_append,
      List.length_singleton, List.range'_1_concat]
  · simpa [List.filterMap_append, he] using h.idents

theorem ident (i : Nat) (name : String) (l : Location) :
    Carries i [⟨.identifier name, l⟩] [.ident ⟨i, l⟩ name] (i + 1) :=
  ⟨rfl, rfl, List.Sublist.refl _⟩

end Carries

/-! ## Expressions -/

mutual

theorem Assignment.carries {i j : Nat} {ts : List Token} {e : Expr} :
    Assignment i ts e j → Carries i ts e.nodes j
  | .operand h => h.carries
  | .assign ht hv =>
    ((ht.carries.append hv.carries).node rfl rfl).widen
      ((List.Sublist.refl _).append (List.sublist_cons_self _ _))

theorem Binary.carries {p i j : Nat} {ts : List Token} {e : Expr} :
    Binary p i ts e j → Carries i ts e.nodes j
  | .operand h => h.carries
  | .tighter h => h.carries
  | .operator _ hl hr =>
    ((hl.carries.append hr.carries).node rfl rfl).widen
      ((List.Sublist.refl _).append (List.sublist_cons_self _ _))

theorem Unary.carries {i j : Nat} {ts : List Token} {e : Expr} :
    Unary i ts e j → Carries i ts e.nodes j
  | .operand h => h.carries
  | .operator h => (h.carries.node rfl rfl).widen (List.sublist_cons_self _ _)

theorem Suffixed.carries {i j : Nat} {ts : List Token} {e : Expr} :
    Suffixed i ts e j → Carries i ts e.nodes j
  | .primary h => h.carries
  | .call hc ha =>
    ((hc.carries.append ha.carries).node rfl rfl).widen
      ((List.Sublist.refl _).append ((List.sublist_append_left _ _).cons _))
  | .index hb hs =>
    ((hb.carries.append hs.carries).node rfl rfl).widen
      ((List.Sublist.refl _).append ((List.sublist_append_left _ _).cons _))

theorem Arguments.carries {i j : Nat} {ts : List Token} {es : List Expr} :
    Arguments i ts es j → Carries i ts (Expr.nodesAll es) j
  | .none => .nil _ _
  | .some h => h.carries

theorem ArgumentList.carries {i j : Nat} {ts : List Token} {es : List Expr} :
    ArgumentList i ts es j → Carries i ts (Expr.nodesAll es) j
  | .last h => by
    rw [Expr.nodesAll, Expr.nodesAll, List.append_nil]
    exact h.carries
  | .more h hs =>
    (h.carries.append hs.carries).widen
      ((List.Sublist.refl _).append (List.sublist_cons_self _ _))

theorem Primary.carries {i j : Nat} {ts : List Token} {e : Expr} :
    Primary i ts e j → Carries i ts e.nodes j
  | .int => (Carries.nil _ _).node rfl rfl
  | .float => (Carries.nil _ _).node rfl rfl
  | .char => (Carries.nil _ _).node rfl rfl
  | .string _ => (Carries.nil _ _).node rfl rfl
  | .ident => .ident _ _ _
  | .group h => h.carries.widen ((List.sublist_append_left _ _).cons _)

end

/-! ## Completed expressions -/

/-- The tokens complete these expressions, one behind the other and perhaps with other tokens
around them; their nodes are numbered from `i` up to `j`. -/
inductive Completes : Nat → List Token → List Expr → Nat → Prop where
  | nil {i : Nat} : Completes i [] [] i
  | skip {i j : Nat} {ts : List Token} {es : List Expr} (t : Token) (h : Completes i ts es j) :
      Completes i (t :: ts) es j
  | expr {i j k : Nat} {ts us : List Token} {e : Expr} {es : List Expr} (he : Assignment i ts e j)
      (h : Completes j us es k) : Completes i (ts ++ us) (e :: es) k

namespace Completes

variable {i j k : Nat} {ts us : List Token} {ds es : List Expr} {e : Expr}

theorem none (i : Nat) : ∀ ts, Completes i ts [] i
  | [] => .nil
  | t :: ts => .skip t (none i ts)

theorem append (h : Completes i ts ds j) (h' : Completes j us es k) :
    Completes i (ts ++ us) (ds ++ es) k := by
  induction h with
  | nil => exact h'
  | skip t _ ih => exact .skip t (ih h')
  | expr he _ ih =>
    rw [List.append_assoc]
    exact .expr he (ih h')

/-- Tokens that complete nothing can stand behind the others. -/
theorem close (h : Completes i ts es j) (us : List Token) : Completes i (ts ++ us) es j := by
  have hboth := h.append (none j us)
  rwa [List.append_nil] at hboth

/-- Tokens that complete nothing can stand in front of the others. -/
theorem behind (h : Completes i ts es j) (us : List Token) : Completes i (us ++ ts) es j :=
  (none i us).append h

theorem single (h : Assignment i ts e j) : Completes i ts [e] j := by
  have hsingle := expr h (.nil (i := j))
  rwa [List.append_nil] at hsingle

theorem carries (h : Completes i ts es j) : Carries i ts (es.flatMap Expr.nodes) j := by
  induction h with
  | nil => exact .nil _ _
  | skip t _ ih => exact ih.widen (List.sublist_cons_self _ _)
  | expr he _ ih =>
    rw [List.flatMap_cons]
    exact he.carries.append ih

end Completes

/-! ## Declarations and statements -/

theorem ArgumentList.completes {i j : Nat} {ts : List Token} {es : List Expr} :
    ArgumentList i ts es j → Completes i ts es j
  | .last h => .single h
  | .more h hs => .expr h (hs.completes.skip _)

theorem LocalDecl.completes {i j : Nat} {ts : List Token} {d : Decl} (h : LocalDecl i ts d j) :
    Completes i ts d.exprs j := by
  cases h with
  | var h =>
    cases h with
    | mk => exact .none _ _
  | initialized _ he => exact (((Completes.single he).close _).skip _).behind _
  | prototype => exact .none _ _

theorem Many.completes {α : Type} {phrase : Nat → List Token → α → Nat → Prop}
    {exprs : α → List Expr} {i j : Nat} {ts : List Token} {xs : List α}
    (h : Many phrase i ts xs j)
    (hphrase : ∀ i j ts x, phrase i ts x j → Completes i ts (exprs x) j) :
    Completes i ts (xs.flatMap exprs) j := by
  induction h with
  | nil => exact .nil
  | cons h _ ih => exact (hphrase _ _ _ _ h).append ih

theorem Clause.completes {i j : Nat} {ts : List Token} {e : Option Expr} (h : Clause i ts e j) :
    Completes i ts e.toList j := by
  cases h with
  | none => exact .nil
  | some h => exact .single h

mutual

theorem Statement.completes {i j : Nat} {ts : List Token} {s : Stmt} :
    Statement i ts s j → Completes i ts s.exprs j
  | .block h => h.completes
  | .ifThen he hb => ((Completes.single he).append (hb.completes.skip _)).behind [_, _]
  | .ifElse he hb ha => ((Completes.single he).append
      ((hb.completes.append (ha.completes.skip _)).skip _)).behind [_, _]
  | .whileLoop he hb => ((Completes.single he).append (hb.completes.skip _)).behind [_, _]
  | .forLoop h₁ h₂ h₃ hb => (h₁.completes.append ((h₂.completes.append
      ((h₃.completes.append (hb.completes.skip _)).skip _)).skip _)).behind [_, _]
  | .jump => .none _ _
  | .returnStmt h => (h.completes.close _).skip _
  | .expr h => (Completes.single h).close _

theorem Statements.completes {i j : Nat} {ts : List Token} {ss : List Stmt} :
    Statements i ts ss j → Completes i ts (Stmt.exprsAll ss) j
  | .nil => .nil
  | .cons h hs => h.completes.append hs.completes

theorem Compound.completes {i j : Nat} {ts : List Token} {b : Block} :
    Compound i ts b j → Completes i ts b.exprs j
  | .mk hd hs =>
    ((hd.completes fun _ _ _ _ h => h.completes).append (hs.completes.close _)).skip _

end

theorem FileDecl.completes {i j : Nat} {ts : List Token} {d : External} (h : FileDecl i ts d j) :
    Completes i ts d.exprs j := by
  cases h with
  | decl h => exact h.completes
  | definition _ _ hb => exact hb.completes.behind _

/-- The nodes of a derived unit are numbered from 0 in the order in which they are complete. -/
theorem TranslationUnit.carries {ts : List Token} {u : CompilationUnit}
    (h : TranslationUnit ts u) : ∃ n, Carries 0 ts (u.exprs.flatMap Expr.nodes) n := by
  obtain ⟨j, h⟩ := h
  exact ⟨j, (h.completes fun _ _ _ _ h => h.completes).carries⟩

end Grammar

end CSubset
