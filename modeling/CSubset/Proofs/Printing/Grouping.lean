-- SUMMARY: Parentheses around the tokens of an expression node change nothing but positions.
import Mathlib.Tactic
import CSubset.Proofs.Printing.RoundTrip

/-!
# Redundant parentheses

Every expression node of a derived phrase has its tokens, and these can be put in parentheses
without a change to the numbers or the shape of anything: an expression in parentheses stands
wherever the expression itself does. What does change is the position of an expression statement
that now begins with a parenthesis.
-/

namespace CSubset

open Grammar

/-- The tokens of the node `x` are found among `ts`, and `P` holds of `ts` with these in
parentheses. -/
def Groups (x : Expr) (ts : List Token) (P : List Token → Prop) : Prop :=
  ∃ a b c, ts = a ++ (b ++ c) ∧ (∃ i j, Assignment i b x j) ∧
    ∀ l l', P (a ++ .ofMark .leftParen l :: (b ++ .ofMark .rightParen l' :: c))

namespace Groups

variable {x : Expr} {ts : List Token} {P Q : List Token → Prop}

/-- The tokens of the node are all tokens there are. -/
theorem whole {i j : Nat} (h : Assignment i ts x j)
    (hP : ∀ us, Primary i us x j → P us) : Groups x ts P :=
  ⟨[], ts, [], by simp, ⟨i, j, h⟩, fun _ _ => hP _ (.group h)⟩

theorem imp (h : Groups x ts P) (hP : ∀ us, P us → Q us) : Groups x ts Q := by
  obtain ⟨a, b, c, hts, hx, hb⟩ := h
  exact ⟨a, b, c, hts, hx, fun l l' => hP _ (hb l l')⟩

/-- The tokens of the node are found in front of others. -/
theorem left {us : List Token} (h : Groups x ts fun vs => Q (vs ++ us)) :
    Groups x (ts ++ us) Q := by
  obtain ⟨a, b, c, rfl, hx, hb⟩ := h
  refine ⟨a, b, c ++ us, by simp, hx, fun l l' => ?_⟩
  simpa using hb l l'

/-- The tokens of the node are found behind others. -/
theorem right {us : List Token} (h : Groups x ts fun vs => Q (us ++ vs)) :
    Groups x (us ++ ts) Q := by
  obtain ⟨a, b, c, rfl, hx, hb⟩ := h
  refine ⟨us ++ a, b, c, by simp, hx, fun l l' => ?_⟩
  simpa using hb l l'

/-- The tokens of the node are found behind one other token. -/
theorem skip {t : Token} (h : Groups x ts fun vs => Q (t :: vs)) : Groups x (t :: ts) Q :=
  show Groups x ([t] ++ ts) Q from right h

end Groups

namespace Grammar

variable {x : Expr}

theorem Primary.unary {i j : Nat} {ts : List Token} {e : Expr} (h : Primary i ts e j) :
    Unary i ts e j := .operand (.primary h)

theorem Primary.binary {p i j : Nat} {ts : List Token} {e : Expr} (h : Primary i ts e j)
    (hp : p ≤ 7) : Binary p i ts e j := (Binary.operand h.unary).mono hp

theorem Primary.assignment {i j : Nat} {ts : List Token} {e : Expr} (h : Primary i ts e j) :
    Assignment i ts e j := .operand (h.binary (by decide))

theorem Suffixed.assignment {i j : Nat} {ts : List Token} {e : Expr} (h : Suffixed i ts e j) :
    Assignment i ts e j := .operand ((Binary.operand (.operand h)).mono (by decide))

theorem Unary.assignment {i j : Nat} {ts : List Token} {e : Expr} (h : Unary i ts e j) :
    Assignment i ts e j := .operand ((Binary.operand h).mono (by decide))

/-! ## Expressions -/

theorem mem_nodes_pair {xs ys : List Expr} {e : Expr} :
    x ∈ xs ++ ys ++ [e] ↔ x ∈ xs ∨ x ∈ ys ∨ x = e := by
  simp

theorem stratum_bounds {op : BinaryOp} {p : Nat} (h : op ∈ stratum p) : 0 < p ∧ p ≤ 6 := by
  rw [← mem_stratum.mp h]
  exact ⟨op.precedence_pos, op.precedence_le⟩

/-- A primary expression that is one node goes into the parentheses as a whole. -/
theorem leaf_groups {i j : Nat} {ts : List Token} {e : Expr} (hx : x ∈ [e])
    (h : Primary i ts e j) : Groups x ts fun us => Primary i us e j := by
  obtain rfl := List.mem_singleton.mp hx
  exact .whole h.assignment fun _ h => h

mutual

theorem Assignment.groups {i j : Nat} {ts : List Token} {e : Expr} (hx : x ∈ e.nodes) :
    Assignment i ts e j → Groups x ts fun us => Assignment i us e j
  | .operand h => (h.groups hx).imp fun _ h => .operand h
  | .assign ht hv => by
    rcases mem_nodes_pair.mp hx with hx | hx | rfl
    · exact .left ((ht.groups hx).imp fun _ ht => .assign ht hv)
    · exact .right (.skip ((hv.groups hx).imp fun _ hv => .assign ht hv))
    · exact .whole (.assign ht hv) fun _ h => h.assignment

theorem Binary.groups {p i j : Nat} {ts : List Token} {e : Expr} (hx : x ∈ e.nodes) :
    Binary p i ts e j → Groups x ts fun us => Binary p i us e j
  | .operand h => (h.groups hx).imp fun _ h => .operand h
  | .tighter h => (h.groups hx).imp fun _ h => .tighter h
  | .operator hop hl hr => by
    obtain ⟨hpos, hle⟩ := stratum_bounds hop
    rcases mem_nodes_pair.mp hx with hx | hx | rfl
    · exact .left ((hl.groups hx).imp fun _ hl => .operator hop hl hr)
    · exact .right (.skip ((hr.groups hx).imp fun _ hr => .operator hop hl hr))
    · exact .whole (.operand ((Binary.operator hop hl hr).mono (by omega)))
        fun _ h => h.binary (by omega)

theorem Unary.groups {i j : Nat} {ts : List Token} {e : Expr} (hx : x ∈ e.nodes) :
    Unary i ts e j → Groups x ts fun us => Unary i us e j
  | .operand h => (h.groups hx).imp fun _ h => .operand h
  | .operator h => by
    rcases List.mem_append.mp hx with hx | hx
    · exact .skip ((h.groups hx).imp fun _ h => .operator h)
    · obtain rfl := List.mem_singleton.mp hx
      exact .whole (Unary.operator h).assignment fun _ h => h.unary

theorem Suffixed.groups {i j : Nat} {ts : List Token} {e : Expr} (hx : x ∈ e.nodes) :
    Suffixed i ts e j → Groups x ts fun us => Suffixed i us e j
  | .primary h => (h.groups hx).imp fun _ h => .primary h
  | .call hc ha => by
    rcases mem_nodes_pair.mp hx with hx | hx | rfl
    · exact .left ((hc.groups hx).imp fun _ hc => .call hc ha)
    · exact .right (.skip (.left ((ha.groups hx).imp fun _ ha => .call hc ha)))
    · exact .whole (Suffixed.call hc ha).assignment fun _ h => .primary h
  | .index hb hs => by
    rcases mem_nodes_pair.mp hx with hx | hx | rfl
    · exact .left ((hb.groups hx).imp fun _ hb => .index hb hs)
    · exact .right (.skip (.left ((hs.groups hx).imp fun _ hs => .index hb hs)))
    · exact .whole (Suffixed.index hb hs).assignment fun _ h => .primary h

theorem Arguments.groups {i j : Nat} {ts : List Token} {es : List Expr}
    (hx : x ∈ Expr.nodesAll es) : Arguments i ts es j → Groups x ts fun us => Arguments i us es j
  | .none => by cases hx
  | .some h => (h.groups hx).imp fun _ h => .some h

theorem ArgumentList.groups {i j : Nat} {ts : List Token} {es : List Expr}
    (hx : x ∈ Expr.nodesAll es) :
    ArgumentList i ts es j → Groups x ts fun us => ArgumentList i us es j
  | .last h => by
    rw [Expr.nodesAll, Expr.nodesAll, List.append_nil] at hx
    exact (h.groups hx).imp fun _ h => .last h
  | .more h hs => by
    rcases List.mem_append.mp hx with hx | hx
    · exact .left ((h.groups hx).imp fun _ h => .more h hs)
    · exact .right (.skip ((hs.groups hx).imp fun _ hs => .more h hs))

theorem Primary.groups {i j : Nat} {ts : List Token} {e : Expr} (hx : x ∈ e.nodes) :
    Primary i ts e j → Groups x ts fun us => Primary i us e j
  | .group h => .skip (.left ((h.groups hx).imp fun _ h => .group h))
  | .int => leaf_groups hx .int
  | .float => leaf_groups hx .float
  | .char => leaf_groups hx .char
  | .string h => leaf_groups hx (.string h)
  | .ident => leaf_groups hx .ident

end

/-! ## Declarations and statements -/

/-- The tokens form a phrase that is the same as `y` up to positions. -/
def Alike {α : Type} (phrase : Nat → List Token → α → Nat → Prop) (relabel : α → α) (i : Nat)
    (y : α) (j : Nat) (ts : List Token) : Prop :=
  ∃ z, phrase i ts z j ∧ relabel z = relabel y

theorem Clause.groups {i j : Nat} {ts : List Token} {e : Option Expr}
    (hx : x ∈ e.toList.flatMap Expr.nodes) (h : Clause i ts e j) :
    Groups x ts fun us => Clause i us e j := by
  cases h with
  | none => cases hx
  | some h =>
    rw [Option.toList_some, List.flatMap_singleton] at hx
    exact (h.groups hx).imp fun _ h => .some h

theorem LocalDecl.groups {i j : Nat} {ts : List Token} {d : Decl}
    (hx : x ∈ d.exprs.flatMap Expr.nodes) (h : LocalDecl i ts d j) :
    Groups x ts (Alike LocalDecl (Decl.relabel .unplaced) i d j) := by
  cases h with
  | prototype => cases hx
  | var h =>
    cases h with
    | mk => cases hx
  | initialized h he =>
    rw [Decl.exprs, Option.toList_some, List.flatMap_singleton] at hx
    exact .right (.skip (.left ((he.groups hx).imp fun _ he => ⟨_, .initialized h he, rfl⟩)))

theorem Many.groups {α : Type} {phrase : Nat → List Token → α → Nat → Prop}
    {exprs : α → List Expr} (relabel : α → α) {i j : Nat} {ts : List Token} {ys : List α}
    (h : Many phrase i ts ys j) (hx : x ∈ (ys.flatMap exprs).flatMap Expr.nodes)
    (hphrase : ∀ i j ts y, x ∈ (exprs y).flatMap Expr.nodes → phrase i ts y j →
      Groups x ts (Alike phrase relabel i y j)) :
    Groups x ts (Alike (Many phrase) (List.map relabel) i ys j) := by
  induction h with
  | nil => cases hx
  | cons h hs ih =>
    rw [List.flatMap_cons, List.flatMap_append] at hx
    rcases List.mem_append.mp hx with hx | hx
    · refine .left ((hphrase _ _ _ _ hx h).imp ?_)
      rintro us ⟨z, hz, heq⟩
      exact ⟨_, .cons hz hs, by rw [List.map_cons, heq]; rfl⟩
    · refine .right ((ih hx).imp ?_)
      rintro us ⟨zs, hzs, heq⟩
      exact ⟨_, .cons h hzs, by rw [List.map_cons, heq]; rfl⟩

mutual

theorem Statement.groups {i j : Nat} {ts : List Token} {s : Stmt}
    (hx : x ∈ s.exprs.flatMap Expr.nodes) :
    Statement i ts s j → Groups x ts (Alike Statement (Stmt.relabel .unplaced) i s j)
  | .block h => by
    refine (h.groups hx).imp ?_
    rintro us ⟨b, hb, heq⟩
    exact ⟨.block b, .block hb, congrArg Stmt.block heq⟩
  | .ifThen he hb => by
    rw [Stmt.exprs, List.flatMap_cons] at hx
    rcases List.mem_append.mp hx with hx | hx
    · exact .skip (.skip (.left ((he.groups hx).imp fun _ he => ⟨_, .ifThen he hb, rfl⟩)))
    · refine .skip (.skip (.right (.skip ((hb.groups hx).imp ?_))))
      rintro us ⟨b, hb, heq⟩
      exact ⟨_, .ifThen he hb, by simp only [Stmt.relabel, heq]⟩
  | .ifElse he hb ha => by
    rw [Stmt.exprs, List.flatMap_cons, List.flatMap_append] at hx
    rcases List.mem_append.mp hx with hx | hx
    · exact .skip (.skip (.left ((he.groups hx).imp fun _ he => ⟨_, .ifElse he hb ha, rfl⟩)))
    rcases List.mem_append.mp hx with hx | hx
    · refine .skip (.skip (.right (.skip (.left ((hb.groups hx).imp ?_)))))
      rintro us ⟨b, hb, heq⟩
      exact ⟨_, .ifElse he hb ha, by simp only [Stmt.relabel, heq]⟩
    · refine .skip (.skip (.right (.skip (.right (.skip ((ha.groups hx).imp ?_))))))
      rintro us ⟨a, ha, heq⟩
      exact ⟨_, .ifElse he hb ha, by simp only [Stmt.relabel, heq]⟩
  | .whileLoop he hb => by
    rw [Stmt.exprs, List.flatMap_cons] at hx
    rcases List.mem_append.mp hx with hx | hx
    · exact .skip (.skip (.left ((he.groups hx).imp fun _ he => ⟨_, .whileLoop he hb, rfl⟩)))
    · refine .skip (.skip (.right (.skip ((hb.groups hx).imp ?_))))
      rintro us ⟨b, hb, heq⟩
      exact ⟨_, .whileLoop he hb, by simp only [Stmt.relabel, heq]⟩
  | .forLoop h₁ h₂ h₃ hb => by
    simp only [Stmt.exprs, List.flatMap_append, List.mem_append] at hx
    rcases hx with hx | hx | hx | hx
    · exact .skip (.skip (.left ((h₁.groups hx).imp fun _ h₁ =>
        ⟨_, .forLoop h₁ h₂ h₃ hb, rfl⟩)))
    · exact .skip (.skip (.right (.skip (.left ((h₂.groups hx).imp fun _ h₂ =>
        ⟨_, .forLoop h₁ h₂ h₃ hb, rfl⟩)))))
    · exact .skip (.skip (.right (.skip (.right (.skip (.left ((h₃.groups hx).imp fun _ h₃ =>
        ⟨_, .forLoop h₁ h₂ h₃ hb, rfl⟩)))))))
    · refine .skip (.skip (.right (.skip (.right (.skip (.right (.skip
        ((hb.groups hx).imp ?_))))))))
      rintro us ⟨b, hb, heq⟩
      exact ⟨_, .forLoop h₁ h₂ h₃ hb, by simp only [Stmt.relabel, heq]⟩
  | .jump => by cases hx
  | .returnStmt h => .skip (.left ((h.groups hx).imp fun _ h => ⟨_, .returnStmt h, rfl⟩))
  | .expr h => by
    rw [Stmt.exprs, List.flatMap_singleton] at hx
    rw [← List.cons_append]
    refine .left ((h.groups hx).imp fun us h => ?_)
    obtain ⟨t, us, rfl, -⟩ := h.begins
    exact ⟨_, .expr h, rfl⟩

theorem Statements.groups {i j : Nat} {ts : List Token} {ss : List Stmt}
    (hx : x ∈ (Stmt.exprsAll ss).flatMap Expr.nodes) :
    Statements i ts ss j → Groups x ts (Alike Statements (Stmt.relabelAll .unplaced) i ss j)
  | .nil => by cases hx
  | .cons h hs => by
    rw [Stmt.exprsAll, List.flatMap_append] at hx
    rcases List.mem_append.mp hx with hx | hx
    · refine .left ((h.groups hx).imp ?_)
      rintro us ⟨z, hz, heq⟩
      exact ⟨_, .cons hz hs, by simp only [Stmt.relabelAll, heq]⟩
    · refine .right ((hs.groups hx).imp ?_)
      rintro us ⟨zs, hzs, heq⟩
      exact ⟨_, .cons h hzs, by simp only [Stmt.relabelAll, heq]⟩

theorem Compound.groups {i j : Nat} {ts : List Token} {b : Block}
    (hx : x ∈ b.exprs.flatMap Expr.nodes) :
    Compound i ts b j → Groups x ts (Alike Compound (Block.relabel .unplaced) i b j)
  | .mk hd hs => by
    rw [Block.exprs, List.flatMap_append] at hx
    rcases List.mem_append.mp hx with hx | hx
    · have hdecls := hd.groups (Decl.relabel .unplaced) hx
        fun _ _ _ _ hx h => h.groups hx
      refine .skip (.left (hdecls.imp ?_))
      rintro us ⟨ds, hds, heq⟩
      exact ⟨_, .mk hds hs, by simp only [Block.relabel, heq]⟩
    · refine .skip (.right (.left ((hs.groups hx).imp ?_)))
      rintro us ⟨ss, hss, heq⟩
      exact ⟨_, .mk hd hss, by simp only [Block.relabel, heq]⟩

end

/-! ## Units -/

theorem FileDecl.groups {i j : Nat} {ts : List Token} {d : External}
    (hx : x ∈ d.exprs.flatMap Expr.nodes) (h : FileDecl i ts d j) :
    Groups x ts (Alike FileDecl (External.relabel .unplaced) i d j) := by
  cases h with
  | decl h =>
    refine (h.groups hx).imp ?_
    rintro us ⟨d, hd, heq⟩
    exact ⟨_, .decl hd, congrArg External.decl heq⟩
  | definition hp hs hb =>
    refine .right ((hb.groups hx).imp ?_)
    rintro us ⟨b, hb, heq⟩
    exact ⟨_, .definition hp hs hb, by simp only [External.relabel, heq]⟩

end Grammar

/-- In a token list that is a unit, the tokens of any expression node can be put in parentheses:
the result is the same unit, numbers included, up to positions. -/
theorem CompilationUnit.group_read {ts : List Token} {u : CompilationUnit}
    (h : CompilationUnit.ofTokens? ts = .ok u) {x : Expr}
    (hx : .expr x ∈ (Node.unit u).walk fun _ => true) :
    Groups x ts fun us => ∃ v, CompilationUnit.ofTokens? us = .ok v ∧
      v.relabel .unplaced = u.relabel .unplaced := by
  obtain ⟨j, hu⟩ := Parse.translationUnit_of_ofTokens? h
  have hx := (Walk.mem_unit u x).mp hx
  refine (hu.groups (External.relabel .unplaced) hx
    fun _ _ _ _ hx h => h.groups hx).imp ?_
  rintro us ⟨ds, hds, heq⟩
  refine ⟨⟨ds⟩, Parse.ofTokens?_of_translationUnit ⟨j, hds⟩, ?_⟩
  rw [relabel, relabel, heq]

/-- Reading undoes rendering: tokens of the kinds that a rendering lists are read as the unit that
was rendered, up to numbers and positions. Moreover, in a token list that is a unit, each node has
its tokens, and a pair of parentheses around these, wherever its two tokens claim to stand, changes
nothing but positions. -/
theorem read_render_and_group :
    (∀ u : CompilationUnit, u.Renderable → ∀ ts : List Token, ts.map Token.kind = u.render →
      ∃ v, CompilationUnit.ofTokens? ts = .ok v ∧ v.relabel .bare = u.relabel .bare) ∧
    ∀ (ts : List Token) (u : CompilationUnit), CompilationUnit.ofTokens? ts = .ok u →
      ∀ x : Expr, .expr x ∈ ((Node.unit u).walk fun _ => true) →
        ∃ a b c, ts = a ++ (b ++ c) ∧ (∃ i j, Assignment i b x j) ∧ ∀ l l', ∃ v,
          CompilationUnit.ofTokens?
              (a ++ .ofMark .leftParen l :: (b ++ .ofMark .rightParen l' :: c)) = .ok v ∧
            v.relabel .unplaced = u.relabel .unplaced :=
  ⟨fun _ hu _ hts => CompilationUnit.render_read hu hts,
    fun _ _ h _ hx => CompilationUnit.group_read h hx⟩

/-- The tokens of `int a = 5 - (3 - 1);`. -/
def differenceTokens : List Token :=
  [.ofWord .intKw ⟨1, 1⟩, ⟨.identifier "a", ⟨1, 5⟩⟩, .ofMark .assign ⟨1, 7⟩,
    ⟨.intLiteral 5, ⟨1, 9⟩⟩, .ofMark .minus ⟨1, 11⟩, .ofMark .leftParen ⟨1, 13⟩,
    ⟨.intLiteral 3, ⟨1, 14⟩⟩, .ofMark .minus ⟨1, 16⟩, ⟨.intLiteral 1, ⟨1, 18⟩⟩,
    .ofMark .rightParen ⟨1, 19⟩, .ofMark .semicolon ⟨1, 20⟩]

/-- The node `3 - 1` of `int a = 5 - (3 - 1);`. -/
def innerDifference : Expr :=
  .binary ⟨3, ⟨1, 16⟩⟩ (.arith .sub) (.literal ⟨1, ⟨1, 14⟩⟩ (.int 3))
    (.literal ⟨2, ⟨1, 18⟩⟩ (.int 1))

/-- The unit that `int a = 5 - (3 - 1);` is read as. -/
def differenceUnit : CompilationUnit :=
  ⟨[.decl (.var ⟨⟨.int, false, 0, []⟩, "a", some (.binary ⟨4, ⟨1, 11⟩⟩ (.arith .sub)
    (.literal ⟨0, ⟨1, 9⟩⟩ (.int 5)) innerDifference), .none, ⟨1, 5⟩⟩)]⟩

theorem read_render_and_group_difference :
    differenceUnit.Renderable ∧ differenceTokens.map Token.kind = differenceUnit.render ∧
      CompilationUnit.ofTokens? differenceTokens = .ok differenceUnit ∧
      (∃ v, CompilationUnit.ofTokens? differenceTokens = .ok v ∧
        v.relabel .bare = differenceUnit.relabel .bare) ∧
      ∃ a b c, differenceTokens = a ++ (b ++ c) ∧ (∃ i j, Assignment i b innerDifference j) ∧
        ∀ l l', ∃ v, CompilationUnit.ofTokens?
            (a ++ .ofMark .leftParen l :: (b ++ .ofMark .rightParen l' :: c)) = .ok v ∧
          v.relabel .unplaced = differenceUnit.relabel .unplaced := by
  have hrenderable : differenceUnit.Renderable := by
    simp [CompilationUnit.Renderable, differenceUnit, innerDifference, Node.walk, Walk.unit,
      Walk.external, Walk.decl, Walk.var, Walk.optional, Walk.expr, Walk.enter, Node.Renderable]
  have hkinds : differenceTokens.map Token.kind = differenceUnit.render := by decide
  have hread : CompilationUnit.ofTokens? differenceTokens = .ok differenceUnit := by cbv
  have hnode : .expr innerDifference ∈ ((Node.unit differenceUnit).walk fun _ => true) :=
    (Walk.mem_unit _ _).mpr (by simp [differenceUnit, CompilationUnit.exprs, External.exprs,
      Decl.exprs, Expr.nodes, innerDifference])
  exact ⟨hrenderable, hkinds, hread, read_render_and_group.1 _ hrenderable _ hkinds,
    read_render_and_group.2 _ _ hread _ hnode⟩

end CSubset
