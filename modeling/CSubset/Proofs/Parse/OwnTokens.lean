-- SUMMARY: In a parsed unit every expression has a token of its own, and the tokens are in the order of the nodes.
import CSubset.Proofs.Parse.Exactness
import CSubset.Proofs.Syntax.Statements
import Mathlib.Tactic

/-!
# Tokens of a parsed unit

A report names a place, and the place is that of a node. If the tokens are at different positions,
as those of a text are, a node is told by its position: no two expressions share one, and no
expression shares one with a declared name, a brace or a keyword.
-/

namespace CSubset

open Grammar

/-- In a unit that is parsed from tokens at different positions, every declared name, parameter
name, brace of a block, keyword of a statement and expression is at a token of its kind; where
string literals are adjacent, that is the first of them, and the node is of them all. No token
stands for two of these, so what is at the position of an expression is this expression. The token
of an expression is behind those of its left operand or of what it calls or indexes and before
those of its other parts, and so on inside the parts; all expressions of the unit, one behind the
other, are at tokens from left to right. -/
theorem nodes_own_tokens {ts : List Token} {u : CompilationUnit}
    (h : CompilationUnit.ofTokens? ts = .ok u) (hts : (ts.map Token.location).Nodup) :
    let nodes := (Node.unit u).walk fun _ => true
    (∀ n ∈ nodes, ∀ l, n.location? = some l →
        ∃ before t parts after, ts = before ++ t :: (parts ++ after) ∧ t.location = l ∧
          n.StandsAt t parts ∧ (t.isString = true →
            before.getLast?.any Token.isString = false ∧ EndsStrings after)) ∧
      (nodes.filterMap Node.location?).Nodup ∧
      (∀ e, .expr e ∈ nodes → ∀ n ∈ nodes, n.location? = some e.location → n = .expr e) ∧
      (∀ e, .expr e ∈ nodes →
        e.inorder = e.inFront.flatMap Expr.inorder ++ e :: e.behind.flatMap Expr.inorder ∧
          (e.inorder.map Expr.location).Sublist (ts.map Token.location)) ∧
      ((u.exprs.flatMap Expr.inorder).map Expr.location).Sublist (ts.map Token.location) := by
  intro nodes
  have hanchors := (Parse.translationUnit_of_ofTokens? h).anchors
  have hnodup : (nodes.filterMap Node.location?).Nodup :=
    (Node.unit u).locations_perm.nodup_iff.mpr (hanchors.locations.nodup hts)
  have horder := u.exprs_locations_sublist.trans hanchors.locations
  refine ⟨fun n hn l hl => ?_, hnodup, fun e he n hn hne => ?_, fun e he => ⟨e.inorder_eq, ?_⟩,
    horder⟩
  · obtain ⟨before, t, parts, after, hsplit, ht, hbounds⟩ :=
      hanchors.exists_token (Node.mem_inorder hn hl)
    rw [ht.location?] at hl
    exact ⟨before, t, parts, after, hsplit, Option.some.inj hl, ht, hbounds⟩
  · exact eq_of_filterMap_nodup hnodup hn he hne rfl
  · exact ((CompilationUnit.inorder_sublist he).map _).trans horder

/-- The tokens of `int a = (f("p" "q") - x[1]);`. -/
def groupedDifferenceTokens : List Token :=
  [.ofWord .intKw ⟨1, 1⟩, ⟨.identifier "a", ⟨1, 5⟩⟩, .ofMark .assign ⟨1, 7⟩,
    .ofMark .leftParen ⟨1, 9⟩, ⟨.identifier "f", ⟨1, 10⟩⟩, .ofMark .leftParen ⟨1, 11⟩,
    ⟨.stringLiteral "p", ⟨1, 12⟩⟩, ⟨.stringLiteral "q", ⟨1, 16⟩⟩, .ofMark .rightParen ⟨1, 19⟩,
    .ofMark .minus ⟨1, 21⟩, ⟨.identifier "x", ⟨1, 23⟩⟩, .ofMark .leftBracket ⟨1, 24⟩,
    ⟨.intLiteral 1, ⟨1, 25⟩⟩, .ofMark .rightBracket ⟨1, 26⟩, .ofMark .rightParen ⟨1, 27⟩,
    .ofMark .semicolon ⟨1, 28⟩]

/-- The difference that initializes `a` in it. -/
def groupedDifference : Expr :=
  .binary ⟨6, ⟨1, 21⟩⟩ (.arith .sub)
    (.call ⟨2, ⟨1, 11⟩⟩ (.ident ⟨0, ⟨1, 10⟩⟩ "f") [.literal ⟨1, ⟨1, 12⟩⟩ (.string "pq")])
    (.index ⟨5, ⟨1, 24⟩⟩ (.ident ⟨3, ⟨1, 23⟩⟩ "x") (.literal ⟨4, ⟨1, 25⟩⟩ (.int 1)))

/-- The unit that these tokens form. -/
def groupedDifferenceUnit : CompilationUnit :=
  ⟨[.decl (.var ⟨⟨.int, false, 0, []⟩, "a", some groupedDifference, .none, ⟨1, 5⟩⟩)]⟩

/-- The nodes of the difference are at `f`, `(`, `"p"`, `-`, `x`, `[` and `1`. -/
theorem nodes_own_tokens_groupedDifference :
    CompilationUnit.ofTokens? groupedDifferenceTokens = .ok groupedDifferenceUnit ∧
      (groupedDifferenceTokens.map Token.location).Nodup ∧
      groupedDifference.inorder.map Expr.location =
        [⟨1, 10⟩, ⟨1, 11⟩, ⟨1, 12⟩, ⟨1, 21⟩, ⟨1, 23⟩, ⟨1, 24⟩, ⟨1, 25⟩] ∧
      (groupedDifference.inorder.map Expr.location).Sublist
        (groupedDifferenceTokens.map Token.location) := by
  have hparse : CompilationUnit.ofTokens? groupedDifferenceTokens = .ok groupedDifferenceUnit := by
    cbv
  have hnodup : (groupedDifferenceTokens.map Token.location).Nodup := by decide +kernel
  obtain ⟨-, -, -, horder, -⟩ := nodes_own_tokens hparse hnodup
  have hmem : Node.expr groupedDifference ∈ (Node.unit groupedDifferenceUnit).walk fun _ => true :=
    (Walk.mem_unit _ _).mpr (List.mem_flatMap.mpr ⟨_, List.mem_cons_self, Expr.self_mem_nodes _⟩)
  exact ⟨hparse, hnodup, by cbv, (horder _ hmem).2⟩

end CSubset
