-- SUMMARY: The positions at which something can be reported, and that they are those of tokens in their order.
import CSubset.Proofs.Grammar.Anchors
import Mathlib.Data.List.Flatten

/-!
# Positions of nodes

Every expression node stands at a token of its own, and so do declared names, jumps and returns.
`positions` lists these places in the order of the tokens, which is neither that of a walk nor
that of the node numbers: an operator stands between its operands. They are some of the positions
of the nodes with a token of their own, and a derivation finds these among its tokens.
-/

namespace CSubset

namespace Expr

mutual

/-- The positions of an expression's nodes, in the order of their tokens. -/
def positions : Expr → List Location
  | .literal a _ => [a.location]
  | .ident a _ => [a.location]
  | .unary a _ operand => a.location :: operand.positions
  | .binary a _ left right => left.positions ++ a.location :: right.positions
  | .assign a _ target value => target.positions ++ a.location :: value.positions
  | .call a callee args => callee.positions ++ a.location :: positionsAll args
  | .index a base subscript => base.positions ++ a.location :: subscript.positions

/-- The positions in expressions that stand one behind the other. -/
def positionsAll : List Expr → List Location
  | [] => []
  | e :: rest => e.positions ++ positionsAll rest

end

theorem positionsAll_eq_flatMap (es : List Expr) : positionsAll es = es.flatMap positions := by
  induction es with
  | nil => rfl
  | cons e rest ih => rw [positionsAll, ih, List.flatMap_cons]

/-- Up to order, an expression has its own position and those of its parts. -/
theorem positions_perm (e : Expr) :
    e.positions.Perm (e.location :: e.children.flatMap positions) := by
  cases e <;>
    simp only [positions, children, positionsAll_eq_flatMap, List.flatMap_cons, List.flatMap_nil,
      List.append_nil] <;>
    first | exact .refl _ | exact List.perm_middle

theorem location_mem_positions (e : Expr) : e.location ∈ e.positions :=
  e.positions_perm.mem_iff.mpr List.mem_cons_self

end Expr

/-- The positions of a function's name and of its parameters' names. -/
def Prototype.positions (p : Prototype) : List Location :=
  p.location :: p.parameters.map Parameter.location

/-- The positions of a declared name and in what is declared with it. -/
def Decl.positions : Decl → List Location
  | function p => p.positions
  | var v => v.location :: v.initializer.toList.flatMap Expr.positions

mutual

/-- The positions in a statement. -/
def Stmt.positions : Stmt → List Location
  | .block body => body.positions
  | .ifThen condition body _ => condition.positions ++ body.positions
  | .ifElse condition body alternative _ =>
    condition.positions ++ (body.positions ++ alternative.positions)
  | .whileLoop condition body _ => condition.positions ++ body.positions
  | .forLoop first condition step body _ =>
    first.toList.flatMap Expr.positions ++ (condition.toList.flatMap Expr.positions ++
      (step.toList.flatMap Expr.positions ++ body.positions))
  | .jump _ l => [l]
  | .returnStmt value l => l :: value.toList.flatMap Expr.positions
  | .expr value _ => value.positions

/-- The positions in statements that stand one behind the other. -/
def Stmt.positionsAll : List Stmt → List Location
  | [] => []
  | s :: rest => s.positions ++ Stmt.positionsAll rest

/-- The positions in a block. -/
def Block.positions : Block → List Location
  | .mk decls stmts _ => decls.flatMap Decl.positions ++ Stmt.positionsAll stmts

end

/-- The positions in a declaration at file level. -/
def External.positions : External → List Location
  | decl d => d.positions
  | definition p body => p.positions ++ body.positions

/-- The positions in a unit. -/
def CompilationUnit.positions (u : CompilationUnit) : List Location :=
  u.decls.flatMap External.positions

/-! ## Nodes at the positions -/

theorem Expr.positions_eq (e : Expr) : e.positions = (Node.expr e).locations := by
  rw [Node.locations_expr]
  induction e using children_induction with
  | step e ih =>
    have hparts {es : List Expr} (hes : es ⊆ e.children) :
        (es.flatMap inorder).map location = es.flatMap positions := by
      rw [List.map_flatMap]
      exact List.flatMap_congr fun c hc => (ih c (hes hc)).symm
    rw [e.inorder_eq, List.map_append, List.map_cons, hparts e.inFront_subset,
      hparts e.behind_subset]
    cases e <;> simp [positions, inFront, behind, positionsAll_eq_flatMap, location, anchor]

theorem Expr.flatMap_positions (es : List Expr) :
    es.flatMap Expr.positions = (es.map Node.expr).flatMap Node.locations := by
  rw [List.flatMap_map, funext positions_eq]

theorem Prototype.locations_function (p : Prototype) (body : Option Block) :
    (Node.function p body).locations =
      p.positions ++ (body.toList.map Node.block).flatMap Node.locations := by
  have hparameters : (p.parameters.map Node.parameter).flatMap Node.locations =
      p.parameters.map Parameter.location := by
    rw [List.flatMap_map]
    exact List.map_eq_flatMap.symm
  rw [Node.locations_eq rfl, Node.children, List.flatMap_append, hparameters]
  rfl

theorem Decl.positions_eq (d : Decl) : d.positions = (Node.decl (.decl d)).locations := by
  cases d with
  | function p =>
    rw [Node.locations_eq rfl, Node.children, List.flatMap_singleton, p.locations_function]
    exact (List.append_nil _).symm
  | var v =>
    rw [Node.locations_eq rfl, Node.children, List.flatMap_singleton, Node.locations_eq rfl,
      Node.children, ← Expr.flatMap_positions]
    rfl

mutual

/-- The keywords of branches and loops have no place in the list, and neither have braces. -/
theorem Stmt.positions_locations (s : Stmt) : s.positions.Sublist (Node.stmt s).locations := by
  rw [Node.locations_eq rfl]
  cases s <;>
    simp only [Stmt.positions, Expr.positions_eq, Expr.flatMap_positions, Node.children,
      List.flatMap_append, List.flatMap_cons, List.flatMap_nil, List.append_nil, List.append_assoc]
  case block body => exact body.positions_locations
  case ifThen body _ => exact (body.positions_locations.append_left _).cons _
  case ifElse body alternative _ =>
    exact ((body.positions_locations.append alternative.positions_locations).append_left _).cons _
  case whileLoop body _ => exact (body.positions_locations.append_left _).cons _
  case forLoop body _ =>
    exact (((body.positions_locations.append_left _).append_left _).append_left _).cons _
  all_goals exact .refl _

theorem Stmt.positionsAll_locations (ss : List Stmt) :
    (Stmt.positionsAll ss).Sublist ((ss.map Node.stmt).flatMap Node.locations) := by
  cases ss with
  | nil => exact .refl []
  | cons s rest => exact s.positions_locations.append (Stmt.positionsAll_locations rest)

theorem Block.positions_locations (b : Block) : b.positions.Sublist (Node.block b).locations := by
  cases b with
  | mk decls stmts l =>
    rw [Node.locations_eq rfl, Node.children, List.flatMap_append, List.flatMap_map,
      Block.positions, funext Decl.positions_eq]
    exact ((Stmt.positionsAll_locations stmts).append_left _).cons _

end

theorem External.positions_locations (d : External) :
    d.positions.Sublist (Node.decl d).locations := by
  cases d with
  | decl d =>
    rw [positions, d.positions_eq]
  | definition p body =>
    rw [Node.locations_eq rfl, Node.children, List.flatMap_singleton, p.locations_function]
    exact (body.positions_locations.trans (List.sublist_append_left _ _)).append_left _

theorem CompilationUnit.positions_locations (u : CompilationUnit) :
    u.positions.Sublist (Node.unit u).locations := by
  rw [Node.locations_eq rfl, Node.children, List.flatMap_map]
  exact List.Sublist.flatMap_right _ fun d _ => d.positions_locations

namespace Grammar

/-- The positions are those of tokens in `ts`, in their order. -/
def Marks (ts : List Token) (ls : List Location) : Prop := ls.Sublist (ts.map Token.location)

namespace Marks

variable {ts us : List Token} {ls ms : List Location}

theorem nil (ts : List Token) : Marks ts [] := List.nil_sublist _

theorem append (h : Marks ts ls) (h' : Marks us ms) : Marks (ts ++ us) (ls ++ ms) := by
  unfold Marks
  rw [List.map_append]
  exact List.Sublist.append h h'

end Marks

/-! ## Expressions and declarations -/

theorem Assignment.marks {i j : Nat} {ts : List Token} {e : Expr} (h : Assignment i ts e j) :
    Marks ts e.positions := by
  rw [e.positions_eq]
  exact (h.anchors.alone rfl).locations

theorem Clause.marks {i j : Nat} {ts : List Token} {e : Option Expr} (h : Clause i ts e j) :
    Marks ts (e.toList.flatMap Expr.positions) := by
  cases h with
  | none => exact .nil _
  | some h =>
    rw [Option.toList_some, List.flatMap_singleton]
    exact h.marks

theorem FunHeading.marks {ts : List Token} {p : Prototype} (h : FunHeading ts p) :
    Marks ts p.positions := by
  have hanchors : AnchorsBefore Always (ts ++ []) (Node.function p .none).inorder := h.anchors .nil
  have hlocations : Marks (ts ++ []) (Node.function p .none).locations :=
    (hanchors.alone trivial).locations
  rw [p.locations_function] at hlocations
  simpa using hlocations

theorem LocalDecl.marks {i j : Nat} {ts : List Token} {d : Decl} (h : LocalDecl i ts d j) :
    Marks ts d.positions := by
  rw [d.positions_eq]
  exact (h.anchors.alone trivial).locations

theorem Many.marks {α : Type} {phrase : Nat → List Token → α → Nat → Prop}
    {positions : α → List Location} {i j : Nat} {ts : List Token} {xs : List α}
    (h : Many phrase i ts xs j)
    (hphrase : ∀ i j ts x, phrase i ts x j → Marks ts (positions x)) :
    Marks ts (xs.flatMap positions) := by
  induction h with
  | nil => exact .nil _
  | cons h _ ih => exact (hphrase _ _ _ _ h).append ih

/-! ## Units -/

/-- The positions in a derived unit are those of tokens, in their order. -/
theorem TranslationUnit.marks {ts : List Token} {u : CompilationUnit} (h : TranslationUnit ts u) :
    Marks ts u.positions :=
  u.positions_locations.trans h.anchors.locations

end Grammar

end CSubset
