-- SUMMARY: The nodes of a unit that have a token of their own, in the order of these tokens.
import CSubset.Proofs.Syntax.Nodes

/-!
# Nodes in the order of their tokens

Most nodes have one token that stands for them: an operator or bracket, a name, a keyword. In a
text an operator is between its operands and an opening bracket is behind what it is applied to,
which is neither the order of a walk nor that in which nodes are complete. `inorder` lists nodes
in this third order. All orders list the same nodes.
-/

namespace CSubset

/-- Partial results that are also those of a second function are among its results. -/
theorem filterMap_sublist {α β : Type} {f g : α → Option β}
    (h : ∀ x y, f x = some y → g x = some y) (xs : List α) :
    (xs.filterMap f).Sublist (xs.filterMap g) := by
  induction xs with
  | nil => exact .refl []
  | cons x rest ih =>
    cases hx : f x with
    | none =>
      rw [List.filterMap_cons_none hx]
      exact ih.trans ((List.sublist_cons_self x rest).filterMap g)
    | some y =>
      rw [List.filterMap_cons_some hx, List.filterMap_cons_some (h x y hx)]
      exact ih.cons_cons y

/-! ## Expressions -/

namespace Expr

/-- The parts of an expression that are written in front of its own token. -/
def inFront : Expr → List Expr
  | literal _ _ => []
  | ident _ _ => []
  | unary _ _ _ => []
  | binary _ _ left _ => [left]
  | assign _ _ target _ => [target]
  | call _ callee _ => [callee]
  | index _ base _ => [base]

/-- The parts of an expression that are written behind its own token. -/
def behind : Expr → List Expr
  | literal _ _ => []
  | ident _ _ => []
  | unary _ _ operand => [operand]
  | binary _ _ _ right => [right]
  | assign _ _ _ value => [value]
  | call _ _ args => args
  | index _ _ subscript => [subscript]

theorem inFront_append_behind (e : Expr) : e.inFront ++ e.behind = e.children := by
  cases e <;> rfl

theorem inFront_subset (e : Expr) : e.inFront ⊆ e.children := by
  rw [← e.inFront_append_behind]
  exact List.subset_append_left _ _

theorem behind_subset (e : Expr) : e.behind ⊆ e.children := by
  rw [← e.inFront_append_behind]
  exact List.subset_append_right _ _

mutual

/-- The nodes of an expression, each between its parts. -/
def inorder : Expr → List Expr
  | e@(.literal _ _) => [e]
  | e@(.ident _ _) => [e]
  | e@(.unary _ _ operand) => e :: operand.inorder
  | e@(.binary _ _ left right) => left.inorder ++ e :: right.inorder
  | e@(.assign _ _ target value) => target.inorder ++ e :: value.inorder
  | e@(.call _ callee args) => callee.inorder ++ e :: inorderAll args
  | e@(.index _ base subscript) => base.inorder ++ e :: subscript.inorder

/-- The nodes of expressions that stand one behind the other, each between its parts. -/
def inorderAll : List Expr → List Expr
  | [] => []
  | e :: rest => e.inorder ++ inorderAll rest

end

theorem inorderAll_eq_flatMap (es : List Expr) : inorderAll es = es.flatMap inorder := by
  induction es with
  | nil => rfl
  | cons e rest ih => rw [inorderAll, ih, List.flatMap_cons]

theorem inorder_eq (e : Expr) :
    e.inorder = e.inFront.flatMap inorder ++ e :: e.behind.flatMap inorder := by
  cases e <;> simp [inorder, inFront, behind, inorderAll_eq_flatMap]

/-- Up to order, the nodes are the expression and the nodes of its parts. -/
theorem inorder_perm (e : Expr) : e.inorder.Perm (e :: e.children.flatMap inorder) := by
  rw [e.inorder_eq, ← e.inFront_append_behind, List.flatMap_append]
  exact List.perm_middle

theorem inorder_perm_nodes (e : Expr) : e.inorder.Perm e.nodes := by
  induction e using children_induction with
  | step e ih =>
    rw [e.nodes_eq]
    exact (e.inorder_perm.trans ((List.Perm.flatMap_left _ ih).cons e)).trans
      (List.perm_append_singleton _ _).symm

/-- The nodes of a part stand together among those of the whole. -/
theorem inorder_sublist (r : Expr) : ∀ e ∈ r.inorder, e.inorder.Sublist r.inorder := by
  induction r using children_induction with
  | step r ih =>
    intro e he
    rcases List.mem_cons.mp (r.inorder_perm.mem_iff.mp he) with rfl | he
    · exact .refl _
    · obtain ⟨c, hc, he⟩ := List.mem_flatMap.mp he
      refine (ih c hc e he).trans ?_
      rw [← r.inFront_append_behind] at hc
      rw [r.inorder_eq]
      rcases List.mem_append.mp hc with hc | hc
      · exact (sublist_flatMap_of_mem hc).trans (List.sublist_append_left _ _)
      · exact (sublist_flatMap_of_mem hc).trans
          ((List.sublist_cons_self _ _).trans (List.sublist_append_right _ _))

end Expr

/-! ## All nodes -/

/-- The keyword that a statement starts with; blocks and expressions have none. -/
def Stmt.keyword? : Stmt → Option Keyword
  | block _ => none
  | ifThen _ _ _ => some .ifKw
  | ifElse _ _ _ _ => some .ifKw
  | whileLoop _ _ _ => some .whileKw
  | forLoop _ _ _ _ _ => some .forKw
  | jump kind _ => some kind.keyword
  | returnStmt _ _ => some .returnKw
  | expr _ _ => none

namespace Node

/-- The position of the token that stands for a node: of the declared name, the opening brace, the
keyword or the expression's own token. Other nodes have no token apart from those of their parts. -/
def location? : Node → Option Location
  | unit _ => none
  | decl _ => none
  | function p _ => some p.location
  | parameter p => some p.location
  | var v => some v.location
  | block b => some b.location
  | stmt s => s.keyword?.map fun _ => s.location
  | expr e => some e.location

/-- The node if it has a token of its own, or the nodes of the expression that it is. -/
def places : Node → List Node
  | expr e => e.inorder.map expr
  | n => [n].filter fun n => n.location?.isSome

/-- The nodes from a node on that have a token of their own, in the order of these tokens. -/
def inorder (n : Node) : List Node := (n.walk fun n => n.expr?.isNone).flatMap places

theorem inorder_eq {n : Node} (hn : n.expr? = none) :
    n.inorder = ([n].filter fun n => n.location?.isSome) ++ n.children.flatMap inorder := by
  have hplaces : n.places = [n].filter fun n => n.location?.isSome := by
    cases n with
    | expr e => cases hn
    | _ => rfl
  rw [inorder, n.walk_eq, hn, List.flatMap_cons, if_pos Option.isNone_none, List.flatMap_assoc,
    hplaces]
  rfl

theorem inorder_expr (e : Expr) : (expr e).inorder = e.inorder.map expr := by
  rw [inorder, (expr e).walk_eq]
  exact List.flatMap_singleton ..

theorem flatMap_inorder_expr (es : List Expr) :
    (es.map expr).flatMap inorder = (es.flatMap Expr.inorder).map expr := by
  rw [List.flatMap_map, List.map_flatMap, funext inorder_expr]

/-- An expression is between the parts in front of its token and those behind it. -/
theorem inorder_expr_eq (e : Expr) : (expr e).inorder =
    (e.inFront.map expr).flatMap inorder ++ expr e :: (e.behind.map expr).flatMap inorder := by
  rw [inorder_expr, e.inorder_eq, List.map_append, List.map_cons, flatMap_inorder_expr,
    flatMap_inorder_expr]

theorem length_walk_lt {n c : Node} (hc : c ∈ n.children) :
    (c.walk Walk.everywhere).length < (n.walk Walk.everywhere).length := by
  rw [n.walk_eq Walk.everywhere, Walk.everywhere, if_pos rfl, List.length_cons]
  exact Nat.lt_succ_of_le (sublist_flatMap_of_mem hc).length_le

/-- What holds of a node if it holds of those below it holds of all nodes. -/
theorem children_induction {P : Node → Prop} (step : ∀ n : Node, (∀ c ∈ n.children, P c) → P n)
    (n : Node) : P n :=
  step n fun c _ => children_induction step c
termination_by (n.walk Walk.everywhere).length
decreasing_by exact length_walk_lt ‹_›

/-- A walk through all of a node meets the same nodes in another order. -/
theorem walk_perm (n : Node) :
    ((n.walk Walk.everywhere).filter fun n => n.location?.isSome).Perm n.inorder := by
  induction n using children_induction with
  | step n ih =>
    have hparts : ((n.walk Walk.everywhere).filter fun n => n.location?.isSome).Perm
        (([n].filter fun n => n.location?.isSome) ++ n.children.flatMap inorder) := by
      rw [n.walk_eq Walk.everywhere, Walk.everywhere, if_pos rfl, ← List.singleton_append,
        List.filter_append, List.filter_flatMap]
      exact (List.Perm.flatMap_left _ ih).append_left _
    refine hparts.trans ?_
    cases h : n.expr? with
    | none => exact .of_eq (inorder_eq h).symm
    | some e =>
      obtain rfl := expr?_eq_some.mp h
      rw [children, flatMap_inorder_expr, inorder_expr]
      exact (e.inorder_perm.map expr).symm

theorem mem_inorder {n m : Node} (hm : m ∈ n.walk Walk.everywhere) {l : Location}
    (hl : m.location? = some l) : m ∈ n.inorder :=
  n.walk_perm.mem_iff.mp (List.mem_filter.mpr ⟨hm, Option.isSome_of_eq_some hl⟩)

theorem filterMap_filter_location? {α : Type} {f : Node → Option α}
    (hf : ∀ n, n.location? = none → f n = none) (ns : List Node) :
    (ns.filter fun n => n.location?.isSome).filterMap f = ns.filterMap f := by
  rw [List.filterMap_filter]
  refine List.filterMap_congr fun n _ => ?_
  cases h : n.location? with
  | none => exact (hf n h).symm
  | some l => rfl

/-- Outside expressions the nodes are in the order of a walk. -/
theorem filterMap_inorder {α : Type} {f : Node → Option α}
    (hf : ∀ n, n.location? = none → f n = none) (hexpr : ∀ e, f (expr e) = none) (n : Node) :
    n.inorder.filterMap f = (n.walk Walk.everywhere).filterMap f := by
  induction n using children_induction with
  | step n ih =>
    have hparts : (n.walk Walk.everywhere).filterMap f =
        [n].filterMap f ++ (n.children.flatMap inorder).filterMap f := by
      rw [n.walk_eq Walk.everywhere, Walk.everywhere, if_pos rfl, ← List.singleton_append,
        List.filterMap_append, List.filterMap_flatMap, List.filterMap_flatMap,
        List.flatMap_congr fun c hc => (ih c hc).symm]
    have hexprs (es : List Expr) : (es.map expr).filterMap f = [] := by
      rw [List.filterMap_map]
      exact List.filterMap_eq_nil_iff.mpr fun e _ => hexpr e
    rw [hparts]
    cases h : n.expr? with
    | none => rw [inorder_eq h, List.filterMap_append, filterMap_filter_location? hf]
    | some e =>
      obtain rfl := expr?_eq_some.mp h
      rw [inorder_expr, children, flatMap_inorder_expr, hexprs, hexprs, List.append_nil]
      exact (hexprs [e]).symm

/-! ### Positions -/

/-- The positions of the tokens that stand for the nodes from a node on, in their order. -/
def locations (n : Node) : List Location := n.inorder.filterMap location?

theorem locations_eq {n : Node} (hn : n.expr? = none) :
    n.locations = n.location?.toList ++ n.children.flatMap locations := by
  rw [locations, inorder_eq hn, List.filterMap_append, filterMap_filter_location? fun _ h => h,
    List.filterMap_flatMap, List.filterMap_cons]
  cases n.location? <;> rfl

theorem locations_expr (e : Expr) : (expr e).locations = e.inorder.map Expr.location := by
  rw [locations, inorder_expr, List.filterMap_map]
  exact congrFun List.filterMap_eq_map e.inorder

/-- A walk through all of a node meets the same positions in another order. -/
theorem locations_perm (n : Node) :
    ((n.walk Walk.everywhere).filterMap location?).Perm n.locations := by
  rw [← filterMap_filter_location? fun _ h => h]
  exact n.walk_perm.filterMap location?

theorem exprs_places (n : Node) :
    n.places.filterMap expr? = n.expr?.toList.flatMap Expr.inorder := by
  cases n with
  | expr e =>
    rw [places, List.filterMap_map]
    exact List.filterMap_some.trans (List.flatMap_singleton ..).symm
  | _ =>
    simp only [places, List.filter_cons, List.filter_nil]
    split <;> rfl

end Node

/-! ## Expressions of a unit -/

namespace CompilationUnit

/-- The expressions of a unit stand one behind the other, each with its nodes in their order. -/
theorem exprs_inorder (u : CompilationUnit) :
    (Node.unit u).inorder.filterMap Node.expr? = u.exprs.flatMap Expr.inorder := by
  rw [Node.inorder, List.filterMap_flatMap, funext Node.exprs_places, ← Walk.found_unit_outermost u,
    Walk.found, List.filterMap_eq_flatMap_toList, List.flatMap_assoc]
  rfl

theorem exprs_locations_sublist (u : CompilationUnit) :
    ((u.exprs.flatMap Expr.inorder).map Expr.location).Sublist (Node.unit u).locations := by
  rw [← u.exprs_inorder, List.map_filterMap]
  refine filterMap_sublist (fun n l h => ?_) _
  obtain ⟨e, he, rfl⟩ := Option.map_eq_some_iff.mp h
  rw [Node.expr?_eq_some.mp he, Node.location?]

theorem inorder_sublist {u : CompilationUnit} {e : Expr}
    (he : .expr e ∈ (Node.unit u).walk Walk.everywhere) :
    e.inorder.Sublist (u.exprs.flatMap Expr.inorder) := by
  obtain ⟨r, hr, he⟩ := List.mem_flatMap.mp ((Walk.mem_unit u e).mp he)
  have hpart := r.inorder_sublist e (r.inorder_perm_nodes.mem_iff.mpr he)
  exact hpart.trans (sublist_flatMap_of_mem hr)

end CompilationUnit

end CSubset
