-- SUMMARY: The nodes of expressions, in the order in which they are complete.
import CSubset.Syntax.Walk
import Mathlib.Data.List.Perm.Basic

/-!
# Nodes

A walk meets a node before its parts; the parser numbers it and the checker types it behind
them. `Expr.nodes` lists nodes in this second order. Declarations, statements and units have
no numbers of their own, so for them it is enough to list the outermost expressions they hold,
`exprs`.
-/

namespace CSubset

/-- What one member of a list contributes stands together among what all members do. -/
theorem sublist_flatMap_of_mem {α β : Type} {f : α → List β} {xs : List α} {x : α} (hx : x ∈ xs) :
    (f x).Sublist (xs.flatMap f) := by
  rw [List.flatMap_def]
  exact List.sublist_flatten_of_mem (List.mem_map_of_mem hx)

namespace Expr

mutual

/-- The nodes of an expression, each behind its parts. -/
def nodes : Expr → List Expr
  | e@(.literal _ _) => [e]
  | e@(.ident _ _) => [e]
  | e@(.unary _ _ operand) => operand.nodes ++ [e]
  | e@(.binary _ _ left right) => left.nodes ++ right.nodes ++ [e]
  | e@(.assign _ _ target value) => target.nodes ++ value.nodes ++ [e]
  | e@(.call _ callee args) => callee.nodes ++ nodesAll args ++ [e]
  | e@(.index _ base subscript) => base.nodes ++ subscript.nodes ++ [e]

/-- The nodes of expressions that stand one behind the other. -/
def nodesAll : List Expr → List Expr
  | [] => []
  | e :: rest => e.nodes ++ nodesAll rest

end

theorem nodesAll_eq_flatMap (es : List Expr) : nodesAll es = es.flatMap nodes := by
  induction es with
  | nil => rfl
  | cons e rest ih => rw [nodesAll, ih, List.flatMap_cons]

theorem nodes_eq (e : Expr) : e.nodes = e.children.flatMap nodes ++ [e] := by
  cases e <;> simp [nodes, children, nodesAll_eq_flatMap]

mutual

/-- What holds of an expression if it holds of its parts holds of all expressions. -/
theorem children_induction {P : Expr → Prop} (step : ∀ e : Expr, (∀ c ∈ e.children, P c) → P e) :
    ∀ e : Expr, P e
  | .literal _ _ => step _ (List.forall_mem_nil _)
  | .ident _ _ => step _ (List.forall_mem_nil _)
  | .unary _ _ operand => step _ (List.forall_mem_singleton.mpr (operand.children_induction step))
  | .binary _ _ left right => step _ (List.forall_mem_cons.mpr
      ⟨left.children_induction step, List.forall_mem_singleton.mpr (right.children_induction step)⟩)
  | .assign _ _ target value => step _ (List.forall_mem_cons.mpr
      ⟨target.children_induction step,
        List.forall_mem_singleton.mpr (value.children_induction step)⟩)
  | .call _ callee args => step _ (List.forall_mem_cons.mpr
      ⟨callee.children_induction step, childrenAll_induction step args⟩)
  | .index _ base subscript => step _ (List.forall_mem_cons.mpr
      ⟨base.children_induction step,
        List.forall_mem_singleton.mpr (subscript.children_induction step)⟩)

theorem childrenAll_induction {P : Expr → Prop}
    (step : ∀ e : Expr, (∀ c ∈ e.children, P c) → P e) : ∀ es : List Expr, ∀ e ∈ es, P e
  | [] => List.forall_mem_nil _
  | e :: rest =>
    List.forall_mem_cons.mpr ⟨e.children_induction step, childrenAll_induction step rest⟩

end

theorem self_mem_nodes (e : Expr) : e ∈ e.nodes := by
  rw [e.nodes_eq]
  exact List.mem_append_right _ (List.mem_singleton_self e)

/-- The nodes of a part stand together among those of the whole. -/
theorem nodes_sublist (r : Expr) : ∀ e ∈ r.nodes, e.nodes.Sublist r.nodes := by
  induction r using children_induction with
  | step r ih =>
    intro e he
    rw [r.nodes_eq] at he
    rcases List.mem_append.mp he with he | he
    · obtain ⟨c, hc, he⟩ := List.mem_flatMap.mp he
      rw [r.nodes_eq]
      exact ((ih c hc e he).trans (sublist_flatMap_of_mem hc)).trans (List.sublist_append_left _ _)
    · rw [List.mem_singleton.mp he]

/-- A node stands behind its parts. -/
theorem pair_sublist_nodes {r e c : Expr} (he : e ∈ r.nodes) (hc : c ∈ e.children) :
    [c, e].Sublist r.nodes := by
  refine List.Sublist.trans ?_ (r.nodes_sublist e he)
  rw [e.nodes_eq]
  have hmem : c ∈ e.children.flatMap nodes := List.mem_flatMap.mpr ⟨c, hc, c.self_mem_nodes⟩
  exact (List.singleton_sublist.mpr hmem).append (List.Sublist.refl [e])

/-- What an identifier node is made of. -/
def ident? : Expr → Option (Anchor × String)
  | .ident a name => some (a, name)
  | _ => none

/-- The identifiers in an expression, in source order. -/
def idents (e : Expr) : List (Anchor × String) := e.nodes.filterMap ident?

/-- A node that is no identifier adds none to those in front of it. -/
theorem filterMap_ident?_concat {e : Expr} (he : e.ident? = none) (es : List Expr) :
    (es ++ [e]).filterMap ident? = es.filterMap ident? := by
  rw [List.filterMap_append, List.filterMap_cons_none he, List.filterMap_nil, List.append_nil]

theorem filterMap_ident?_pair {e : Expr} (he : e.ident? = none) (ds es : List Expr) :
    (ds ++ es ++ [e]).filterMap ident? = ds.filterMap ident? ++ es.filterMap ident? := by
  rw [filterMap_ident?_concat he, List.filterMap_append]

theorem idents_unary (a : Anchor) (op : UnaryOp) (operand : Expr) :
    (unary a op operand).idents = operand.idents := filterMap_ident?_concat rfl _

theorem idents_binary (a : Anchor) (op : BinaryOp) (left right : Expr) :
    (binary a op left right).idents = left.idents ++ right.idents := filterMap_ident?_pair rfl _ _

theorem idents_assign (a : Anchor) (op : AssignOp) (target value : Expr) :
    (assign a op target value).idents = target.idents ++ value.idents :=
  filterMap_ident?_pair rfl _ _

theorem idents_call (a : Anchor) (callee : Expr) (args : List Expr) :
    (call a callee args).idents = callee.idents ++ (nodesAll args).filterMap ident? :=
  filterMap_ident?_pair rfl _ _

theorem idents_index (a : Anchor) (base subscript : Expr) :
    (index a base subscript).idents = base.idents ++ subscript.idents :=
  filterMap_ident?_pair rfl _ _

end Expr

/-! ## Outermost expressions -/

/-- The expressions of a declaration. -/
def Decl.exprs : Decl → List Expr
  | function _ => []
  | var v => v.initializer.toList

mutual

/-- The outermost expressions of a statement, in source order. -/
def Stmt.exprs : Stmt → List Expr
  | .block body => body.exprs
  | .ifThen condition body _ => condition :: body.exprs
  | .ifElse condition body alternative _ => condition :: (body.exprs ++ alternative.exprs)
  | .whileLoop condition body _ => condition :: body.exprs
  | .forLoop first condition step body _ =>
    first.toList ++ (condition.toList ++ (step.toList ++ body.exprs))
  | .jump _ _ => []
  | .returnStmt value _ => value.toList
  | .expr value _ => [value]

/-- The outermost expressions of statements that stand one behind the other. -/
def Stmt.exprsAll : List Stmt → List Expr
  | [] => []
  | s :: rest => s.exprs ++ Stmt.exprsAll rest

/-- The outermost expressions of a block. -/
def Block.exprs : Block → List Expr
  | .mk decls stmts _ => decls.flatMap Decl.exprs ++ Stmt.exprsAll stmts

end

/-- The outermost expressions of a declaration at file level. -/
def External.exprs : External → List Expr
  | decl d => d.exprs
  | definition _ body => body.exprs

/-- The outermost expressions of a unit. -/
def CompilationUnit.exprs (u : CompilationUnit) : List Expr := u.decls.flatMap External.exprs

/-! ## Expressions on a walk -/

namespace Expr

mutual

/-- The nodes of an expression, each in front of its parts. -/
def preorder : Expr → List Expr
  | e@(.literal _ _) => [e]
  | e@(.ident _ _) => [e]
  | e@(.unary _ _ operand) => e :: operand.preorder
  | e@(.binary _ _ left right) => e :: (left.preorder ++ right.preorder)
  | e@(.assign _ _ target value) => e :: (target.preorder ++ value.preorder)
  | e@(.call _ callee args) => e :: (callee.preorder ++ preorderAll args)
  | e@(.index _ base subscript) => e :: (base.preorder ++ subscript.preorder)

/-- The nodes of expressions that stand one behind the other, each in front of its parts. -/
def preorderAll : List Expr → List Expr
  | [] => []
  | e :: rest => e.preorder ++ preorderAll rest

end

theorem preorderAll_eq_flatMap (es : List Expr) : preorderAll es = es.flatMap preorder := by
  induction es with
  | nil => rfl
  | cons e rest ih => rw [preorderAll, ih, List.flatMap_cons]

theorem preorder_eq (e : Expr) : e.preorder = e :: e.children.flatMap preorder := by
  cases e <;> simp [preorder, children, preorderAll_eq_flatMap]

/-- The two orders list the same nodes. -/
theorem preorder_perm (e : Expr) : e.preorder.Perm e.nodes := by
  induction e using children_induction with
  | step e ih =>
    rw [e.preorder_eq, e.nodes_eq]
    exact ((List.Perm.flatMap_left _ ih).cons e).trans (List.perm_append_singleton _ _).symm

theorem children_eq_nil_of_ident? {e : Expr} {x : Anchor × String} (h : e.ident? = some x) :
    e.children = [] := by
  cases e with
  | ident a name => rfl
  | _ => cases h

/-- Identifiers have no parts, so they stand in one order in both lists. -/
theorem preorder_idents (e : Expr) : e.preorder.filterMap ident? = e.idents := by
  induction e using children_induction with
  | step e ih =>
    have hparts : (e.children.flatMap preorder).filterMap ident? =
        (e.children.flatMap nodes).filterMap ident? := by
      rw [List.filterMap_flatMap, List.filterMap_flatMap]
      exact List.flatMap_congr ih
    rw [e.preorder_eq, idents, e.nodes_eq]
    cases h : e.ident? with
    | none => rw [List.filterMap_cons_none h, hparts, filterMap_ident?_concat h]
    | some x =>
      rw [children_eq_nil_of_ident? h, List.flatMap_nil, List.flatMap_nil, List.nil_append]

end Expr

/-- The expression that a node is. -/
def Node.expr? : Node → Option Expr
  | .expr e => some e
  | _ => none

theorem Node.expr?_eq_some {n : Node} {e : Expr} : n.expr? = some e ↔ n = .expr e := by
  cases n <;> simp [expr?]

/-- What an identifier node is made of. -/
def Node.ident? (n : Node) : Option (Anchor × String) := n.expr?.bind Expr.ident?

namespace Walk

/-- A walk that leaves nothing out descends everywhere. -/
def everywhere : Node → Bool := fun _ => true

/-- The expressions among nodes. -/
def found (nodes : List Node) : List Expr := nodes.filterMap Node.expr?

@[simp] theorem found_append (xs ys : List Node) : found (xs ++ ys) = found xs ++ found ys :=
  List.filterMap_append

theorem mem_found {nodes : List Node} {e : Expr} : e ∈ found nodes ↔ .expr e ∈ nodes := by
  simp [found, Node.expr?_eq_some]

theorem found_enter {descend : Node → Bool} {n : Node} (hn : descend n = true)
    (below : List Node) : found (enter descend n below) = n.expr?.toList ++ found below := by
  cases h : n.expr? <;> simp [found, enter, hn, h]

/-! ### Inside expressions -/

theorem found_expr (e : Expr) : found (expr everywhere e) = e.preorder := by
  induction e using Expr.children_induction with
  | step e ih =>
    have hwalk : expr everywhere e =
        .expr e :: (e.children.map Node.expr).flatMap (Node.walk everywhere) :=
      (Node.expr e).walk_eq everywhere
    rw [hwalk, e.preorder_eq, List.flatMap_map, found,
      List.filterMap_cons_some (Node.expr?_eq_some.mpr rfl), List.filterMap_flatMap]
    exact congrArg (e :: ·) (List.flatMap_congr ih)

/-! ### Outside expressions -/

variable {descend : Node → Bool}

theorem found_optional (e : Option Expr) :
    found (optional descend e) = e.toList.flatMap fun e => found (expr descend e) := by
  cases e with
  | none => rfl
  | some e => rw [optional, Option.toList_some, List.flatMap_singleton]

theorem found_flatMap {α : Type} {walk : α → List Node} {exprs : α → List Expr}
    {f : Expr → List Expr} (h : ∀ x, found (walk x) = (exprs x).flatMap f) (xs : List α) :
    found (xs.flatMap walk) = (xs.flatMap exprs).flatMap f := by
  induction xs with
  | nil => rfl
  | cons x rest ih =>
    rw [List.flatMap_cons, found_append, h, ih, List.flatMap_cons, List.flatMap_append]

/-- A walk leaves out nothing but parts of expressions. -/
def Thorough (descend : Node → Bool) : Prop := ∀ n, n.expr? = none → descend n = true

theorem found_parameters (hd : Thorough descend) (ps : List Parameter) :
    found (ps.flatMap (parameter descend)) = [] := by
  induction ps with
  | nil => rfl
  | cons p rest ih =>
    rw [List.flatMap_cons, found_append, ih, parameter, found_enter (hd _ rfl)]
    rfl

theorem found_decl (hd : Thorough descend) (d : Decl) :
    found (decl descend d) = d.exprs.flatMap fun e => found (expr descend e) := by
  cases d with
  | function p =>
    rw [decl, found_enter (hd _ rfl), function, found_enter (hd _ rfl), found_append,
      found_parameters hd]
    rfl
  | var v =>
    rw [decl, found_enter (hd _ rfl), var, found_enter (hd _ rfl), found_optional]
    rfl

mutual

theorem found_stmt (hd : Thorough descend) (s : Stmt) :
    found (stmt descend s) = s.exprs.flatMap fun e => found (expr descend e) := by
  cases s with
  | block body =>
    rw [stmt, found_enter (hd _ rfl), found_block hd body]
    rfl
  | ifThen condition body l =>
    rw [stmt, found_enter (hd _ rfl), found_append, found_block hd body]
    rfl
  | ifElse condition body alternative l =>
    rw [stmt, found_enter (hd _ rfl), found_append, found_append, found_block hd body,
      found_block hd alternative, ← List.flatMap_append]
    rfl
  | whileLoop condition body l =>
    rw [stmt, found_enter (hd _ rfl), found_append, found_block hd body]
    rfl
  | forLoop first condition step body l =>
    rw [stmt, found_enter (hd _ rfl)]
    simp only [found_append, found_optional, found_block hd body, ← List.flatMap_append,
      List.append_assoc]
    rfl
  | jump kind l =>
    rw [stmt, found_enter (hd _ rfl)]
    rfl
  | returnStmt value l =>
    rw [stmt, found_enter (hd _ rfl), found_optional]
    rfl
  | expr value l =>
    rw [stmt, found_enter (hd _ rfl), Stmt.exprs, List.flatMap_singleton]
    rfl

theorem found_stmts (hd : Thorough descend) (ss : List Stmt) :
    found (stmts descend ss) = (Stmt.exprsAll ss).flatMap fun e => found (expr descend e) := by
  cases ss with
  | nil => rfl
  | cons s rest =>
    rw [stmts, found_append, found_stmt hd s, found_stmts hd rest, Stmt.exprsAll,
      List.flatMap_append]

theorem found_block (hd : Thorough descend) (b : Block) :
    found (block descend b) = b.exprs.flatMap fun e => found (expr descend e) := by
  cases b with
  | mk decls body l =>
    rw [block, found_enter (hd _ rfl), found_append, found_flatMap (found_decl hd),
      found_stmts hd body, Block.exprs, List.flatMap_append]
    rfl

end

theorem found_external (hd : Thorough descend) (d : External) :
    found (external descend d) = d.exprs.flatMap fun e => found (expr descend e) := by
  cases d with
  | decl d => exact found_decl hd d
  | definition p body =>
    rw [external, found_enter (hd _ rfl), function, found_enter (hd _ rfl), found_append,
      found_parameters hd, found_block hd]
    rfl

/-- A walk that leaves out nothing but parts of expressions meets what it meets in the outermost
expressions. -/
theorem found_unit_flatMap (hd : Thorough descend) (u : CompilationUnit) :
    found (unit descend u) = u.exprs.flatMap fun e => found (expr descend e) := by
  rw [unit, found_enter (hd _ rfl), found_flatMap (found_external hd)]
  rfl

theorem thorough_everywhere : Thorough everywhere := fun _ _ => rfl

/-- A walk through a unit meets the nodes of its expressions, expression by expression. -/
theorem found_unit (u : CompilationUnit) :
    found (unit everywhere u) = u.exprs.flatMap Expr.preorder := by
  rw [found_unit_flatMap thorough_everywhere, funext found_expr]

/-- A walk that goes below no expression meets the outermost ones. -/
theorem found_unit_outermost (u : CompilationUnit) :
    found (unit (fun n => n.expr?.isNone) u) = u.exprs := by
  have hself (e : Expr) : found (expr (fun n => n.expr?.isNone) e) = [e] := by
    cases e <;> rfl
  rw [found_unit_flatMap (fun _ hn => Option.isNone_iff_eq_none.mpr hn), funext hself,
    List.flatMap_singleton']

/-- A walk through a unit meets all nodes of its expressions. -/
theorem found_unit_perm (u : CompilationUnit) :
    (found (unit everywhere u)).Perm (u.exprs.flatMap Expr.nodes) := by
  rw [found_unit]
  exact List.Perm.flatMap_left _ fun e _ => e.preorder_perm

/-- The identifiers that a walk through a unit meets are those of its expressions. -/
theorem idents_unit (u : CompilationUnit) :
    (unit everywhere u).filterMap Node.ident? = u.exprs.flatMap Expr.idents := by
  have h : (unit everywhere u).filterMap Node.ident? =
      (found (unit everywhere u)).filterMap Expr.ident? := by
    rw [found, List.filterMap_filterMap]
    rfl
  rw [h, found_unit, List.filterMap_flatMap, funext Expr.preorder_idents]

/-- A walk through a unit meets every node of its expressions, and no other expressions. -/
theorem mem_unit (u : CompilationUnit) (e : Expr) :
    Node.expr e ∈ unit everywhere u ↔ e ∈ u.exprs.flatMap Expr.nodes :=
  mem_found.symm.trans (found_unit_perm u).mem_iff

end Walk

end CSubset
