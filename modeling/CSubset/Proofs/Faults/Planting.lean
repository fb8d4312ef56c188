-- SUMMARY: Planting an unknown name at chosen nodes of a unit, and what the rest of the unit keeps.
import CSubset.Check.Unit
import CSubset.Proofs.Syntax.Nodes

/-!
# Planting names

`plant p name` replaces every outermost node whose number `p` picks, and with it all that is
below the node, by an identifier of the given name with the number and the position of the
node. `replaced p` lists the nodes that go. Where nodes have different numbers, picking the
number of one node replaces that node and nothing else.
-/

namespace CSubset

variable (p : Nat → Bool) (name : String)

/-! ## Planting -/

/-- An identifier in the place of a node that `p` picks. -/
def graft (a : Anchor) (e : Expr) : Expr := if p a.id then .ident a name else e

namespace Expr

mutual

/-- Plants a name at the picked nodes of an expression. -/
def plant : Expr → Expr
  | .literal a value => graft p name a (.literal a value)
  | .ident a x => graft p name a (.ident a x)
  | .unary a op operand => graft p name a (.unary a op operand.plant)
  | .binary a op left right => graft p name a (.binary a op left.plant right.plant)
  | .assign a op target value => graft p name a (.assign a op target.plant value.plant)
  | .call a callee args => graft p name a (.call a callee.plant (plantAll args))
  | .index a base subscript => graft p name a (.index a base.plant subscript.plant)

/-- Plants a name at the picked nodes of expressions that stand one behind the other. -/
def plantAll : List Expr → List Expr
  | [] => []
  | e :: rest => e.plant :: plantAll rest

end

mutual

/-- The nodes of an expression that planting replaces. -/
def replaced : Expr → List Expr
  | e@(.literal a _) => if p a.id then [e] else []
  | e@(.ident a _) => if p a.id then [e] else []
  | e@(.unary a _ operand) => if p a.id then [e] else operand.replaced
  | e@(.binary a _ left right) => if p a.id then [e] else left.replaced ++ right.replaced
  | e@(.assign a _ target value) => if p a.id then [e] else target.replaced ++ value.replaced
  | e@(.call a callee args) => if p a.id then [e] else callee.replaced ++ replacedAll args
  | e@(.index a base subscript) => if p a.id then [e] else base.replaced ++ subscript.replaced

/-- The nodes that planting replaces in expressions that stand one behind the other. -/
def replacedAll : List Expr → List Expr
  | [] => []
  | e :: rest => e.replaced ++ replacedAll rest

end

end Expr

/-- Plants a name in a declaration. -/
def Decl.plant : Decl → Decl
  | .function q => .function q
  | .var v => .var { v with initializer := v.initializer.map (Expr.plant p name) }

mutual

/-- Plants a name in a statement. -/
def Stmt.plant : Stmt → Stmt
  | .block body => .block body.plant
  | .ifThen condition body l => .ifThen (condition.plant p name) body.plant l
  | .ifElse condition body alternative l =>
    .ifElse (condition.plant p name) body.plant alternative.plant l
  | .whileLoop condition body l => .whileLoop (condition.plant p name) body.plant l
  | .forLoop first condition step body l =>
    .forLoop (first.map (Expr.plant p name)) (condition.map (Expr.plant p name))
      (step.map (Expr.plant p name)) body.plant l
  | .jump kind l => .jump kind l
  | .returnStmt value l => .returnStmt (value.map (Expr.plant p name)) l
  | .expr value l => .expr (value.plant p name) l

/-- Plants a name in statements that stand one behind the other. -/
def Stmt.plantAll : List Stmt → List Stmt
  | [] => []
  | s :: rest => s.plant :: Stmt.plantAll rest

/-- Plants a name in a block. -/
def Block.plant : Block → Block
  | .mk decls stmts l => .mk (decls.map (Decl.plant p name)) (Stmt.plantAll stmts) l

end

/-- Plants a name in a declaration at file level. -/
def External.plant : External → External
  | .decl d => .decl (d.plant p name)
  | .definition q body => .definition q (body.plant p name)

/-- Plants a name in a unit. -/
def CompilationUnit.plant (u : CompilationUnit) : CompilationUnit :=
  ⟨u.decls.map (External.plant p name)⟩

/-- The nodes of a unit that planting replaces. -/
def CompilationUnit.replaced (u : CompilationUnit) : List Expr :=
  u.exprs.flatMap (Expr.replaced p)

/-! ## What planting keeps -/

theorem Decl.plant_symbol (d : Decl) : (d.plant p name).symbol = d.symbol := by
  cases d with
  | function q => rfl
  | var v => simp [Decl.plant, Decl.symbol, Symbol.ofVariable]

theorem External.plant_isMain (d : External) : (d.plant p name).isMain = d.isMain := by
  cases d <;> rfl

theorem Stmt.plant_leaves (s : Stmt) : (s.plant p name).leaves = s.leaves := by
  cases s <;> rfl

mutual

theorem Stmt.plant_returnsValue : ∀ s : Stmt, (s.plant p name).returnsValue = s.returnsValue
  | .block body => body.plant_returnsValue
  | .ifThen _ body _ => body.plant_returnsValue
  | .ifElse _ body alternative _ => by
    rw [Stmt.plant, Stmt.returnsValue, Stmt.returnsValue, body.plant_returnsValue,
      alternative.plant_returnsValue]
  | .whileLoop _ body _ => body.plant_returnsValue
  | .forLoop _ _ _ body _ => body.plant_returnsValue
  | .jump _ _ => rfl
  | .returnStmt _ _ => Option.isSome_map
  | .expr _ _ => rfl

theorem Stmt.plantAll_returnsValue : ∀ ss : List Stmt,
    Stmt.anyReturnsValue (Stmt.plantAll p name ss) = Stmt.anyReturnsValue ss
  | [] => rfl
  | s :: rest => by
    rw [Stmt.plantAll, Stmt.anyReturnsValue, Stmt.anyReturnsValue, s.plant_returnsValue,
      s.plant_leaves, Stmt.plantAll_returnsValue rest]

theorem Block.plant_returnsValue : ∀ b : Block, (b.plant p name).returnsValue = b.returnsValue
  | .mk _ stmts _ => Stmt.plantAll_returnsValue stmts

end

theorem CompilationUnit.plant_mainFaults (u : CompilationUnit) :
    (u.plant p name).mainFaults = u.mainFaults := by
  have h : ((u.decls.map (External.plant p name)).filter External.isMain).length =
      (u.decls.filter External.isMain).length := by
    rw [List.filter_map, List.length_map]
    exact congrArg (fun f => (u.decls.filter f).length) (funext (External.plant_isMain p name))
  unfold CompilationUnit.mainFaults CompilationUnit.plant
  rw [h]

/-! ## Picking one node -/

/-- The nodes among some that are picked. -/
def picked (es : List Expr) : List Expr := es.filter fun e => p e.id

theorem picked_append (xs ys : List Expr) : picked p (xs ++ ys) = picked p xs ++ picked p ys :=
  List.filter_append xs ys

variable {p}

/-- Of two lists in which at most one node is picked, each has at most one. -/
theorem length_picked_of_append {xs ys : List Expr} (h : (picked p (xs ++ ys)).length ≤ 1) :
    (picked p xs).length ≤ 1 ∧ (picked p ys).length ≤ 1 := by
  rw [picked_append, List.length_append] at h
  exact ⟨Nat.le_trans (Nat.le_add_right _ _) h, Nat.le_trans (Nat.le_add_left _ _) h⟩

/-- Behind its parts, a node is picked alone or adds nothing to what is picked of them. -/
theorem picked_concat {e : Expr} {rs : List Expr} (xs : List Expr)
    (h : (picked p (xs ++ [e])).length ≤ 1) (hrs : (picked p xs).length ≤ 1 → rs = picked p xs) :
    (if p e.id then [e] else rs) = picked p (xs ++ [e]) := by
  obtain ⟨hxs, -⟩ := length_picked_of_append h
  rw [picked_append] at h ⊢
  cases he : p e.id with
  | true =>
    have hlast : picked p [e] = [e] := List.filter_cons_of_pos he
    rw [hlast, List.length_append, List.length_singleton] at h
    have hnone : picked p xs = [] :=
      List.length_eq_zero_iff.mp (Nat.le_zero.mp (Nat.le_of_succ_le_succ h))
    rw [hlast, hnone]
    rfl
  | false =>
    have hlast : picked p [e] = [] := List.filter_cons_of_neg (by simp [he])
    rw [hlast, List.append_nil, hrs hxs]
    rfl

namespace Expr

mutual

/-- If at most one node of an expression is picked, it is the one that is replaced. -/
theorem replaced_eq_picked : ∀ e : Expr, (picked p e.nodes).length ≤ 1 →
    e.replaced p = picked p e.nodes
  | .literal _ _, h => picked_concat [] h fun _ => rfl
  | .ident _ _, h => picked_concat [] h fun _ => rfl
  | .unary _ _ operand, h => picked_concat _ h operand.replaced_eq_picked
  | .binary _ _ left right, h => picked_concat _ h fun h => by
    rw [picked_append, left.replaced_eq_picked (length_picked_of_append h).1,
      right.replaced_eq_picked (length_picked_of_append h).2]
  | .assign _ _ target value, h => picked_concat _ h fun h => by
    rw [picked_append, target.replaced_eq_picked (length_picked_of_append h).1,
      value.replaced_eq_picked (length_picked_of_append h).2]
  | .call _ callee args, h => picked_concat _ h fun h => by
    rw [picked_append, callee.replaced_eq_picked (length_picked_of_append h).1,
      replacedAll_eq_picked args (length_picked_of_append h).2]
  | .index _ base subscript, h => picked_concat _ h fun h => by
    rw [picked_append, base.replaced_eq_picked (length_picked_of_append h).1,
      subscript.replaced_eq_picked (length_picked_of_append h).2]

theorem replacedAll_eq_picked : ∀ es : List Expr, (picked p (nodesAll es)).length ≤ 1 →
    replacedAll p es = picked p (nodesAll es)
  | [], _ => rfl
  | e :: rest, h => by
    rw [nodesAll] at h ⊢
    rw [replacedAll, picked_append, e.replaced_eq_picked (length_picked_of_append h).1,
      replacedAll_eq_picked rest (length_picked_of_append h).2]

end

end Expr

theorem flatMap_replaced_eq_picked (es : List Expr)
    (h : (picked p (es.flatMap Expr.nodes)).length ≤ 1) :
    es.flatMap (Expr.replaced p) = picked p (es.flatMap Expr.nodes) := by
  induction es with
  | nil => rfl
  | cons e rest ih =>
    rw [List.flatMap_cons] at h ⊢
    rw [List.flatMap_cons, picked_append, e.replaced_eq_picked (length_picked_of_append h).1,
      ih (length_picked_of_append h).2]

/-- Where nodes have different numbers, picking the number of one picks that node alone. -/
theorem picked_singleton {es : List Expr} (hnd : (es.map Expr.id).Nodup) {e : Expr} (he : e ∈ es) :
    picked (fun id => id = e.id) es = [e] := by
  induction es with
  | nil => cases he
  | cons d rest ih =>
    rw [List.map_cons, List.nodup_cons] at hnd
    obtain rfl | he := List.mem_cons.mp he
    · have hrest : picked (fun id => id = e.id) rest = [] := by
        apply List.filter_eq_nil_iff.mpr
        intro d hd hid
        exact hnd.1 (List.mem_map.mpr ⟨d, hd, of_decide_eq_true hid⟩)
      have hself : picked (fun id => id = e.id) [e] = [e] := List.filter_cons_of_pos (by simp)
      rw [← List.singleton_append, picked_append, hself, hrest]
      rfl
    · have hd : picked (fun id => id = e.id) [d] = [] := by
        apply List.filter_cons_of_neg
        intro hid
        exact hnd.1 (List.mem_map.mpr ⟨e, he, (of_decide_eq_true hid).symm⟩)
      rw [← List.singleton_append, picked_append, hd, ih hnd.2 he]
      rfl

/-- Where nodes have different numbers, picking the number of one replaces that node alone. -/
theorem CompilationUnit.replaced_singleton {u : CompilationUnit} {e : Expr}
    (hnd : ((u.exprs.flatMap Expr.nodes).map Expr.id).Nodup) (he : e ∈ u.exprs.flatMap Expr.nodes) :
    u.replaced (fun id => id = e.id) = [e] := by
  have h := picked_singleton hnd he
  rw [CompilationUnit.replaced, flatMap_replaced_eq_picked _ (by rw [h]; exact Nat.le_refl 1), h]

end CSubset
