-- SUMMARY: The blocks of a nest are those that a walk through the program meets, and their braces open in that order.
import CSubset.Proofs.Grammar.Positions
import CSubset.Proofs.Scoping.Nesting
import Mathlib.Data.List.Flatten
import Mathlib.Data.List.Perm.Basic

/-!
# Blocks on a walk

The block structure of a unit lists the nodes that a walk meets: all blocks in the order of the
walk (`nest_blocks`), those directly inside a block if the walk enters no other block
(`inner_nested`), and as many as there are function definitions and blocks below statements
(`length_nest`). In a unit that was read from tokens the opening braces stand in this order
(`opens`).
-/

namespace CSubset

/-! ## Nodes -/

namespace Node

/-- Whether a node is a block. -/
def isBlock : Node → Bool
  | block _ => true
  | _ => false

/-- The blocks directly below a statement: those that are not the body of a function. -/
def compounds : Node → List Node
  | n@(stmt _) => n.children.filter isBlock
  | _ => []

/-- The blocks below a node that no other block below it encloses: those met by a walk that enters
no block. -/
def nested (n : Node) : List Node :=
  (n.children.flatMap (walk fun m => !m.isBlock)).filter isBlock

/-- Where a block is opened. -/
def opening? : Node → Option Location
  | block b => some b.location
  | _ => none

end Node

/-- Whether a declaration at file level defines a function. -/
def External.isDefinition : External → Bool
  | decl _ => false
  | definition _ _ => true

/-- The blocks of a statement. -/
def Stmt.bodies : Stmt → List Block
  | .block body => [body]
  | .ifThen _ body _ => [body]
  | .ifElse _ body alternative _ => [body, alternative]
  | .whileLoop _ body _ => [body]
  | .forLoop _ _ _ body _ => [body]
  | .jump _ _ => []
  | .returnStmt _ _ => []
  | .expr _ _ => []

theorem Stmt.nests_eq (s : Stmt) : s.nests = s.bodies.map Block.nest := by cases s <;> rfl

theorem Stmt.nestsAll_eq (ss : List Stmt) : Stmt.nestsAll ss = ss.flatMap Stmt.nests := by
  induction ss with
  | nil => rfl
  | cons s rest ih => rw [Stmt.nestsAll, ih, List.flatMap_cons]

/-! ## Walks -/

namespace Walk

variable {β : Type} {descend : Node → Bool}

/-- What is listed for blocks and statements, and for no other nodes. -/
structure OfBlocks (f : Node → List β) : Prop where
  decl : ∀ d, f (.decl d) = []
  function : ∀ p body, f (.function p body) = []
  parameter : ∀ p, f (.parameter p) = []
  var : ∀ v, f (.var v) = []
  expr : ∀ e, f (.expr e) = []

variable {f : Node → List β}

theorem flatMap_enter {n : Node} (hn : descend n = true) (below : List Node) :
    (enter descend n below).flatMap f = f n ++ below.flatMap f := by
  rw [enter, if_pos hn, List.flatMap_cons]

namespace OfBlocks

theorem enter_nil {n : Node} {below : List Node} (hn : f n = []) (hb : below.flatMap f = []) :
    (enter descend n below).flatMap f = [] := by
  rw [enter, List.flatMap_cons, hn]
  split
  · exact hb
  · rfl

theorem append_nil {xs ys : List Node} (hx : xs.flatMap f = []) (hy : ys.flatMap f = []) :
    (xs ++ ys).flatMap f = [] := by
  rw [List.flatMap_append, hx, hy, List.append_nil]

mutual

theorem expr_nil (hf : OfBlocks f) : ∀ e : Expr, (Walk.expr descend e).flatMap f = []
  | .literal _ _ => enter_nil (hf.expr _) rfl
  | .ident _ _ => enter_nil (hf.expr _) rfl
  | .unary _ _ operand => enter_nil (hf.expr _) (hf.expr_nil operand)
  | .binary _ _ left right =>
    enter_nil (hf.expr _) (append_nil (hf.expr_nil left) (hf.expr_nil right))
  | .assign _ _ target value =>
    enter_nil (hf.expr _) (append_nil (hf.expr_nil target) (hf.expr_nil value))
  | .call _ callee args =>
    enter_nil (hf.expr _) (append_nil (hf.expr_nil callee) (hf.exprs_nil args))
  | .index _ base subscript =>
    enter_nil (hf.expr _) (append_nil (hf.expr_nil base) (hf.expr_nil subscript))

theorem exprs_nil (hf : OfBlocks f) : ∀ es : List Expr, (Walk.exprs descend es).flatMap f = []
  | [] => rfl
  | e :: rest => append_nil (hf.expr_nil e) (hf.exprs_nil rest)

end

variable (hf : OfBlocks f)

include hf

theorem optional_nil (e : Option Expr) : (Walk.optional descend e).flatMap f = [] := by
  cases e with
  | none => rfl
  | some e => exact hf.expr_nil e

theorem parameters_nil (ps : List Parameter) :
    (ps.flatMap (Walk.parameter descend)).flatMap f = [] := by
  induction ps with
  | nil => rfl
  | cons p rest ih => exact append_nil (enter_nil (hf.parameter p) rfl) ih

theorem decl_nil (d : Decl) : (Walk.decl descend d).flatMap f = [] := by
  cases d with
  | function p =>
    exact enter_nil (hf.decl _)
      (enter_nil (hf.function p none) (append_nil (hf.parameters_nil _) rfl))
  | var v => exact enter_nil (hf.decl _) (enter_nil (hf.var v) (hf.optional_nil _))

theorem decls_nil (ds : List Decl) : (ds.flatMap (Walk.decl descend)).flatMap f = [] := by
  induction ds with
  | nil => rfl
  | cons d rest ih => exact append_nil (hf.decl_nil d) ih

/-- Of a statement nothing is listed but itself and its blocks. -/
theorem stmt (s : Stmt) (hs : descend (.stmt s) = true) :
    (Walk.stmt descend s).flatMap f =
      f (.stmt s) ++ s.bodies.flatMap fun b => (Walk.block descend b).flatMap f := by
  cases s <;>
    simp only [Walk.stmt, flatMap_enter hs, List.flatMap_append, hf.expr_nil, hf.optional_nil,
      Stmt.bodies, List.flatMap_cons, List.flatMap_nil, List.nil_append, List.append_nil]

/-- Of a block nothing is listed but itself and its statements. -/
theorem block (b : Block) (hb : descend (.block b) = true) :
    (Walk.block descend b).flatMap f =
      f (.block b) ++ b.stmts.flatMap fun s => (Walk.stmt descend s).flatMap f := by
  rcases b with ⟨decls, stmts, l⟩
  rw [Walk.block, flatMap_enter hb, List.flatMap_append, hf.decls_nil, List.nil_append,
    Walk.stmts_eq_flatMap, List.flatMap_assoc]
  rfl

/-- Of a declaration at file level nothing is listed but what is for the body of a function. -/
theorem definition (p : Prototype) (body : Block)
    (hd : descend (.decl (.definition p body)) = true)
    (hp : descend (.function p (some body)) = true) :
    (Walk.external descend (.definition p body)).flatMap f =
      (Walk.block descend body).flatMap f := by
  rw [Walk.external, flatMap_enter hd, hf.decl, List.nil_append, Walk.function, flatMap_enter hp,
    hf.function, List.nil_append, List.flatMap_append, hf.parameters_nil, List.nil_append]

end OfBlocks

/-! ## All blocks -/

/-- Lists blocks alone. -/
def blockList (n : Node) : List Node := if n.isBlock then [n] else []

theorem filter_isBlock (nodes : List Node) :
    nodes.filter Node.isBlock = nodes.flatMap blockList := by
  induction nodes with
  | nil => rfl
  | cons n rest ih =>
    rw [List.flatMap_cons, ← ih, List.filter_cons, blockList]
    split <;> rfl

theorem ofBlocks_blockList : OfBlocks blockList :=
  ⟨fun _ => rfl, fun _ _ => rfl, fun _ => rfl, fun _ => rfl, fun _ => rfl⟩

theorem ofBlocks_compounds : OfBlocks Node.compounds :=
  ⟨fun _ => rfl, fun _ _ => rfl, fun _ => rfl, fun _ => rfl, fun _ => rfl⟩

theorem compounds_stmt (s : Stmt) : (Node.stmt s).compounds = s.bodies.map Node.block := by
  rcases s with _ | _ | _ | _ | ⟨_ | _, _ | _, _ | _, _, _⟩ | _ | ⟨_ | _, _⟩ | _ <;> rfl

end Walk

open Walk Nest

mutual

theorem Stmt.bodies_induction {P : Block → Prop}
    (step : ∀ b : Block, (∀ s ∈ b.stmts, ∀ c ∈ s.bodies, P c) → P b) :
    ∀ s : Stmt, ∀ c ∈ s.bodies, P c
  | .block body => List.forall_mem_singleton.mpr (body.bodies_induction step)
  | .ifThen _ body _ => List.forall_mem_singleton.mpr (body.bodies_induction step)
  | .ifElse _ body alternative _ => List.forall_mem_cons.mpr
      ⟨body.bodies_induction step,
        List.forall_mem_singleton.mpr (alternative.bodies_induction step)⟩
  | .whileLoop _ body _ => List.forall_mem_singleton.mpr (body.bodies_induction step)
  | .forLoop _ _ _ body _ => List.forall_mem_singleton.mpr (body.bodies_induction step)
  | .jump _ _ => List.forall_mem_nil _
  | .returnStmt _ _ => List.forall_mem_nil _
  | .expr _ _ => List.forall_mem_nil _

theorem Stmt.bodiesAll_induction {P : Block → Prop}
    (step : ∀ b : Block, (∀ s ∈ b.stmts, ∀ c ∈ s.bodies, P c) → P b) :
    ∀ ss : List Stmt, ∀ s ∈ ss, ∀ c ∈ s.bodies, P c
  | [] => List.forall_mem_nil _
  | s :: rest => List.forall_mem_cons.mpr
      ⟨s.bodies_induction step, Stmt.bodiesAll_induction step rest⟩

/-- What holds of a block if it holds of the blocks of its statements holds of all blocks. -/
theorem Block.bodies_induction {P : Block → Prop}
    (step : ∀ b : Block, (∀ s ∈ b.stmts, ∀ c ∈ s.bodies, P c) → P b) : ∀ b : Block, P b
  | .mk _ stmts _ => step _ (Stmt.bodiesAll_induction step stmts)

end

theorem Nest.preorderAll_eq_flatMap (bs : List Nest) : preorderAll bs = bs.flatMap preorder := by
  induction bs with
  | nil => rfl
  | cons b rest ih => rw [preorderAll, ih, List.flatMap_cons]

theorem Stmt.preorder_nests (s : Stmt) :
    preorderAll s.nests = s.bodies.flatMap fun c => c.nest.preorder := by
  rw [s.nests_eq, preorderAll_eq_flatMap, List.flatMap_map]

theorem Block.nest_eq (b : Block) :
    b.nest = .mk (.block b) (b.decls.map Decl.symbol) (b.stmts.flatMap Stmt.nests) := by
  cases b
  rw [Block.nest, Stmt.nestsAll_eq]
  rfl

theorem Block.preorder_nest (b : Block) :
    b.nest.preorder =
      b.nest :: b.stmts.flatMap fun s => s.bodies.flatMap fun c => c.nest.preorder := by
  rw [preorder_eq, b.nest_eq, Nest.inner, preorderAll_eq_flatMap, List.flatMap_assoc]
  refine congrArg _ (List.flatMap_congr fun s _ => ?_)
  rw [← preorderAll_eq_flatMap, s.preorder_nests]

theorem Block.nest_blocks (b : Block) :
    b.nest.preorder.map Nest.node = (Walk.block everywhere b).flatMap blockList := by
  induction b using Block.bodies_induction with
  | step b ih =>
    rw [b.preorder_nest, List.map_cons, ofBlocks_blockList.block b rfl, b.nest_eq, List.map_flatMap]
    refine congrArg (_ :: ·) (List.flatMap_congr fun s hs => ?_)
    rw [ofBlocks_blockList.stmt s rfl, List.map_flatMap]
    exact List.flatMap_congr (ih s hs)

/-- A block and the blocks below the statements in it are all its blocks. -/
theorem Block.nest_compounds (b : Block) :
    (b.nest.preorder.map Nest.node).Perm
      (.block b :: (Walk.block everywhere b).flatMap Node.compounds) := by
  induction b using Block.bodies_induction with
  | step b ih =>
    rw [b.preorder_nest, List.map_cons, ofBlocks_compounds.block b rfl, b.nest_eq, List.map_flatMap]
    refine .cons _ (.flatMap_left _ fun s hs => ?_)
    rw [ofBlocks_compounds.stmt s rfl, List.map_flatMap, compounds_stmt]
    refine (List.Perm.flatMap_left _ (ih s hs)).trans ?_
    rw [List.map_eq_flatMap]
    exact (List.flatMap_append_perm s.bodies (fun c => [Node.block c]) _).symm

/-! ## Directly nested blocks -/

/-- A walk that enters no block. -/
def outside : Node → Bool := fun n => !n.isBlock

theorem Walk.block_outside (b : Block) : Walk.block outside b = [.block b] := by
  cases b
  rfl

theorem Stmt.nests_nested (s : Stmt) :
    (Walk.stmt outside s).flatMap blockList = s.nests.map Nest.node := by
  rw [ofBlocks_blockList.stmt s rfl, s.nests_eq, List.map_map, List.map_eq_flatMap]
  refine List.flatMap_congr fun b _ => ?_
  rw [block_outside, Function.comp_apply, b.nest_eq]
  rfl

/-- The blocks of the statements of a block are those inside it that no other encloses. -/
theorem Block.nested_eq (b : Block) :
    (Node.block b).nested = (b.stmts.flatMap Stmt.nests).map Nest.node := by
  have hdecls : (b.decls.flatMap (Walk.decl outside)).flatMap blockList = [] :=
    ofBlocks_blockList.decls_nil b.decls
  have hstmts : (b.stmts.flatMap (Walk.stmt outside)).flatMap blockList =
      (b.stmts.flatMap Stmt.nests).map Nest.node := by
    rw [List.flatMap_assoc, List.map_flatMap]
    exact List.flatMap_congr fun s _ => s.nests_nested
  have hchildren : (Node.block b).children.flatMap (Node.walk outside) =
      b.decls.flatMap (Walk.decl outside) ++ b.stmts.flatMap (Walk.stmt outside) := by
    rw [Node.children, List.flatMap_append, List.flatMap_map, List.flatMap_map]
    rfl
  rw [← hstmts, ← List.nil_append (List.flatMap _ (List.flatMap _ _)), ← hdecls,
    ← List.flatMap_append, ← hchildren, ← filter_isBlock]
  rfl

theorem Block.inner_nested (b : Block) :
    ∀ c ∈ b.nest.preorder, c.inner.map Nest.node = c.node.nested := by
  induction b using Block.bodies_induction with
  | step b ih =>
    rw [b.preorder_nest]
    refine List.forall_mem_cons.mpr ⟨?_, fun c hc => ?_⟩
    · rw [b.nest_eq]
      exact b.nested_eq.symm
    · obtain ⟨s, hs, hc⟩ := List.mem_flatMap.mp hc
      obtain ⟨d, hd, hc⟩ := List.mem_flatMap.mp hc
      exact ih s hs d hd c hc

/-! ## Units -/

theorem Prototype.bodyNest_eq (p : Prototype) (body : Block) :
    p.bodyNest body = .mk (.block body)
      (p.parameters.map Symbol.parameter ++ body.decls.map Decl.symbol)
      (body.stmts.flatMap Stmt.nests) := by
  rw [bodyNest, Stmt.nestsAll_eq]

/-- Parameters apart, the body of a function has the blocks of a block like others. -/
theorem Prototype.bodyNest_blocks (p : Prototype) (body : Block) :
    (p.bodyNest body).preorder.map Nest.node = body.nest.preorder.map Nest.node := by
  rw [preorder_eq, preorder_eq, p.bodyNest_eq, body.nest_eq]
  rfl

theorem External.nests_blocks (d : External) :
    (preorderAll d.nests).map Nest.node = (Walk.external everywhere d).flatMap blockList := by
  cases d with
  | decl d => exact (ofBlocks_blockList.decl_nil d).symm
  | definition p body =>
    rw [ofBlocks_blockList.definition p body rfl rfl, External.nests, preorderAll_singleton,
      p.bodyNest_blocks, body.nest_blocks]

/-- Below the file, the blocks of a unit are those that a walk meets, in the same order. -/
theorem CompilationUnit.nest_blocks (u : CompilationUnit) :
    u.nest.preorder.map Nest.node =
      .unit u :: ((Node.unit u).walk everywhere).filter Node.isBlock := by
  have hwalk : (Node.unit u).walk everywhere =
      .unit u :: u.decls.flatMap (Walk.external everywhere) := rfl
  rw [hwalk, List.filter_cons_of_neg Bool.false_ne_true, filter_isBlock, List.flatMap_assoc,
    preorder_eq, List.map_cons, nest, Nest.inner, preorderAll_eq_flatMap, List.flatMap_assoc,
    List.map_flatMap]
  refine congrArg (_ :: ·) (List.flatMap_congr fun d _ => ?_)
  rw [← preorderAll_eq_flatMap, d.nests_blocks]

theorem External.nests_compounds (d : External) :
    (preorderAll d.nests).length =
      (if d.isDefinition then 1 else 0) +
        ((Walk.external everywhere d).flatMap Node.compounds).length := by
  cases d with
  | decl d =>
    have hnone : (Walk.external everywhere (.decl d)).flatMap Node.compounds = [] :=
      ofBlocks_compounds.decl_nil d
    rw [hnone]
    rfl
  | definition p body =>
    have hperm := body.nest_compounds.length_eq
    rw [← p.bodyNest_blocks body, List.length_map, List.length_cons] at hperm
    rw [ofBlocks_compounds.definition p body rfl rfl, External.nests, preorderAll_singleton, hperm,
      Nat.add_comm]
    rfl

/-- Besides the file there are as many blocks as function definitions and blocks below
statements. -/
theorem CompilationUnit.length_nest (u : CompilationUnit) :
    u.nest.preorder.length = 1 + (u.decls.filter External.isDefinition).length +
      (((Node.unit u).walk everywhere).flatMap Node.compounds).length := by
  have hdecls : ∀ ds : List External, (preorderAll (ds.flatMap External.nests)).length =
      (ds.filter External.isDefinition).length +
        ((ds.flatMap (Walk.external everywhere)).flatMap Node.compounds).length := by
    intro ds
    induction ds with
    | nil => rfl
    | cons d rest ih =>
      have hd := d.nests_compounds
      rw [List.flatMap_cons, preorderAll_append, List.length_append, hd, ih, List.flatMap_cons,
        List.flatMap_append, List.length_append, List.filter_cons]
      cases d.isDefinition <;>
        simp only [Bool.false_eq_true, if_true, if_false, List.length_cons] <;>
        omega
  have hwalk : ((Node.unit u).walk everywhere).flatMap Node.compounds =
      (u.decls.flatMap (Walk.external everywhere)).flatMap Node.compounds := rfl
  rw [hwalk, preorder_eq, List.length_cons, nest, Nest.inner, hdecls]
  omega

theorem External.nested_eq (d : External) :
    (Walk.external outside d).flatMap blockList = d.nests.map Nest.node := by
  cases d with
  | decl d => exact ofBlocks_blockList.decl_nil d
  | definition p body =>
    rw [ofBlocks_blockList.definition p body rfl rfl, block_outside]
    rfl

theorem Prototype.inner_nested (p : Prototype) (body : Block) :
    ∀ b ∈ (p.bodyNest body).preorder, b.inner.map Nest.node = b.node.nested := by
  rw [preorder_eq, p.bodyNest_eq]
  refine List.forall_mem_cons.mpr ⟨body.nested_eq.symm, fun b hb => body.inner_nested b ?_⟩
  rw [preorder_eq, body.nest_eq]
  exact List.mem_cons_of_mem _ hb

/-- The blocks directly inside the file or a block are those that no other block inside it
encloses. -/
theorem CompilationUnit.inner_nested (u : CompilationUnit) :
    ∀ b ∈ u.nest.preorder, b.inner.map Nest.node = b.node.nested := by
  rw [preorder_eq]
  refine List.forall_mem_cons.mpr ⟨?_, fun b hb => ?_⟩
  · have hchildren : (Node.unit u).children.flatMap (Node.walk outside) =
        u.decls.flatMap (Walk.external outside) := List.flatMap_map ..
    have hnested : (Node.unit u).nested =
        (u.decls.flatMap (Walk.external outside)).flatMap blockList := by
      rw [← hchildren, ← filter_isBlock]
      rfl
    rw [nest, Nest.inner, node, hnested, List.flatMap_assoc, List.map_flatMap]
    exact List.flatMap_congr fun d _ => d.nested_eq.symm
  · rw [nest, Nest.inner, preorderAll_eq_flatMap, List.flatMap_assoc] at hb
    obtain ⟨d, -, hb⟩ := List.mem_flatMap.mp hb
    cases d with
    | decl d => cases hb
    | definition p body =>
      rw [External.nests, List.flatMap_singleton] at hb
      exact p.inner_nested body b hb

/-! ## Opening braces -/

theorem Node.filterMap_filter_isBlock (ns : List Node) :
    (ns.filter isBlock).filterMap opening? = ns.filterMap opening? := by
  rw [List.filterMap_filter]
  refine List.filterMap_congr fun n _ => ?_
  cases n <;> rfl

/-- In a derived unit the opening braces stand in the order of the blocks. -/
theorem Grammar.TranslationUnit.opens {ts : List Token} {u : CompilationUnit}
    (h : TranslationUnit ts u) :
    Marks ts ((u.nest.preorder.map Nest.node).filterMap Node.opening?) := by
  have hlocation : ∀ n l, Node.opening? n = some l → n.location? = some l := by
    intro n l hl
    cases n with
    | block b => exact hl
    | _ => cases hl
  have hnone : ∀ n, n.location? = none → Node.opening? n = none := fun n hn =>
    Option.eq_none_iff_forall_ne_some.mpr fun l hl => by cases hn.symm.trans (hlocation n l hl)
  rw [u.nest_blocks, List.filterMap_cons_none rfl, Node.filterMap_filter_isBlock,
    ← Node.filterMap_inorder hnone fun _ => rfl]
  exact (filterMap_sublist hlocation _).trans h.anchors.locations

end CSubset
