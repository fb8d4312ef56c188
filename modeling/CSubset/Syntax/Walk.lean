-- SUMMARY: The nodes of a compilation unit as a tree, and the walk through them.
import CSubset.Syntax.Unit

/-!
# Walking a compilation unit

`Node` is any node of a compilation unit, and `Node.children` lists the nodes directly
below it in source order. A walk lists a node before the nodes below it and goes below
only the nodes it is told to descend into; `walk_eq` states this through `children` for
every kind of node.

A statement that is a block has one child, the block itself. The bodies of functions,
branches and loops are blocks without a statement around them.
-/

namespace CSubset

/-- A node of a compilation unit. -/
inductive Node where
  | unit (u : CompilationUnit)
  | decl (d : External)
  | function (p : Prototype) (body : Option Block)
  | parameter (p : Parameter)
  | var (v : Variable)
  | block (b : Block)
  | stmt (s : Stmt)
  | expr (e : Expr)
deriving Repr

namespace Node

/-- The nodes directly below a node, in source order. -/
def children : Node → List Node
  | unit u => u.decls.map decl
  | decl (.decl (.function p)) => [function p none]
  | decl (.decl (.var v)) => [var v]
  | decl (.definition p body) => [function p (some body)]
  | function p body => p.parameters.map parameter ++ body.toList.map block
  | parameter _ => []
  | var v => v.initializer.toList.map expr
  | block b => b.decls.map (fun d => decl (.decl d)) ++ b.stmts.map stmt
  | stmt (.block body) => [block body]
  | stmt (.ifThen condition body _) => [expr condition, block body]
  | stmt (.ifElse condition body alternative _) => [expr condition, block body, block alternative]
  | stmt (.whileLoop condition body _) => [expr condition, block body]
  | stmt (.forLoop first condition step body _) =>
    first.toList.map expr ++ condition.toList.map expr ++ step.toList.map expr ++ [block body]
  | stmt (.jump _ _) => []
  | stmt (.returnStmt value _) => value.toList.map expr
  | stmt (.expr value _) => [expr value]
  | expr e => e.children.map expr

end Node

namespace Walk

/-- A node, and what lies below it if the walk descends there. -/
def enter (descend : Node → Bool) (n : Node) (below : List Node) : List Node :=
  n :: if descend n then below else []

variable (descend : Node → Bool)

mutual

/-- The walk from an expression on. -/
def expr : Expr → List Node
  | e@(.literal _ _) => enter descend (.expr e) []
  | e@(.ident _ _) => enter descend (.expr e) []
  | e@(.unary _ _ operand) => enter descend (.expr e) (expr operand)
  | e@(.binary _ _ left right) => enter descend (.expr e) (expr left ++ expr right)
  | e@(.assign _ _ target value) => enter descend (.expr e) (expr target ++ expr value)
  | e@(.call _ callee arguments) => enter descend (.expr e) (expr callee ++ exprs arguments)
  | e@(.index _ base subscript) => enter descend (.expr e) (expr base ++ expr subscript)

/-- The walk through expressions that stand one behind the other. -/
def exprs : List Expr → List Node
  | [] => []
  | e :: rest => expr e ++ exprs rest

end

/-- The walk through an expression that may be absent. -/
def optional : Option Expr → List Node
  | none => []
  | some e => expr descend e

/-- The walk from a variable on. -/
def var (v : Variable) : List Node := enter descend (.var v) (optional descend v.initializer)

/-- The walk from a parameter on. -/
def parameter (p : Parameter) : List Node := enter descend (.parameter p) []

/-- The walk from a function on, given the walk through its body. -/
def function (p : Prototype) (body : Option Block) (below : List Node) : List Node :=
  enter descend (.function p body) (p.parameters.flatMap (parameter descend) ++ below)

/-- The walk from a declaration inside a block on. -/
def decl : Decl → List Node
  | d@(.function p) => enter descend (.decl (.decl d)) (function descend p none [])
  | d@(.var v) => enter descend (.decl (.decl d)) (var descend v)

mutual

/-- The walk from a statement on. -/
def stmt : Stmt → List Node
  | s@(.block body) => enter descend (.stmt s) (block body)
  | s@(.ifThen condition body _) =>
    enter descend (.stmt s) (expr descend condition ++ block body)
  | s@(.ifElse condition body alternative _) =>
    enter descend (.stmt s) (expr descend condition ++ (block body ++ block alternative))
  | s@(.whileLoop condition body _) =>
    enter descend (.stmt s) (expr descend condition ++ block body)
  | s@(.forLoop first condition step body _) =>
    enter descend (.stmt s)
      (optional descend first ++ optional descend condition ++ optional descend step ++ block body)
  | s@(.jump _ _) => enter descend (.stmt s) []
  | s@(.returnStmt value _) => enter descend (.stmt s) (optional descend value)
  | s@(.expr value _) => enter descend (.stmt s) (expr descend value)

/-- The walk through statements that stand one behind the other. -/
def stmts : List Stmt → List Node
  | [] => []
  | s :: rest => stmt s ++ stmts rest

/-- The walk from a block on. -/
def block : Block → List Node
  | b@(.mk decls body _) => enter descend (.block b) (decls.flatMap (decl descend) ++ stmts body)

end

/-- The walk from an external declaration on. -/
def external : External → List Node
  | .decl d => decl descend d
  | d@(.definition p body) =>
    enter descend (.decl d) (function descend p (some body) (block descend body))

/-- The walk through a whole compilation unit. -/
def unit (u : CompilationUnit) : List Node :=
  enter descend (.unit u) (u.decls.flatMap (external descend))

end Walk

namespace Node

/-- The nodes met on the walk that starts at a node: the node, and below every node that
`descend` admits, the walks from its children. -/
def walk (descend : Node → Bool) : Node → List Node
  | unit u => Walk.unit descend u
  | decl d => Walk.external descend d
  | function p body => Walk.function descend p body (body.elim [] (Walk.block descend))
  | parameter p => Walk.parameter descend p
  | var v => Walk.var descend v
  | block b => Walk.block descend b
  | stmt s => Walk.stmt descend s
  | expr e => Walk.expr descend e

end Node

-- ---------------------------------------------------------------------------
-- The walk in terms of children
-- ---------------------------------------------------------------------------

theorem Walk.exprs_eq_flatMap (descend : Node → Bool) (es : List Expr) :
    Walk.exprs descend es = es.flatMap (Walk.expr descend) := by
  induction es with
  | nil => rfl
  | cons e rest ih => simp [Walk.exprs, ih]

theorem Walk.stmts_eq_flatMap (descend : Node → Bool) (ss : List Stmt) :
    Walk.stmts descend ss = ss.flatMap (Walk.stmt descend) := by
  induction ss with
  | nil => simp [Walk.stmts]
  | cons s rest ih => simp [Walk.stmts, ih]

theorem Walk.optional_eq_flatMap (descend : Node → Bool) (e : Option Expr) :
    Walk.optional descend e = (e.toList.map Node.expr).flatMap (Node.walk descend) := by
  cases e <;> simp [Walk.optional, Node.walk]

/-- A walk lists the node and, if it descends there, walks through the children in order. -/
theorem Node.walk_eq (descend : Node → Bool) (n : Node) :
    n.walk descend = n :: if descend n then n.children.flatMap (Node.walk descend) else [] := by
  rcases n with u | d | ⟨p, body⟩ | p | v | b | s | e
  · simp [walk, Walk.unit, Walk.enter, children, List.flatMap_map]
  · rcases d with (p | v) | ⟨p, body⟩ <;>
      simp [walk, Walk.external, Walk.decl, Walk.enter, children]
  · cases body <;>
      simp [walk, Walk.function, Walk.enter, children, List.flatMap_map]
  · simp [walk, Walk.parameter, Walk.enter, children]
  · simp [walk, Walk.var, Walk.enter, children, Walk.optional_eq_flatMap]
  · rcases b with ⟨decls, body, l⟩
    simp [walk, Walk.block, Walk.enter, children, Walk.stmts_eq_flatMap, List.flatMap_map,
      Block.decls, Block.stmts, Walk.external]
  · cases s <;>
      simp [walk, Walk.stmt, Walk.enter, children, Walk.optional_eq_flatMap, List.flatMap_append]
  · cases e <;>
      simp [walk, Walk.expr, Walk.enter, children, Expr.children, Walk.exprs_eq_flatMap,
        List.flatMap_map]

end CSubset
