-- SUMMARY: Lexical scoping stated on the text of a unit, without any table of scopes.
import CSubset.Check.Symbol
import CSubset.Proofs.Syntax.Nodes

/-!
# Lexical scoping

What an identifier stands for is determined here from the program text alone. `uses` lists the
identifiers of a unit in source order, and with each the blocks around it, the innermost first;
of each block there are only the declarations in front of the identifier. A variable is thus
not visible in its own initializer, but a function is in its own body, and parameters share the
block of the body. `resolve` picks the binding of a name in the first block that has one.
-/

namespace CSubset

/-! ## Bindings of a block -/

/-- The declarations of one block that have been passed, in order. -/
abbrev Passed := List Symbol

/-- What a name bound to `held` is bound to behind one more declaration of it, `x`: the first
declaration stays, but a definition takes the place of a forward declaration it agrees with. -/
def settle (held : Option Symbol) (x : Symbol) : Symbol :=
  match held with
  | none => x
  | some held => if held.agrees x ∧ held.isForward ∧ ¬ x.isForward then x else held

/-- What a name is bound to behind some declarations. -/
def binding (passed : Passed) (name : String) : Option Symbol :=
  passed.foldl (fun held x => if x.name = name then some (settle held x) else held) none

/-- What a name stands for inside some blocks, the innermost first. -/
def resolve (blocks : List Passed) (name : String) : Option Symbol :=
  blocks.findSome? fun passed => binding passed name

theorem binding_concat (passed : Passed) (x : Symbol) (name : String) :
    binding (passed ++ [x]) name =
      if x.name = name then some (settle (binding passed name) x) else binding passed name := by
  simp [binding]

theorem resolve_cons (passed : Passed) (blocks : List Passed) (name : String) :
    resolve (passed :: blocks) name = (binding passed name).or (resolve blocks name) := by
  rw [resolve, List.findSome?_cons]
  cases binding passed name <;> rfl

/-! ## Uses of names -/

/-- An identifier, and the blocks around it with what they have declared before it. -/
structure Use where
  anchor : Anchor
  name : String
  blocks : List Passed
deriving DecidableEq, Repr

/-- The declaration that the identifier stands for. -/
def Use.symbol? (x : Use) : Option Symbol := resolve x.blocks x.name

/-- The uses in an expression inside some blocks. -/
def Expr.uses (blocks : List Passed) (e : Expr) : List Use :=
  e.idents.map fun i => ⟨i.1, i.2, blocks⟩

/-- The uses in an expression that may be absent. -/
def optionalUses (blocks : List Passed) (e : Option Expr) : List Use :=
  e.toList.flatMap (Expr.uses blocks)

/-- The uses in the declarations of a block behind those already passed. Every declaration is
passed only once its own uses are listed. -/
def Decl.usesAll (outer : List Passed) (passed : Passed) : List Decl → List Use
  | [] => []
  | d :: rest =>
    d.exprs.flatMap (Expr.uses (passed :: outer)) ++ usesAll outer (passed ++ [d.symbol]) rest

mutual

/-- The uses in a statement. -/
def Stmt.uses (blocks : List Passed) : Stmt → List Use
  | .block body => body.uses blocks
  | .ifThen condition body _ => condition.uses blocks ++ body.uses blocks
  | .ifElse condition body alternative _ =>
    condition.uses blocks ++ (body.uses blocks ++ alternative.uses blocks)
  | .whileLoop condition body _ => condition.uses blocks ++ body.uses blocks
  | .forLoop first condition step body _ =>
    optionalUses blocks first ++ (optionalUses blocks condition ++ optionalUses blocks step) ++
      body.uses blocks
  | .jump _ _ => []
  | .returnStmt value _ => optionalUses blocks value
  | .expr value _ => value.uses blocks

/-- The uses in statements that stand one behind the other. -/
def Stmt.usesAll (blocks : List Passed) : List Stmt → List Use
  | [] => []
  | s :: rest => s.uses blocks ++ Stmt.usesAll blocks rest

/-- The uses in a block; its statements see all its declarations. -/
def Block.uses (blocks : List Passed) : Block → List Use
  | .mk decls stmts _ =>
    Decl.usesAll blocks [] decls ++ Stmt.usesAll (decls.map Decl.symbol :: blocks) stmts

end

/-- The uses in the body of a function, whose parameters belong to its block. -/
def Prototype.bodyUses (p : Prototype) (body : Block) (file : Passed) : List Use :=
  let parameters := p.parameters.map Symbol.parameter
  Decl.usesAll [file] parameters body.decls ++
    Stmt.usesAll [parameters ++ body.decls.map Decl.symbol, file] body.stmts

/-- The uses in a declaration at file level behind those already passed. -/
def External.uses (passed : Passed) : External → List Use
  | decl d => d.exprs.flatMap (Expr.uses [passed])
  | definition p body => p.bodyUses body (passed ++ [.function p true])

/-- The uses in declarations at file level behind those already passed. -/
def External.usesAll (passed : Passed) : List External → List Use
  | [] => []
  | d :: rest => d.uses passed ++ usesAll (passed ++ [d.symbol]) rest

/-- The uses in a unit, in source order. -/
def CompilationUnit.uses (u : CompilationUnit) : List Use := External.usesAll [] u.decls

/-! ## Every identifier is a use -/

/-- The identifier of a use. -/
def Use.ident (x : Use) : Anchor × String := (x.anchor, x.name)

theorem Expr.uses_idents (blocks : List Passed) (e : Expr) :
    (e.uses blocks).map Use.ident = e.idents := by
  simp [Expr.uses, Use.ident, Function.comp_def]

theorem uses_flatMap_idents (blocks : List Passed) (es : List Expr) :
    (es.flatMap (Expr.uses blocks)).map Use.ident = es.flatMap Expr.idents := by
  induction es with
  | nil => rfl
  | cons e rest ih =>
    rw [List.flatMap_cons, List.map_append, ih, Expr.uses_idents, List.flatMap_cons]

theorem Decl.usesAll_idents (outer : List Passed) (passed : Passed) (ds : List Decl) :
    (Decl.usesAll outer passed ds).map Use.ident =
      (ds.flatMap Decl.exprs).flatMap Expr.idents := by
  induction ds generalizing passed with
  | nil => rfl
  | cons d rest ih =>
    rw [Decl.usesAll, List.map_append, ih, uses_flatMap_idents, List.flatMap_cons,
      List.flatMap_append]

mutual

theorem Stmt.uses_idents (blocks : List Passed) : ∀ s : Stmt,
    (s.uses blocks).map Use.ident = s.exprs.flatMap Expr.idents
  | .block body => body.uses_idents blocks
  | .ifThen condition body _ => by
    rw [Stmt.uses, List.map_append, Expr.uses_idents, body.uses_idents, Stmt.exprs,
      List.flatMap_cons]
  | .ifElse condition body alternative _ => by
    rw [Stmt.uses, List.map_append, List.map_append, Expr.uses_idents, body.uses_idents,
      alternative.uses_idents, Stmt.exprs, List.flatMap_cons, List.flatMap_append]
  | .whileLoop condition body _ => by
    rw [Stmt.uses, List.map_append, Expr.uses_idents, body.uses_idents, Stmt.exprs,
      List.flatMap_cons]
  | .forLoop first condition step body _ => by
    simp only [Stmt.uses, optionalUses, List.map_append, uses_flatMap_idents,
      body.uses_idents, Stmt.exprs, List.flatMap_append, List.append_assoc]
  | .jump _ _ => rfl
  | .returnStmt value _ => uses_flatMap_idents _ _
  | .expr value _ => by
    rw [Stmt.uses, Expr.uses_idents, Stmt.exprs, List.flatMap_singleton]

theorem Stmt.usesAll_idents (blocks : List Passed) : ∀ ss : List Stmt,
    (Stmt.usesAll blocks ss).map Use.ident = (Stmt.exprsAll ss).flatMap Expr.idents
  | [] => rfl
  | s :: rest => by
    rw [Stmt.usesAll, List.map_append, s.uses_idents, Stmt.usesAll_idents blocks rest,
      Stmt.exprsAll, List.flatMap_append]

theorem Block.uses_idents (blocks : List Passed) : ∀ b : Block,
    (b.uses blocks).map Use.ident = b.exprs.flatMap Expr.idents
  | .mk decls stmts _ => by
    rw [Block.uses, List.map_append, Decl.usesAll_idents, Stmt.usesAll_idents, Block.exprs,
      List.flatMap_append]

end

theorem External.uses_idents (passed : Passed) (d : External) :
    (d.uses passed).map Use.ident = d.exprs.flatMap Expr.idents := by
  cases d with
  | decl d => exact uses_flatMap_idents _ _
  | definition p body =>
    obtain ⟨decls, stmts, l⟩ := body
    simp only [External.uses, Prototype.bodyUses, List.map_append, Decl.usesAll_idents,
      Stmt.usesAll_idents, External.exprs, Block.exprs, List.flatMap_append, Block.decls,
      Block.stmts]

/-- The uses of a unit are its identifiers in source order. -/
theorem CompilationUnit.uses_idents (u : CompilationUnit) :
    u.uses.map Use.ident = u.exprs.flatMap Expr.idents := by
  have all (passed : Passed) (ds : List External) :
      (External.usesAll passed ds).map Use.ident =
        (ds.flatMap External.exprs).flatMap Expr.idents := by
    induction ds generalizing passed with
    | nil => rfl
    | cons d rest ih =>
      rw [External.usesAll, List.map_append, ih, External.uses_idents, List.flatMap_cons,
        List.flatMap_append]
  exact all [] u.decls

end CSubset
