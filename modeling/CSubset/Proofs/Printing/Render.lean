-- SUMMARY: Compilation units as lists of token kinds, with parentheses only where they are needed.
import CSubset.Proofs.Grammar.Unit
import CSubset.Syntax.Walk

/-!
# Rendering

`CompilationUnit.render` writes a unit as the kinds of the tokens that form it; numbers and
positions of nodes play no part. Every place for an operand asks for a least level, which tells
how tightly the operand has to bind, and an operand that binds more loosely is put in
parentheses. No other parentheses are written.
-/

namespace CSubset

/-- The kind of the token that writes a literal. -/
def Literal.kind : Literal → Token.Kind
  | int value => .intLiteral value
  | float value => .floatLiteral value
  | char value => .charLiteral value
  | string value => .stringLiteral value

namespace Render

/-- Token kinds in parentheses, if these are needed. -/
def group (needed : Bool) (ks : List Token.Kind) : List Token.Kind :=
  if needed then .punctuator .leftParen :: (ks ++ [.punctuator .rightParen]) else ks

end Render

open Render

/-! ## Expressions -/

namespace Expr

/-- How tightly the outermost node of an expression binds: an assignment at level 0, a binary
operator at its precedence, a unary operator at level 7, and all else at level 8. -/
def level : Expr → Nat
  | assign _ _ _ _ => 0
  | binary _ op _ _ => op.precedence
  | unary _ _ _ => 7
  | literal _ _ => 8
  | ident _ _ => 8
  | call _ _ _ => 8
  | index _ _ _ => 8

mutual

/-- An expression without parentheses around the whole. The right operand of a binary operator has
to bind more tightly than the left one, and the target of an assignment can be any expression
but an assignment. -/
def render : Expr → List Token.Kind
  | .literal _ value => [value.kind]
  | .ident _ name => [.identifier name]
  | .unary _ op operand => .punctuator op.mark :: group (operand.level < 7) operand.render
  | .binary _ op left right =>
    group (left.level < op.precedence) left.render ++
      .punctuator op.mark :: group (right.level < op.precedence + 1) right.render
  | .assign _ op target value =>
    group (target.level < 1) target.render ++ .punctuator op.mark :: value.render
  | .call _ callee args =>
    group (callee.level < 8) callee.render ++
      .punctuator .leftParen :: (renderAll args ++ [.punctuator .rightParen])
  | .index _ base subscript =>
    group (base.level < 8) base.render ++
      .punctuator .leftBracket :: (subscript.render ++ [.punctuator .rightBracket])

/-- Arguments with commas between them. -/
def renderAll : List Expr → List Token.Kind
  | [] => []
  | e :: rest => e.render ++ renderMore rest

/-- Further arguments, each behind a comma. -/
def renderMore : List Expr → List Token.Kind
  | [] => []
  | e :: rest => .punctuator .comma :: (e.render ++ renderMore rest)

end

/-- An expression that may be absent. -/
def renderOptional : Option Expr → List Token.Kind
  | none => []
  | some e => e.render

end Expr

/-! ## Declarations -/

/-- A storage class, if there is one. -/
def Storage.render : Storage → List Token.Kind
  | none => []
  | static => [.keyword .staticKw]
  | external => [.keyword .externKw]

namespace DeclaredType

/-- What stands in front of the declared name. -/
def renderFront (t : DeclaredType) : List Token.Kind :=
  (if t.isConst then [.keyword .constKw, .keyword t.base.keyword] else [.keyword t.base.keyword]) ++
    List.replicate t.pointers (.punctuator .star)

/-- The array sizes, which stand behind the declared name. -/
def renderSizes (t : DeclaredType) : List Token.Kind :=
  t.dimensions.flatMap fun (n : Nat) =>
    [.punctuator .leftBracket, .intLiteral n, .punctuator .rightBracket]

/-- A type around a declared name. -/
def renderAround (t : DeclaredType) (name : String) : List Token.Kind :=
  t.renderFront ++ .identifier name :: t.renderSizes

end DeclaredType

/-- A parameter. -/
def Parameter.render (p : Parameter) : List Token.Kind := p.type.renderAround p.name

/-- Parameters with commas between them, and an ellipsis if there is one. -/
def Parameter.renderAll (variadic : Bool) : List Parameter → List Token.Kind
  | [] => []
  | [p] => p.render ++ if variadic then [.punctuator .comma, .punctuator .ellipsis] else []
  | p :: q :: rest => p.render ++ .punctuator .comma :: renderAll variadic (q :: rest)

/-- The heading of a function. -/
def Prototype.render (p : Prototype) : List Token.Kind :=
  p.storage.render ++ (p.returnType.renderFront ++ .identifier p.name :: .punctuator .leftParen ::
    (Parameter.renderAll p.variadic p.parameters ++ [.punctuator .rightParen]))

/-- The declaration of a variable. -/
def Variable.render (v : Variable) : List Token.Kind :=
  v.storage.render ++ (v.type.renderAround v.name ++
    match v.initializer with
    | none => [.punctuator .semicolon]
    | some e => .punctuator .assign :: (e.render ++ [.punctuator .semicolon]))

/-- A declaration that can stand in a block. -/
def Decl.render : Decl → List Token.Kind
  | function p => p.render ++ [.punctuator .semicolon]
  | var v => v.render

/-! ## Statements -/

mutual

/-- A statement. -/
def Stmt.render : Stmt → List Token.Kind
  | .block body => body.render
  | .ifThen condition body _ =>
    .keyword .ifKw :: .punctuator .leftParen ::
      (condition.render ++ .punctuator .rightParen :: body.render)
  | .ifElse condition body alternative _ =>
    .keyword .ifKw :: .punctuator .leftParen ::
      (condition.render ++ .punctuator .rightParen ::
        (body.render ++ .keyword .elseKw :: alternative.render))
  | .whileLoop condition body _ =>
    .keyword .whileKw :: .punctuator .leftParen ::
      (condition.render ++ .punctuator .rightParen :: body.render)
  | .forLoop first condition step body _ =>
    .keyword .forKw :: .punctuator .leftParen ::
      (Expr.renderOptional first ++ .punctuator .semicolon ::
        (Expr.renderOptional condition ++ .punctuator .semicolon ::
          (Expr.renderOptional step ++ .punctuator .rightParen :: body.render)))
  | .jump kind _ => [.keyword kind.keyword, .punctuator .semicolon]
  | .returnStmt value _ =>
    .keyword .returnKw :: (Expr.renderOptional value ++ [.punctuator .semicolon])
  | .expr value _ => value.render ++ [.punctuator .semicolon]

/-- Statements one behind the other. -/
def Stmt.renderAll : List Stmt → List Token.Kind
  | [] => []
  | s :: rest => s.render ++ Stmt.renderAll rest

/-- A block in its braces. -/
def Block.render : Block → List Token.Kind
  | .mk decls stmts _ =>
    .punctuator .leftBrace ::
      (decls.flatMap Decl.render ++ (Stmt.renderAll stmts ++ [.punctuator .rightBrace]))

end

/-! ## Units -/

/-- A declaration at file level. -/
def External.render : External → List Token.Kind
  | decl d => d.render
  | definition p body => p.render ++ body.render

/-- A unit, declaration by declaration. -/
def CompilationUnit.render (u : CompilationUnit) : List Token.Kind :=
  u.decls.flatMap External.render

/-! ## What can be rendered -/

/-- A function can be rendered if it returns no array, has a parameter in front of an ellipsis, and
has no body if it is declared external. -/
def Node.Renderable : Node → Prop
  | function p body =>
    p.returnType.dimensions = [] ∧ (p.variadic = true → p.parameters ≠ []) ∧
      (body.isSome = true → p.storage ≠ .external)
  | _ => True

/-- All functions of a unit can be rendered. -/
def CompilationUnit.Renderable (u : CompilationUnit) : Prop :=
  ∀ n ∈ (Node.unit u).walk fun _ => true, n.Renderable

end CSubset
