-- SUMMARY: Expressions and their prefix form.
import CSubset.Syntax.Operator
import CSubset.Token.Basic

/-!
# Expressions

Every expression node has an anchor: a number that is unique among the nodes of one
parse, and the position of the token that stands for the node. The prefix form,
`Expr.text`, shows the shape of an expression with every operator in front of its
operands and every composite in parentheses.
-/

namespace CSubset

/-- The number of an expression node and the position of its token. -/
structure Anchor where
  id : Nat
  location : Location
deriving DecidableEq, Repr

/-- The value of a literal. -/
inductive Literal where
  | int (value : Int)
  | float (value : Binary64)
  | char (value : Char)
  | string (value : String)
deriving DecidableEq, Repr

/-- The display of a literal, which is that of its token. -/
def Literal.text : Literal → String
  | int value => toString value
  | float value => value.text
  | char value => Token.charText value
  | string value => Token.stringText value

/-- Expressions. -/
inductive Expr where
  | literal (anchor : Anchor) (value : Literal)
  | ident (anchor : Anchor) (name : String)
  | unary (anchor : Anchor) (op : UnaryOp) (operand : Expr)
  | binary (anchor : Anchor) (op : BinaryOp) (left right : Expr)
  | assign (anchor : Anchor) (op : AssignOp) (target value : Expr)
  | call (anchor : Anchor) (callee : Expr) (arguments : List Expr)
  | index (anchor : Anchor) (base subscript : Expr)
deriving Repr

namespace Expr

/-- The anchor of an expression's outermost node. -/
def anchor : Expr → Anchor
  | literal a _ => a
  | ident a _ => a
  | unary a _ _ => a
  | binary a _ _ _ => a
  | assign a _ _ _ => a
  | call a _ _ => a
  | index a _ _ => a

/-- The number of an expression's outermost node. -/
def id (e : Expr) : Nat := e.anchor.id

/-- The position of the token that stands for an expression. -/
def location (e : Expr) : Location := e.anchor.location

/-- The direct subexpressions, in source order. -/
def children : Expr → List Expr
  | literal _ _ => []
  | ident _ _ => []
  | unary _ _ operand => [operand]
  | binary _ _ left right => [left, right]
  | assign _ _ target value => [target, value]
  | call _ callee arguments => callee :: arguments
  | index _ base subscript => [base, subscript]

mutual

/-- The prefix form of an expression. -/
def text : Expr → String
  | literal _ value => value.text
  | ident _ name => name
  | unary _ op operand => "(" ++ op.symbol ++ " " ++ operand.text ++ ")"
  | binary _ op left right => "(" ++ op.symbol ++ " " ++ left.text ++ " " ++ right.text ++ ")"
  | assign _ op target value => "(" ++ op.symbol ++ " " ++ target.text ++ " " ++ value.text ++ ")"
  | call _ callee arguments => "(call " ++ callee.text ++ textArguments arguments ++ ")"
  | index _ base subscript => "(index " ++ base.text ++ " " ++ subscript.text ++ ")"

/-- The prefix forms of arguments, each behind a blank. -/
def textArguments : List Expr → String
  | [] => ""
  | e :: rest => " " ++ e.text ++ textArguments rest

end

end Expr

end CSubset
