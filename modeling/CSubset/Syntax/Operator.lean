-- SUMMARY: The operators of the language by class, with their symbols and precedence.

/-!
# Operators

Binary operators come in four classes, which is also how the typing rules group them:
arithmetic, ordering, equality and logic. A compound assignment carries an arithmetic
operator.
-/

namespace CSubset

/-- The arithmetic operators. -/
inductive ArithOp where
  | add | sub | mul | div | mod
deriving DecidableEq, Repr

/-- The operators that compare order. -/
inductive OrderOp where
  | less | lessEqual | greater | greaterEqual
deriving DecidableEq, Repr

/-- The binary operators. -/
inductive BinaryOp where
  | arith (op : ArithOp)
  | order (op : OrderOp)
  | equal
  | notEqual
  | and
  | or
deriving DecidableEq, Repr

/-- The operators written before their operand. -/
inductive UnaryOp where
  | negate | plus | not | dereference | addressOf
deriving DecidableEq, Repr

/-- Assignment, and assignment of the result of an arithmetic operator. -/
inductive AssignOp where
  | plain
  | compound (op : ArithOp)
deriving DecidableEq, Repr

/-- The symbol of an arithmetic operator. -/
def ArithOp.symbol : ArithOp → String
  | add => "+"
  | sub => "-"
  | mul => "*"
  | div => "/"
  | mod => "%"

/-- The symbol of an order comparison. -/
def OrderOp.symbol : OrderOp → String
  | less => "<"
  | lessEqual => "<="
  | greater => ">"
  | greaterEqual => ">="

namespace BinaryOp

/-- All binary operators. -/
def all : List BinaryOp :=
  [arith .add, arith .sub, arith .mul, arith .div, arith .mod, equal, notEqual, order .less,
   order .lessEqual, order .greater, order .greaterEqual, and, or]

/-- The symbol of a binary operator. -/
def symbol : BinaryOp → String
  | arith op => op.symbol
  | order op => op.symbol
  | equal => "=="
  | notEqual => "!="
  | and => "&&"
  | or => "||"

/-- How tightly a binary operator binds: from 1, the loosest, to 6. All of them group to the
left. -/
def precedence : BinaryOp → Nat
  | or => 1
  | and => 2
  | equal => 3
  | notEqual => 3
  | order _ => 4
  | arith .add => 5
  | arith .sub => 5
  | arith .mul => 6
  | arith .div => 6
  | arith .mod => 6

end BinaryOp

/-- The symbol of a unary operator. -/
def UnaryOp.symbol : UnaryOp → String
  | negate => "-"
  | plus => "+"
  | not => "!"
  | dereference => "*"
  | addressOf => "&"

/-- The symbol of an assignment operator. -/
def AssignOp.symbol : AssignOp → String
  | plain => "="
  | compound op => op.symbol ++ "="

end CSubset
