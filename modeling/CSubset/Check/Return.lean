-- SUMMARY: Whether a function body can reach a return with a value.
import CSubset.Syntax.Unit

/-!
# Returns

A body returns a value if it holds a return with a value, at any depth, before which no
statement of the same list leaves it: behind a return or a jump, a list is dead.
Conditions are not looked at.
-/

namespace CSubset

/-- Whether what stands behind a statement in the same list is dead. -/
def Stmt.leaves : Stmt → Bool
  | .returnStmt _ _ => true
  | .jump _ _ => true
  | _ => false

mutual

/-- Whether a statement can reach a return with a value. -/
def Stmt.returnsValue : Stmt → Bool
  | .block body => body.returnsValue
  | .ifThen _ body _ => body.returnsValue
  | .ifElse _ body alternative _ => body.returnsValue || alternative.returnsValue
  | .whileLoop _ body _ => body.returnsValue
  | .forLoop _ _ _ body _ => body.returnsValue
  | .jump _ _ => false
  | .returnStmt value _ => value.isSome
  | .expr _ _ => false

/-- Whether a list of statements can reach a return with a value. -/
def Stmt.anyReturnsValue : List Stmt → Bool
  | [] => false
  | s :: rest => s.returnsValue || (!s.leaves && Stmt.anyReturnsValue rest)

/-- Whether a block can reach a return with a value. -/
def Block.returnsValue : Block → Bool
  | .mk _ stmts _ => Stmt.anyReturnsValue stmts

end

end CSubset
