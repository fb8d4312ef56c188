-- SUMMARY: Types of values, and what operators and assignment make of them.
import CSubset.Syntax.DeclaredType
import CSubset.Syntax.Operator

/-!
# Value types

The type of a value is coarser than the type of a declaration: it does not know about
constants, and arrays are pointers. `invalid` is the type of an expression in which
something was found to be wrong. It agrees with every other type, so that one mistake
is reported once.

The tables of the language stand here: which values may be stored where
(`ValueType.assignableTo`), and the results of operators (`BinaryOp.result?`,
`UnaryOp.result?`).
-/

namespace CSubset

/-- The type of a value. -/
inductive ValueType where
  | int
  | float
  | char
  | void
  | string
  | function
  | invalid
  | pointer (target : ValueType)
deriving DecidableEq, Repr

/-- The type of a value declared with a base type alone. -/
def BaseType.valueType : BaseType → ValueType
  | int => .int
  | float => .float
  | char => .char
  | void => .void

namespace ValueType

/-- Pointers to pointers, `depth` of them, and at last to `t`. -/
def pointers (t : ValueType) : Nat → ValueType
  | 0 => t
  | depth + 1 => pointer (t.pointers depth)

/-- The type of a value declared with `t`: every dimension of an array is one more pointer. -/
def ofDeclared (t : DeclaredType) : ValueType :=
  t.base.valueType.pointers (t.pointers + t.dimensions.length)

/-- The written form: pointers have a star behind what they point to. -/
def text : ValueType → String
  | int => "int"
  | float => "float"
  | char => "char"
  | void => "void"
  | string => "string"
  | function => "function"
  | invalid => "<error>"
  | pointer target => target.text ++ "*"

-- ---------------------------------------------------------------------------
-- Classes of types
-- ---------------------------------------------------------------------------

/-- Numbers, characters among them. -/
def isNumeric : ValueType → Bool
  | int => true
  | float => true
  | char => true
  | _ => false

/-- Whole numbers, characters among them. -/
def isIntegral : ValueType → Bool
  | int => true
  | char => true
  | _ => false

/-- Pointers. -/
def isPointer : ValueType → Bool
  | pointer _ => true
  | _ => false

/-- Types whose values can decide a condition. -/
def isTruthValue : ValueType → Bool
  | int => true
  | float => true
  | char => true
  | string => true
  | pointer _ => true
  | invalid => true
  | _ => false

/-- Text: a string literal, or a pointer to characters. -/
def isText : ValueType → Bool
  | string => true
  | pointer char => true
  | _ => false

/-- Pointers to anything at all. -/
def isVoidPointer : ValueType → Bool
  | pointer void => true
  | _ => false

/-- Pointers and string literals. -/
def isPointerLike (t : ValueType) : Bool := t.isPointer || t = string

/-- The type of what a pointer or string leads to. -/
def pointee? : ValueType → Option ValueType
  | pointer target => some target
  | string => some char
  | _ => none

-- ---------------------------------------------------------------------------
-- Agreement of types
-- ---------------------------------------------------------------------------

/-- Whether a value of type `source` may be stored where one of type `target` is expected. -/
def assignableTo (source target : ValueType) : Bool :=
  source = invalid || target = invalid || source = target ||
    (source.isNumeric && target.isNumeric) ||
    match source, target with
    | string, pointer t => t = char || t = void
    | pointer _, pointer _ => source.isVoidPointer || target.isVoidPointer
    | _, _ => false

/-- The common type of two numbers: with a float it is float, else int. -/
def promote (left right : ValueType) : ValueType :=
  if left = float ∨ right = float then float else int

/-- Two numbers, or two values of one type that has values to compare. -/
def comparable (left right : ValueType) : Bool :=
  (left.isNumeric && right.isNumeric) || (left = right && left ≠ void && left ≠ function)

/-- Two pointers or strings of which one may be stored in the place of the other. -/
def pointersComparable (left right : ValueType) : Bool :=
  left.isPointerLike && right.isPointerLike && (left.assignableTo right || right.assignableTo left)

end ValueType

-- ---------------------------------------------------------------------------
-- Results of operators
-- ---------------------------------------------------------------------------

open ValueType

/-- The result of an arithmetic operator; `add` also joins texts. -/
def ArithOp.result? (op : ArithOp) (left right : ValueType) : Option ValueType :=
  if op = .add ∧ left.isText ∧ right.isText then some string
  else if left.isNumeric ∧ right.isNumeric then some (promote left right)
  else none

/-- The result of a binary operator, if it accepts the operands. -/
def BinaryOp.result? (op : BinaryOp) (left right : ValueType) : Option ValueType :=
  if left = invalid ∨ right = invalid then some invalid
  else
    match op with
    | .arith op => op.result? left right
    | .order _ => if comparable left right then some int else none
    | .equal => if comparable left right || pointersComparable left right then some int else none
    | .notEqual => if comparable left right || pointersComparable left right then some int else none
    | .and => if left.isTruthValue && right.isTruthValue then some int else none
    | .or => if left.isTruthValue && right.isTruthValue then some int else none

/-- The result of a unary operator, if it accepts the operand. -/
def UnaryOp.result? (op : UnaryOp) (operand : ValueType) : Option ValueType :=
  if operand = invalid then some invalid
  else
    match op with
    | .negate => if operand.isNumeric then some (promote operand int) else none
    | .plus => if operand.isNumeric then some (promote operand int) else none
    | .not => if operand.isTruthValue then some int else none
    | .dereference => operand.pointee?
    | .addressOf => if operand = function then none else some (pointer operand)

end CSubset
