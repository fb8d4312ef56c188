-- SUMMARY: Types as declarations write them.

/-!
# Declared types

A declared type is what a declaration says: a base type, whether it is constant, the
pointer marks and the array dimensions of the declarator.
-/

namespace CSubset

/-- The base types of the language. -/
inductive BaseType where
  | int | float | char | void
deriving DecidableEq, Repr

/-- The keyword of a base type. -/
def BaseType.text : BaseType → String
  | int => "int"
  | float => "float"
  | char => "char"
  | void => "void"

/-- A type as declared. -/
structure DeclaredType where
  base : BaseType
  isConst : Bool
  pointers : Nat
  dimensions : List Nat
deriving DecidableEq, Repr

namespace DeclaredType

/-- Plain void, which has no values; a pointer to void is not. -/
def isVoid (t : DeclaredType) : Bool :=
  t.base = .void && t.pointers = 0 && t.dimensions = []

/-- The written form: `const char**[3][2]`. -/
def text (t : DeclaredType) : String :=
  (if t.isConst then "const " else "") ++ t.base.text ++
    String.ofList (List.replicate t.pointers '*') ++ String.join (t.dimensions.map fun n => s!"[{n}]")

end DeclaredType

end CSubset
