-- SUMMARY: What a name can be bound to, and when two declarations of a name agree.
import CSubset.Check.ValueType
import CSubset.Syntax.Unit

/-!
# Symbols

A symbol is the declaration that a name is bound to. A forward declaration, which is a
function without a body or an external variable without an initializer, may be followed
by a definition of the same signature.
-/

namespace CSubset

/-- The declaration that a name is bound to. -/
inductive Symbol where
  | function (p : Prototype) (defined : Bool)
  | var (name : String) (type : DeclaredType) (forward : Bool) (location : Location)
  | parameter (p : Parameter)
deriving DecidableEq, Repr

namespace Symbol

/-- The symbol of a variable. -/
def ofVariable (v : Variable) : Symbol :=
  var v.name v.type (v.storage = .external && v.initializer.isNone) v.location

/-- The name that is bound. -/
def name : Symbol → String
  | function p _ => p.name
  | var name _ _ _ => name
  | parameter p => p.name

/-- Where the name is declared. -/
def location : Symbol → Location
  | function p _ => p.location
  | var _ _ _ l => l
  | parameter p => p.location

/-- The declared type, which for a function is what it returns. -/
def declaredType : Symbol → DeclaredType
  | function p _ => p.returnType
  | var _ t _ _ => t
  | parameter p => p.type

/-- The type of the name as an expression. -/
def valueType : Symbol → ValueType
  | function _ _ => .function
  | var _ t _ _ => .ofDeclared t
  | parameter p => .ofDeclared p.type

/-- Whether a definition may still follow. -/
def isForward : Symbol → Bool
  | function _ defined => !defined
  | var _ _ forward _ => forward
  | parameter _ => false

/-- Whether two declarations of one name agree: functions in what they return, in the number
and value types of their parameters and in the ellipsis; variables in their types; and
nothing else. -/
def agrees : Symbol → Symbol → Bool
  | function p _, function q _ =>
    p.returnType = q.returnType && p.variadic = q.variadic &&
      p.parameters.map (fun x => ValueType.ofDeclared x.type) =
        q.parameters.map (fun x => ValueType.ofDeclared x.type)
  | var _ t _ _, var _ u _ _ => t = u
  | _, _ => false

end Symbol

/-- The symbol of a declaration inside a block. -/
def Decl.symbol : Decl → Symbol
  | function p => .function p false
  | var v => .ofVariable v

/-- The symbol of a declaration at file level. -/
def External.symbol : External → Symbol
  | decl d => d.symbol
  | definition p _ => .function p true

end CSubset
