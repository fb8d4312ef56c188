-- SUMMARY: The rules that a program can break, and the messages for them.
import CSubset.Check.ValueType
import CSubset.Location

/-!
# Diagnostics

A diagnostic reports one broken rule. Rules about types are many and all reported as
mismatches; `Mismatch` lists their causes, and the wording of each is in
`Mismatch.message`.
-/

namespace CSubset

/-- What can be wrong with a type. -/
inductive Mismatch where
  | voidVariable (name : String)
  | voidParameter (name : String)
  | initializer (name : String) (target value : ValueType)
  | condition (type : ValueType)
  | returnFromVoid (function : String)
  | returnValue (function : String) (expected value : ValueType)
  | operands (symbol : String) (left right : ValueType)
  | operand (symbol : String) (type : ValueType)
  | assigned (value target : ValueType)
  | subscript (type : ValueType)
  | indexed (type : ValueType)
  | calledName (name : String)
  | calledValue (type : ValueType)
  | argument (position : Nat) (function : String) (expected value : ValueType)
deriving DecidableEq, Repr

/-- A mismatch in words. -/
def Mismatch.message : Mismatch → String
  | voidVariable name => s!"variable '{name}' declared with type void"
  | voidParameter name => s!"parameter '{name}' declared with type void"
  | initializer name target value =>
    s!"cannot initialize '{name}' of type {target.text} with a value of type {value.text}"
  | condition type => s!"condition of type {type.text} is not a truth value"
  | returnFromVoid function => s!"void function '{function}' returns a value"
  | returnValue function expected value =>
    s!"function '{function}' returns {expected.text} but the value has type {value.text}"
  | operands symbol left right => s!"invalid operands to '{symbol}': {left.text} and {right.text}"
  | operand symbol type => s!"invalid operand to '{symbol}': {type.text}"
  | assigned value target => s!"cannot assign {value.text} to {target.text}"
  | subscript type => s!"array index has type {type.text}, expected an integer"
  | indexed type => s!"cannot index a value of type {type.text}"
  | calledName name => s!"'{name}' is not a function"
  | calledValue type => s!"called value of type {type.text} is not a function"
  | argument position function expected value =>
    s!"argument {position} of '{function}' expects {expected.text}, got {value.text}"

/-- The kinds of diagnostics. -/
inductive Diagnostic.Kind where
  | duplicateSymbol
  | undefinedSymbol
  | typeMismatch
  | arityMismatch
  | invalidJump
  | missingReturn
  | notAssignable
  | missingMain
deriving DecidableEq, Repr

/-- The report of a broken rule. -/
inductive Diagnostic where
  | duplicateSymbol (name : String) (previous location : Location)
  | undefinedSymbol (name : String) (location : Location)
  | typeMismatch (message : String) (location : Location)
  | arityMismatch (function : String) (expected got : Nat) (variadic : Bool) (location : Location)
  | invalidJump (keyword : String) (location : Location)
  | missingReturn (function : String) (location : Location)
  | notAssignable (target : String) (location : Location)
  | missingMain (found : Nat)
deriving DecidableEq, Repr

/-- The report of a mismatch at a position. -/
def Mismatch.report (m : Mismatch) (location : Location) : Diagnostic :=
  .typeMismatch m.message location

namespace Diagnostic

/-- All kinds of diagnostics. -/
def Kind.all : List Kind :=
  [duplicateSymbol, undefinedSymbol, typeMismatch, arityMismatch, invalidJump, missingReturn,
   notAssignable, missingMain]

/-- The kind of a diagnostic. -/
def kind : Diagnostic → Kind
  | duplicateSymbol _ _ _ => .duplicateSymbol
  | undefinedSymbol _ _ => .undefinedSymbol
  | typeMismatch _ _ => .typeMismatch
  | arityMismatch _ _ _ _ _ => .arityMismatch
  | invalidJump _ _ => .invalidJump
  | missingReturn _ _ => .missingReturn
  | notAssignable _ _ => .notAssignable
  | missingMain _ => .missingMain

/-- The position that a diagnostic concerns; the rule about `main` concerns the whole file. -/
def location? : Diagnostic → Option Location
  | duplicateSymbol _ _ l => some l
  | undefinedSymbol _ l => some l
  | typeMismatch _ l => some l
  | arityMismatch _ _ _ _ l => some l
  | invalidJump _ l => some l
  | missingReturn _ l => some l
  | notAssignable _ l => some l
  | missingMain _ => none

/-- Whether the program as a whole is no program. -/
def isFatal : Diagnostic → Bool
  | missingMain _ => true
  | _ => false

/-- The diagnostic as a line of output. -/
def message : Diagnostic → String
  | duplicateSymbol name previous l =>
    s!"Duplicate symbol '{name}' at line {l.line} (previously declared at line {previous.line})"
  | undefinedSymbol name l => s!"Undefined symbol '{name}' at line {l.line}"
  | typeMismatch message l => s!"Type mismatch at line {l.line}: {message}"
  | arityMismatch function expected got variadic l =>
    s!"Function '{function}' expects " ++ (if variadic then "at least " else "") ++
      s!"{expected} argument" ++ (if expected = 1 then "" else "s") ++
      s!", got {got} at line {l.line}"
  | invalidJump keyword l => s!"'{keyword}' outside of a loop at line {l.line}"
  | missingReturn function l =>
    s!"Function '{function}' declared at line {l.line} does not return a value"
  | notAssignable target l => s!"Cannot assign to '{target}' at line {l.line}"
  | missingMain found =>
    if found = 0 then "No main() function found"
    else s!"Expected exactly one main() function, found {found}"

end Diagnostic

end CSubset
