-- SUMMARY: What a parser can object to, and how a syntax error is reported.
import CSubset.Token.Basic

/-!
# Syntax errors

A parser objects to one token, or to the end of the input. Its `Complaint` says what was
wanted there; a `SyntaxError` is the report of it, with the offending token in the form
in which it is displayed.
-/

namespace CSubset

/-- Where a punctuator is missing. -/
inductive Place where
  | afterParameters
  | afterArraySize
  | afterVariable
  | afterPrototype
  | afterExpression
  | afterGrouping
  | afterArguments
  | afterSubscript
  | afterKeyword (word : Keyword)
  | afterCondition (word : Keyword)
  | afterForFirst
  | afterForCondition
  | afterForStep
  | afterReturn
  | openBody (word : Keyword)
  | closeBlock
deriving DecidableEq, Repr

/-- What a parser objects to. -/
inductive Complaint where
  | missing (mark : Punctuator) (place : Place)
  | typeSpecifier
  | identifier
  | expression
  | arraySize
  | unnamedBeforeEllipsis
  | functionParameter (name : String) (location : Location)
  | nestedFunction
  | externBody
  | lateDeclaration
deriving DecidableEq, Repr

/-- A place in words. -/
def Place.text : Place → String
  | afterParameters => "after parameters"
  | afterArraySize => "after array size"
  | afterVariable => "after variable declaration"
  | afterPrototype => "after function declaration"
  | afterExpression => "after expression"
  | afterGrouping => "after expression"
  | afterArguments => "after function arguments"
  | afterSubscript => "after array index"
  | afterKeyword word => "after '" ++ word.text ++ "'"
  | afterCondition word => "after " ++ word.text ++ " condition"
  | afterForFirst => "after for initializer"
  | afterForCondition => "after for condition"
  | afterForStep => "after for clauses"
  | afterReturn => "after return statement"
  | openBody word => "to open '" ++ word.text ++ "' body"
  | closeBlock => "to close block"

/-- A complaint in words. -/
def Complaint.message : Complaint → String
  | missing mark place => "Expected '" ++ mark.text ++ "' " ++ place.text
  | typeSpecifier => "Expected type specifier"
  | identifier => "Expected identifier"
  | expression => "Expected expression"
  | arraySize => "Array size must be a non-negative integer constant"
  | unnamedBeforeEllipsis => "Expected a named parameter before '...'"
  | functionParameter _ _ => "A parameter cannot be declared as a function"
  | nestedFunction => "Function definition is not allowed inside a block"
  | externBody => "An 'extern' declaration cannot have a body"
  | lateDeclaration => "Declarations must come before statements in a block"

/-- The report of a syntax error: the offending token as displayed, or the mark of the end of
the input, and a position if there is a token to take it from. -/
structure SyntaxError where
  message : String
  found : String
  location : Option Location
deriving DecidableEq, Repr

namespace SyntaxError

/-- What stands for the end of the input in a report. -/
def endMark : String := "EOF"

/-- Whether the report names the end of the input. -/
def isEof (e : SyntaxError) : Bool := e.found = endMark

/-- The error as a line of output. -/
def text (e : SyntaxError) : String :=
  match e.location with
  | some l => s!"Syntax error at line {l.line}, column {l.column} near '{e.found}': {e.message}"
  | none => s!"Syntax error at {e.found}: {e.message}"

end SyntaxError

end CSubset
