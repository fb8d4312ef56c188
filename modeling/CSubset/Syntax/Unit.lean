-- SUMMARY: Declarations, statements and whole compilation units.
import CSubset.Syntax.DeclaredType
import CSubset.Syntax.Expr

/-!
# Declarations and statements

A compilation unit is a list of external declarations. Only those can be function
definitions; inside a block a function is declared by a prototype. Bodies of branches,
loops and functions are always blocks, and a block holds its declarations before its
statements.
-/

namespace CSubset

/-- The storage class that a declaration may name. -/
inductive Storage where
  | none | static | external
deriving DecidableEq, Repr

/-- A parameter of a function. -/
structure Parameter where
  type : DeclaredType
  name : String
  location : Location
deriving DecidableEq, Repr

/-- What a function declaration says, with or without a body. -/
structure Prototype where
  returnType : DeclaredType
  name : String
  parameters : List Parameter
  variadic : Bool
  storage : Storage
  location : Location
deriving DecidableEq, Repr

/-- A variable, perhaps with the expression that initializes it. -/
structure Variable where
  type : DeclaredType
  name : String
  initializer : Option Expr
  storage : Storage
  location : Location
deriving Repr

/-- A declaration inside a block. -/
inductive Decl where
  | function (p : Prototype)
  | var (v : Variable)
deriving Repr

/-- The two ways to leave the current round of a loop. -/
inductive Jump where
  | breakLoop | continueLoop
deriving DecidableEq, Repr

/-- The keyword of a jump. -/
def Jump.keyword : Jump → Keyword
  | breakLoop => .breakKw
  | continueLoop => .continueKw

mutual

/-- Statements. -/
inductive Stmt where
  | block (body : Block)
  | ifThen (condition : Expr) (body : Block) (location : Location)
  | ifElse (condition : Expr) (body alternative : Block) (location : Location)
  | whileLoop (condition : Expr) (body : Block) (location : Location)
  | forLoop (first condition step : Option Expr) (body : Block) (location : Location)
  | jump (kind : Jump) (location : Location)
  | returnStmt (value : Option Expr) (location : Location)
  | expr (value : Expr) (location : Location)
deriving Repr

/-- Declarations, then statements, between braces; the location is that of the opening one. -/
inductive Block where
  | mk (decls : List Decl) (stmts : List Stmt) (location : Location)
deriving Repr

end

namespace Block

/-- The declarations of a block. -/
def decls : Block → List Decl
  | mk decls _ _ => decls

/-- The statements of a block. -/
def stmts : Block → List Stmt
  | mk _ stmts _ => stmts

/-- Where a block's opening brace stands. -/
def location : Block → Location
  | mk _ _ location => location

end Block

/-- Where a statement starts. -/
def Stmt.location : Stmt → Location
  | block body => body.location
  | ifThen _ _ l => l
  | ifElse _ _ _ l => l
  | whileLoop _ _ l => l
  | forLoop _ _ _ _ l => l
  | jump _ l => l
  | returnStmt _ l => l
  | expr _ l => l

/-- A declaration at file level: one that could also stand in a block, or a function
definition. -/
inductive External where
  | decl (d : Decl)
  | definition (p : Prototype) (body : Block)
deriving Repr

/-- The name that a declaration introduces. -/
def Decl.name : Decl → String
  | function p => p.name
  | var v => v.name

/-- Where the declared name stands. -/
def Decl.location : Decl → Location
  | function p => p.location
  | var v => v.location

namespace External

/-- The name that a declaration introduces. -/
def name : External → String
  | decl d => d.name
  | definition p _ => p.name

/-- Where the declared name stands. -/
def location : External → Location
  | decl d => d.location
  | definition p _ => p.location

/-- The prototype of a function declaration, and its body if it is a definition. -/
def function? : External → Option (Prototype × Option Block)
  | decl (.function p) => some (p, none)
  | decl (.var _) => none
  | definition p body => some (p, some body)

/-- Whether the declaration defines the function `main`. -/
def isMain : External → Bool
  | decl _ => false
  | definition p _ => p.name = "main"

end External

/-- A compilation unit: the declarations of a file, in order. -/
structure CompilationUnit where
  decls : List External
deriving Repr

namespace CompilationUnit

/-- The functions that a unit declares or defines, in order. -/
def functions (u : CompilationUnit) : List (Prototype × Option Block) :=
  u.decls.filterMap External.function?

/-- The first declaration or definition of a function of the given name. -/
def function? (u : CompilationUnit) (name : String) : Option (Prototype × Option Block) :=
  u.functions.find? fun f => f.1.name = name

end CompilationUnit

end CSubset
