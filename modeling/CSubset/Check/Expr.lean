-- SUMMARY: Typing expressions.
import CSubset.Check.Findings
import CSubset.Syntax.Expr

/-!
# Typing expressions

Expressions are typed from the inside out. What names stand for is given by a function,
`Names`, which typing does not change. A composite is typed by a rule that sees only the
types of its parts; the rule answers with a type and with the diagnostics of this node.
An expression in which something is wrong has the type `invalid`, which all rules accept
without a further word.
-/

namespace CSubset

/-- What names stand for at some point of a program. -/
abbrev Names := String → Option Symbol

/-- A type, and what was found on the way to it. -/
structure Typed where
  type : ValueType
  findings : Findings
deriving DecidableEq, Repr

/-- What a rule says about a node: its type, and what is wrong with it. -/
abbrev Verdict := ValueType × List Diagnostic

/-- Types a node after its parts. -/
def Findings.conclude (f : Findings) (id : Nat) (v : Verdict) : Typed :=
  ⟨v.1, f ++ (.ofDiagnostics v.2 ++ .ofType id v.1)⟩

/-- The type of a literal. -/
def Literal.valueType : Literal → ValueType
  | int _ => .int
  | float _ => .float
  | char _ => .char
  | string _ => .string

-- ---------------------------------------------------------------------------
-- Rules
-- ---------------------------------------------------------------------------

namespace Rule

/-- The result of an operator, or a mismatch where it has none. -/
def operator (result : Option ValueType) (m : Mismatch) (at_ : Location) : Verdict :=
  match result with
  | some t => (t, [])
  | none => (.invalid, [m.report at_])

/-- The result of a binary operator. -/
def binary (op : BinaryOp) (left right : ValueType) (at_ : Location) : Verdict :=
  operator (op.result? left right) (.operands op.symbol left right) at_

/-- The result of a unary operator. -/
def unary (op : UnaryOp) (operand : ValueType) (at_ : Location) : Verdict :=
  operator (op.result? operand) (.operand op.symbol operand) at_

/-- The element of an array or string; the subscript has to be a whole number. -/
def index (base subscript : ValueType) (baseAt subscriptAt : Location) : Verdict :=
  let wrong :=
    if subscript = .invalid ∨ subscript.isIntegral then []
    else [(Mismatch.subscript subscript).report subscriptAt]
  if base = .invalid then (.invalid, wrong)
  else
    match base.pointee? with
    | some t => (t, wrong)
    | none => (.invalid, wrong ++ [(Mismatch.indexed base).report baseAt])

/-- Whether a symbol names storage that can be written: not a function, not an array, and not
a constant that is no pointer. -/
def writable : Symbol → Bool
  | .function _ _ => false
  | s => s.declaredType.dimensions = [] && !(s.declaredType.isConst && s.declaredType.pointers = 0)

/-- Whether an expression denotes storage: a writable name, a dereference or an element. A name
that stands for nothing has been reported and is let pass. -/
def denotesStorage (names : Names) : Expr → Bool
  | .ident _ name => (names name).all writable
  | .unary _ .dereference _ => true
  | .index _ _ _ => true
  | _ => false

/-- The stored type has to fit the target, which is then the type of the assignment. -/
def store (stored target : ValueType) (valueAt : Location) : Verdict :=
  (target,
    if stored.assignableTo target then [] else [(Mismatch.assigned stored target).report valueAt])

/-- An assignment. What a compound assignment stores is the result of its operator on the target
and the value. -/
def assign (names : Names) (op : AssignOp) (targetExpr : Expr) (target value : ValueType)
    (valueAt : Location) : Verdict :=
  if !denotesStorage names targetExpr then
    (.invalid, [.notAssignable targetExpr.text targetExpr.location])
  else
    match op with
    | .plain => store value target valueAt
    | .compound arith =>
      match (BinaryOp.arith arith).result? target value with
      | some stored => store stored target valueAt
      | none => (.invalid, [(Mismatch.operands op.symbol target value).report valueAt])

/-- The function that a call reaches, and what is wrong with the called expression. Only names
can be called. -/
def callee (names : Names) (e : Expr) (type : ValueType) : Option Prototype × List Diagnostic :=
  match e with
  | .ident a name =>
    match names name with
    | some (.function p _) => (some p, [])
    | some _ => (none, [(Mismatch.calledName name).report a.location])
    | none => (none, [])
  | _ => (none, if type = .invalid then [] else [(Mismatch.calledValue type).report e.location])

/-- Whether a function takes a number of arguments. -/
def takes (p : Prototype) (count : Nat) : Bool :=
  if p.variadic then p.parameters.length ≤ count else count = p.parameters.length

/-- What is wrong with the arguments that meet a parameter, from the `position`-th on. -/
def arguments (function : String) (position : Nat) :
    List Parameter → List (ValueType × Location) → List Diagnostic
  | p :: ps, (t, l) :: rest =>
    let expected := ValueType.ofDeclared p.type
    (if t.assignableTo expected then []
      else [(Mismatch.argument position function expected t).report l]) ++
      arguments function (position + 1) ps rest
  | _, _ => []

/-- A call of a function, or of something that is none. -/
def call (function : Option Prototype) (args : List (ValueType × Location)) (at_ : Location) :
    Verdict :=
  match function with
  | none => (.invalid, [])
  | some p =>
    (.ofDeclared p.returnType,
      (if takes p args.length then []
        else [.arityMismatch p.name p.parameters.length args.length p.variadic at_]) ++
      arguments p.name 1 p.parameters args)

end Rule

-- ---------------------------------------------------------------------------
-- Typing
-- ---------------------------------------------------------------------------

namespace Expr

mutual

/-- The type of an expression, and what was found in it. -/
def check (names : Names) : Expr → Typed
  | .literal a value => Findings.none.conclude a.id (value.valueType, [])
  | .ident a name =>
    match names name with
    | some s => (Findings.ofSymbol a.id s).conclude a.id (s.valueType, [])
    | none => Findings.none.conclude a.id (.invalid, [.undefinedSymbol name a.location])
  | .unary a op operand =>
    let x := operand.check names
    x.findings.conclude a.id (Rule.unary op x.type a.location)
  | .binary a op left right =>
    let l := left.check names
    let r := right.check names
    (l.findings ++ r.findings).conclude a.id (Rule.binary op l.type r.type a.location)
  | .assign a op target value =>
    let t := target.check names
    let v := value.check names
    (t.findings ++ v.findings).conclude a.id
      (Rule.assign names op target t.type v.type value.location)
  | .call a callee args =>
    let f := callee.check names
    let (function, wrong) := Rule.callee names callee f.type
    let (types, found) := checkAll names args
    (f.findings ++ (.ofDiagnostics wrong ++ found)).conclude a.id
      (Rule.call function types a.location)
  | .index a base subscript =>
    let b := base.check names
    let s := subscript.check names
    (b.findings ++ s.findings).conclude a.id
      (Rule.index b.type s.type base.location subscript.location)

/-- The types and positions of expressions that stand one behind the other. -/
def checkAll (names : Names) : List Expr → List (ValueType × Location) × Findings
  | [] => ([], .none)
  | e :: rest =>
    let x := e.check names
    let (types, found) := checkAll names rest
    ((x.type, e.location) :: types, x.findings ++ found)

end

end Expr

end CSubset
