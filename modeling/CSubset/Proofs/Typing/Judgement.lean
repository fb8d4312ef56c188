-- SUMMARY: The typing rules of expressions as a judgement, stated apart from the checker.
import CSubset.Check.Expr

/-!
# The typing judgement

`HasType names e t` says that the expression `e` has the type `t` where names stand for what
`names` says. The judgement knows nothing of diagnostics and has no type for faulty
expressions: an expression that breaks a rule has no type. The classes of types and what
operators and assignment admit are stated here anew, as relations, so that nothing rests on
the tables that the checker consults.
-/

namespace CSubset

namespace Typing

/-! ## Classes of types -/

/-- Numbers, characters among them. -/
inductive Numeric : ValueType → Prop where
  | int : Numeric .int
  | float : Numeric .float
  | char : Numeric .char

/-- Whole numbers, characters among them. -/
inductive Integral : ValueType → Prop where
  | int : Integral .int
  | char : Integral .char

/-- Types whose values can decide a condition. -/
inductive TruthValue : ValueType → Prop where
  | numeric {t : ValueType} (h : Numeric t) : TruthValue t
  | string : TruthValue .string
  | pointer {t : ValueType} : TruthValue (.pointer t)

/-- Text: a string literal, or a pointer to characters. -/
inductive Text : ValueType → Prop where
  | string : Text .string
  | pointer : Text (.pointer .char)

/-- Pointers and string literals. -/
inductive PointerLike : ValueType → Prop where
  | string : PointerLike .string
  | pointer {t : ValueType} : PointerLike (.pointer t)

/-- What a pointer or string leads to. -/
inductive Pointee : ValueType → ValueType → Prop where
  | pointer {t : ValueType} : Pointee (.pointer t) t
  | string : Pointee .string .char

/-- Whether a value of the first type may be stored where one of the second is expected. -/
inductive Assignable : ValueType → ValueType → Prop where
  | same {t : ValueType} : Assignable t t
  | numeric {s t : ValueType} (hs : Numeric s) (ht : Numeric t) : Assignable s t
  | stringToText : Assignable .string (.pointer .char)
  | stringToVoid : Assignable .string (.pointer .void)
  | pointerToVoid {t : ValueType} : Assignable (.pointer t) (.pointer .void)
  | voidToPointer {t : ValueType} : Assignable (.pointer .void) (.pointer t)

/-! ## Operators -/

/-- The common type of two numbers. -/
inductive Promotes : ValueType → ValueType → ValueType → Prop where
  | floatLeft {t : ValueType} (h : Numeric t) : Promotes .float t .float
  | floatRight {t : ValueType} (h : Numeric t) : Promotes t .float .float
  | whole {s t : ValueType} (hs : Integral s) (ht : Integral t) : Promotes s t .int

/-- Two values that can be ordered. -/
inductive Comparable : ValueType → ValueType → Prop where
  | numeric {s t : ValueType} (hs : Numeric s) (ht : Numeric t) : Comparable s t
  | same {t : ValueType} (hv : t ≠ .void) (hf : t ≠ .function) : Comparable t t

/-- Two values that can be tested for equality. -/
inductive Equatable : ValueType → ValueType → Prop where
  | comparable {s t : ValueType} (h : Comparable s t) : Equatable s t
  | pointers {s t : ValueType} (hs : PointerLike s) (ht : PointerLike t)
      (h : Assignable s t ∨ Assignable t s) : Equatable s t

/-- The result of a binary operator on two operands. -/
inductive BinaryResult : BinaryOp → ValueType → ValueType → ValueType → Prop where
  | arith {op : ArithOp} {s t u : ValueType} (h : Promotes s t u) : BinaryResult (.arith op) s t u
  | concat {s t : ValueType} (hs : Text s) (ht : Text t) :
      BinaryResult (.arith .add) s t .string
  | order {op : OrderOp} {s t : ValueType} (h : Comparable s t) :
      BinaryResult (.order op) s t .int
  | equal {s t : ValueType} (h : Equatable s t) : BinaryResult .equal s t .int
  | notEqual {s t : ValueType} (h : Equatable s t) : BinaryResult .notEqual s t .int
  | and {s t : ValueType} (hs : TruthValue s) (ht : TruthValue t) : BinaryResult .and s t .int
  | or {s t : ValueType} (hs : TruthValue s) (ht : TruthValue t) : BinaryResult .or s t .int

/-- The result of a unary operator on an operand. -/
inductive UnaryResult : UnaryOp → ValueType → ValueType → Prop where
  | negateFloat : UnaryResult .negate .float .float
  | negateWhole {t : ValueType} (h : Integral t) : UnaryResult .negate t .int
  | plusFloat : UnaryResult .plus .float .float
  | plusWhole {t : ValueType} (h : Integral t) : UnaryResult .plus t .int
  | not {t : ValueType} (h : TruthValue t) : UnaryResult .not t .int
  | dereference {t u : ValueType} (h : Pointee t u) : UnaryResult .dereference t u
  | addressOf {t : ValueType} (h : t ≠ .function) : UnaryResult .addressOf t (.pointer t)

/-! ## Names -/

/-- The type of a bound name: functions have a type of their own, and what is declared
otherwise has its declared type, with arrays as pointers. -/
inductive SymbolType : Symbol → ValueType → Prop where
  | function {p : Prototype} {defined : Bool} : SymbolType (.function p defined) .function
  | var {name : String} {t : DeclaredType} {forward : Bool} {l : Location} :
      SymbolType (.var name t forward l) (.ofDeclared t)
  | parameter {p : Parameter} : SymbolType (.parameter p) (.ofDeclared p.type)

/-- A declared type whose values can be overwritten: no array, and no constant other than a
pointer. -/
def Overwritable (t : DeclaredType) : Prop :=
  t.dimensions = [] ∧ (t.isConst = true → t.pointers ≠ 0)

/-- A symbol that names storage which can be written. -/
inductive Writable : Symbol → Prop where
  | var {name : String} {t : DeclaredType} {forward : Bool} {l : Location} (h : Overwritable t) :
      Writable (.var name t forward l)
  | parameter {p : Parameter} (h : Overwritable p.type) : Writable (.parameter p)

/-- An expression that denotes storage which can be written. -/
inductive Storage (names : Names) : Expr → Prop where
  | ident {a : Anchor} {name : String} {s : Symbol} (hs : names name = some s) (h : Writable s) :
      Storage names (.ident a name)
  | dereference {a : Anchor} {e : Expr} : Storage names (.unary a .dereference e)
  | index {a : Anchor} {base subscript : Expr} : Storage names (.index a base subscript)

/-- A function takes a number of arguments: as many as it has parameters, or more behind an
ellipsis. -/
def Takes (p : Prototype) (count : Nat) : Prop :=
  count = p.parameters.length ∨ p.variadic = true ∧ p.parameters.length ≤ count

/-! ## Expressions -/

mutual

/-- The type of an expression. -/
inductive HasType (names : Names) : Expr → ValueType → Prop where
  | int {a : Anchor} {n : Int} : HasType names (.literal a (.int n)) .int
  | float {a : Anchor} {x : Binary64} : HasType names (.literal a (.float x)) .float
  | char {a : Anchor} {c : Char} : HasType names (.literal a (.char c)) .char
  | string {a : Anchor} {s : String} : HasType names (.literal a (.string s)) .string
  | ident {a : Anchor} {name : String} {s : Symbol} {t : ValueType} (hs : names name = some s)
      (h : SymbolType s t) : HasType names (.ident a name) t
  | unary {a : Anchor} {op : UnaryOp} {e : Expr} {s t : ValueType} (he : HasType names e s)
      (h : UnaryResult op s t) : HasType names (.unary a op e) t
  | binary {a : Anchor} {op : BinaryOp} {left right : Expr} {s t u : ValueType}
      (hl : HasType names left s) (hr : HasType names right t) (h : BinaryResult op s t u) :
      HasType names (.binary a op left right) u
  | assign {a : Anchor} {target value : Expr} {s t : ValueType} (hs : Storage names target)
      (ht : HasType names target t) (hv : HasType names value s) (h : Assignable s t) :
      HasType names (.assign a .plain target value) t
  | compound {a : Anchor} {op : ArithOp} {target value : Expr} {s t u : ValueType}
      (hs : Storage names target) (ht : HasType names target t) (hv : HasType names value s)
      (hu : BinaryResult (.arith op) t s u) (h : Assignable u t) :
      HasType names (.assign a (.compound op) target value) t
  | call {a a' : Anchor} {name : String} {p : Prototype} {defined : Bool} {args : List Expr}
      (hf : names name = some (.function p defined)) (hn : Takes p args.length)
      (ha : Fit names p.parameters args) :
      HasType names (.call a (.ident a' name) args) (.ofDeclared p.returnType)
  | index {a : Anchor} {base subscript : Expr} {s t u : ValueType} (hb : HasType names base s)
      (hi : HasType names subscript t) (ht : Integral t) (h : Pointee s u) :
      HasType names (.index a base subscript) u

/-- Arguments that can be passed to parameters; behind the parameters, any typed expression
can. -/
inductive Fit (names : Names) : List Parameter → List Expr → Prop where
  | nil {ps : List Parameter} : Fit names ps []
  | cons {p : Parameter} {ps : List Parameter} {e : Expr} {es : List Expr} {t : ValueType}
      (he : HasType names e t) (h : Assignable t (.ofDeclared p.type)) (hs : Fit names ps es) :
      Fit names (p :: ps) (e :: es)
  | surplus {e : Expr} {es : List Expr} {t : ValueType} (he : HasType names e t)
      (hs : Fit names [] es) : Fit names [] (e :: es)

end

end Typing

end CSubset
