-- SUMMARY: Parsing declarations other than function bodies.
import CSubset.Parse.Expr
import CSubset.Syntax.Unit

/-!
# Declarations

A declaration begins with a heading: storage class, type specifier and declarator. The
declarator decides what is declared: a parameter list makes a function, anything else a
variable. The heading is the same at file level and inside blocks; what may follow it is
not, so that is left to the parsers of those.
-/

namespace CSubset.Parse

/-- Admits the keyword of a base type. -/
def baseType? : Token.Kind → Option BaseType
  | .keyword .intKw => some .int
  | .keyword .floatKw => some .float
  | .keyword .charKw => some .char
  | .keyword .voidKw => some .void
  | _ => none

/-- Admits the keyword of a storage class. -/
def storage? : Token.Kind → Option Storage
  | .keyword .staticKw => some .static
  | .keyword .externKw => some .external
  | _ => none

/-- Whether a declaration can begin with a token. -/
def startsDeclaration (k : Token.Kind) : Bool :=
  (storage? k).isSome || (baseType? k).isSome || k = .keyword .constKw

/-- Admits an array size. -/
def arraySize? : Token.Kind → Option Nat
  | .intLiteral (.ofNat n) => some n
  | _ => none

-- ---------------------------------------------------------------------------
-- Type specifiers
-- ---------------------------------------------------------------------------

/-- A base type. -/
def baseType (c : Cursor) : Parse BaseType c :=
  match c.take? baseType? with
  | some base => .ok (base.map Prod.fst)
  | none => c.fail .typeSpecifier

/-- A base type, perhaps constant; no pointers and no dimensions yet. -/
def typeSpecifier (c : Cursor) : Parse DeclaredType c :=
  match c.take? (keyword? .constKw) with
  | some word => do
    let base ← baseType word.cursor
    .ok (word.andThen (base.map fun b => ⟨b, true, 0, []⟩))
  | none => do
    let base ← baseType c
    .ok (base.map fun b => ⟨b, false, 0, []⟩)

/-- The keyword `void` where a closing parenthesis follows it. -/
def loneVoid? (c : Cursor) : Option (Parsed (Unit × Location) c.rest.length) :=
  (c.take? (keyword? .voidKw)).filter fun word => (word.cursor.take? (mark? .rightParen)).isSome

-- ---------------------------------------------------------------------------
-- Declarators
-- ---------------------------------------------------------------------------

/-- What stands behind the name in a declarator. -/
inductive DeclaratorTail where
  | dimensions (sizes : List Nat)
  | parameters (list : List Parameter) (variadic : Bool)
deriving DecidableEq, Repr

/-- A declarator: pointer marks, a name, and what stands behind the name. -/
structure Declarator where
  pointers : Nat
  name : String
  location : Location
  tail : DeclaratorTail
deriving DecidableEq, Repr

/-- The type that a declarator gives to its name on top of a specified type. -/
def Declarator.applyTo (d : Declarator) (t : DeclaredType) : DeclaredType :=
  { t with
    pointers := t.pointers + d.pointers
    dimensions := match d.tail with
      | .dimensions sizes => t.dimensions ++ sizes
      | .parameters _ _ => t.dimensions }

/-- Any number of array sizes in brackets. -/
def dimensions (c : Cursor) : ParseMaybe (List Nat) c :=
  match c.take? (mark? .leftBracket) with
  | none => .ok (.nothing c [])
  | some opening =>
    match opening.cursor.take? arraySize? with
    | none => opening.cursor.fail .arraySize
    | some size => do
      let closing ← expect .rightBracket .afterArraySize size.cursor
      let more ← dimensions closing.cursor
      .ok (opening.andThen (size.andThen (closing.andMaybe
        (more.map fun sizes => size.value.1 :: sizes)))).weaken
termination_by c.rest.length
decreasing_by
  have := opening.shorter
  have := size.shorter
  have := closing.shorter
  omega

mutual

/-- A declarator. -/
def declarator (c : Cursor) : Parse Declarator c :=
  match c.take? (mark? .star) with
  | some star => do
    let inner ← declarator star.cursor
    .ok (star.andThen (inner.map fun d => { d with pointers := d.pointers + 1 }))
  | none =>
    match c.take? identifier? with
    | none => c.fail .identifier
    | some name =>
      match name.cursor.take? (mark? .leftParen) with
      | some opening => do
        let list ← parameterList opening.cursor
        let closing ← expect .rightParen .afterParameters list.cursor
        .ok (name.andThen (opening.andThen (list.maybeThen (closing.map fun _ =>
          ⟨0, name.value.1, name.value.2, .parameters list.value.1 list.value.2⟩))))
      | none => do
        let sizes ← dimensions name.cursor
        .ok (name.andMaybe (sizes.map fun sizes =>
          ⟨0, name.value.1, name.value.2, .dimensions sizes⟩))
termination_by 4 * c.rest.length
decreasing_by
  · have := star.shorter
    omega
  · have := name.shorter
    have := opening.shorter
    omega

/-- What stands between the parentheses of a function declarator: nothing, a lone `void`, or
parameters. -/
def parameterList (c : Cursor) : ParseMaybe (List Parameter × Bool) c :=
  match c.take? (mark? .rightParen), loneVoid? c with
  | some _, _ => .ok (.nothing c ([], false))
  | none, some word => .ok (word.map fun _ => ([], false)).weaken
  | none, none => do
    let list ← parameters true c
    .ok list.weaken
termination_by 4 * c.rest.length + 3

/-- Parameters with commas between them, and whether they end in an ellipsis. The first of
them cannot be the ellipsis. -/
def parameters (first : Bool) (c : Cursor) : Parse (List Parameter × Bool) c :=
  match c.take? (mark? .ellipsis) with
  | some dots => if first then c.fail .unnamedBeforeEllipsis else .ok (dots.map fun _ => ([], true))
  | none => do
    let p ← parameter c
    match p.cursor.take? (mark? .comma) with
    | none => .ok (p.map fun p => ([p], false))
    | some comma =>
      let more ← parameters false comma.cursor
      .ok (p.andThen (comma.andThen (more.map fun list => (p.value :: list.1, list.2))))
termination_by 4 * c.rest.length + 2
decreasing_by
  · omega
  · have := p.shorter
    have := comma.shorter
    omega

/-- One parameter, which may not be declared as a function. -/
def parameter (c : Cursor) : Parse Parameter c := do
  let type ← typeSpecifier c
  let d ← declarator type.cursor
  match d.value.tail with
  | .parameters _ _ => d.cursor.fail (.functionParameter d.value.name d.value.location)
  | .dimensions _ =>
    .ok (type.andThen (d.map fun d => ⟨d.applyTo type.value, d.name, d.location⟩))
termination_by 4 * c.rest.length + 1
decreasing_by
  have := type.shorter
  omega

end

-- ---------------------------------------------------------------------------
-- Headings and their ends
-- ---------------------------------------------------------------------------

/-- What the heading of a declaration declares. -/
inductive Heading where
  | function (p : Prototype)
  | var (v : Variable)
deriving Repr

/-- What is declared by a storage class, a type and a declarator. -/
def Declarator.heading (d : Declarator) (storage : Storage) (type : DeclaredType) : Heading :=
  match d.tail with
  | .parameters list variadic =>
    .function ⟨d.applyTo type, d.name, list, variadic, storage, d.location⟩
  | .dimensions _ => .var ⟨d.applyTo type, d.name, none, storage, d.location⟩

/-- A type specifier and a declarator behind a storage class. -/
def typedHeading (storage : Storage) (c : Cursor) : Parse Heading c := do
  let type ← typeSpecifier c
  let d ← declarator type.cursor
  .ok (type.andThen (d.map fun d => d.heading storage type.value))

/-- The heading of a declaration. -/
def heading (c : Cursor) : Parse Heading c :=
  match c.take? storage? with
  | some word => do
    let h ← typedHeading word.value.1 word.cursor
    .ok (word.andThen h)
  | none => typedHeading .none c

/-- The end of a variable's declaration: an initializer, perhaps, and a semicolon. -/
def variableEnd (v : Variable) (c : Cursor) : Parse Variable c :=
  match c.take? (mark? .assign) with
  | some sign => do
    let value ← expr sign.cursor
    let semicolon ← expect .semicolon .afterVariable value.cursor
    .ok (sign.andThen (value.andThen
      (semicolon.map fun _ => { v with initializer := some value.value })))
  | none => do
    let semicolon ← expect .semicolon .afterVariable c
    .ok (semicolon.map fun _ => v)

/-- The end of a function's declaration without a body. -/
def prototypeEnd (p : Prototype) (c : Cursor) : Parse Prototype c := do
  let semicolon ← expect .semicolon .afterPrototype c
  .ok (semicolon.map fun _ => p)

/-- A declaration inside a block, where no function can have a body. -/
def blockDecl (c : Cursor) : Parse Decl c := do
  let h ← heading c
  match h.value with
  | .var v =>
    let v ← variableEnd v h.cursor
    .ok (h.andThen (v.map Decl.var))
  | .function p =>
    if (h.cursor.take? (mark? .leftBrace)).isSome then h.cursor.fail .nestedFunction
    else
      let p ← prototypeEnd p h.cursor
      .ok (h.andThen (p.map Decl.function))

end CSubset.Parse
