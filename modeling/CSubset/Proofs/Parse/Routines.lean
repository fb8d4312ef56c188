-- SUMMARY: What each parser calls: its body as a script that asks for the results of the parsers it calls, and runs like the parser.
import CSubset.Proofs.Parse.Plain

/-!
# Routines and their calls

That the parsers are functions says that they end, but not how they call each other. So the body of
each parser that calls parsers is written down once more as a `Script`, which does nothing but ask
for results, one call after the other, and go on with what it is told. Told what the called parsers
find, the script does what the parser does (`Call.run_eq`), and it shows which calls are made on the
way, and where. Parsers that only look at tokens in front of them are steps of the scripts.
-/

namespace CSubset

/-- What a reading has come to: all declarations and the cursor behind them, or its failure. -/
def Reading.outcome (r : Reading) : Except Failure (List External × Cursor) :=
  match r.failure with
  | none => .ok (r.decls, r.cursor)
  | some complaint => .error ⟨complaint, r.cursor⟩

theorem Reading.outcome_from (c : Cursor) :
    (Reading.from c).outcome = (
      if c.rest.isEmpty then .ok ([], c)
      else do
        let (d, c₁) ← Parse.plain (Parse.external c)
        let (ds, c₂) ← (Reading.from c₁).outcome
        .ok (d :: ds, c₂)) := by
  rw [Reading.from_eq]
  split
  · rfl
  · cases Parse.plain (Parse.external c) with
    | error => rfl
    | ok x =>
      simp only [Reading.outcome, Parse.ok_bind]
      cases (Reading.from x.2).failure <;> rfl

namespace Parse

/-! ## Routines -/

/-- The parsers that call parsers. Those that go on as long as more of the same follows call
themselves for the next pass. -/
inductive Routine where
  | expr
  | binary
  | binaryLoop
  | unary
  | suffixed
  | suffixLoop
  | arguments
  | argumentList
  | primary
  | strings
  | dimensions
  | declarator
  | parameterList
  | parameters
  | parameter
  | typedHeading
  | heading
  | variableEnd
  | blockDecl
  | blockDecls
  | clause
  | condition
  | forClauses
  | stmt
  | ledStmt
  | body
  | block
  | stmts
  | external
  | externals
deriving DecidableEq, Repr

namespace Routine

/-- What a routine is given besides the cursor. -/
abbrev Input : Routine → Type
  | binary => Nat
  | binaryLoop => Nat × Expr
  | suffixLoop => Expr
  | parameters => Bool
  | typedHeading => Storage
  | variableEnd => Variable
  | clause => Punctuator × Place
  | condition | body => Keyword
  | ledStmt => Leader × Location
  | block => Location
  | _ => Unit

/-- What a routine reads. -/
abbrev Output : Routine → Type
  | expr | binary | binaryLoop | unary | suffixed | suffixLoop | primary | condition => Expr
  | arguments | argumentList => List Expr
  | strings => String
  | dimensions => List Nat
  | declarator => Declarator
  | parameterList | parameters => List Parameter × Bool
  | parameter => Parameter
  | typedHeading | heading => Heading
  | variableEnd => Variable
  | blockDecl => Decl
  | blockDecls => List Decl
  | clause => Option Expr
  | forClauses => ForClauses
  | stmt | ledStmt => Stmt
  | body | block => Block
  | stmts => List Stmt
  | external => External
  | externals => List External

/-- What comes of a routine. -/
abbrev Result (r : Routine) : Type := Except Failure (r.Output × Cursor)

/-- The parser that a routine is. -/
def parser : (r : Routine) → r.Input → Cursor → r.Result
  | expr, _, c => plain (Parse.expr c)
  | binary, least, c => plain (Parse.binary least c)
  | binaryLoop, (least, left), c => Parse.binaryLoop least left c
  | unary, _, c => plain (Parse.unary c)
  | suffixed, _, c => plain (Parse.suffixed c)
  | suffixLoop, base, c => Parse.suffixLoop base c
  | arguments, _, c => plain (Parse.arguments c)
  | argumentList, _, c => plain (Parse.argumentList c)
  | primary, _, c => plain (Parse.primary c)
  | strings, _, c => .ok ((joinStrings c.rest).1, ⟨(joinStrings c.rest).2, c.nextId⟩)
  | dimensions, _, c => plain (Parse.dimensions c)
  | declarator, _, c => plain (Parse.declarator c)
  | parameterList, _, c => plain (Parse.parameterList c)
  | parameters, first, c => plain (Parse.parameters first c)
  | parameter, _, c => plain (Parse.parameter c)
  | typedHeading, storage, c => plain (Parse.typedHeading storage c)
  | heading, _, c => plain (Parse.heading c)
  | variableEnd, v, c => plain (Parse.variableEnd v c)
  | blockDecl, _, c => plain (Parse.blockDecl c)
  | blockDecls, _, c => plain (Parse.blockDecls c)
  | clause, (stop, place), c => plain (Parse.clause stop place c)
  | condition, word, c => plain (Parse.condition word c)
  | forClauses, _, c => plain (Parse.forClauses c)
  | stmt, _, c => plain (Parse.stmt c)
  | ledStmt, (lead, l), c => plain (Parse.ledStmt lead l c)
  | body, owner, c => plain (Parse.body owner c)
  | block, l, c => plain (Parse.block l c)
  | stmts, _, c => plain (Parse.stmts c)
  | external, _, c => plain (Parse.external c)
  | externals, _, c => (Reading.from c).outcome

end Routine

/-- A call of a routine. -/
structure Call where
  routine : Routine
  input : routine.Input
  cursor : Cursor

/-- What comes of a call. -/
abbrev Call.Result (e : Call) : Type := e.routine.Result

/-- What the parser finds that is called. -/
def Call.run (e : Call) : e.Result := e.routine.parser e.input e.cursor

/-! ## Scripts -/

/-- What is done between the calls of a routine. -/
inductive Script (β : Type) where
  | done (b : β)
  | fail (f : Failure)
  | call (e : Call) (next : e.routine.Output × Cursor → Script β)

namespace Script

variable {α β : Type}

def bind : Script α → (α → Script β) → Script β
  | done a, f => f a
  | fail failure, _ => fail failure
  | call e next, f => call e fun out => (next out).bind f

instance : Monad Script where
  pure := done
  bind := bind

/-- Goes on with what a routine reads. -/
def ask (r : Routine) (input : r.Input) (c : Cursor) : Script (r.Output × Cursor) :=
  call ⟨r, input, c⟩ done

/-- A step without calls. -/
def step : Except Failure α → Script α
  | .ok a => done a
  | .error f => fail f

/-- Objects to the next token. -/
def object (c : Cursor) (complaint : Complaint) : Script α := fail ⟨complaint, c⟩

/-- What a script comes to if calls are answered by `answer`. -/
def eval (answer : (e : Call) → e.Result) : Script β → Except Failure β
  | done b => .ok b
  | fail f => .error f
  | call e next => answer e >>= fun out => (next out).eval answer

/-- The calls that are made if they are answered by `answer`. A failing call is the last. -/
def calls (answer : (e : Call) → e.Result) : Script β → List Call
  | done _ | fail _ => []
  | call e next =>
    e :: match answer e with
      | .ok out => (next out).calls answer
      | .error _ => []

/-- What a script comes to if calls need not be answered; it comes to nothing at the first that is
not. -/
def attempt (answer : (e : Call) → Option e.Result) : Script β → Option (Except Failure β)
  | done b => some (.ok b)
  | fail f => some (.error f)
  | call e next =>
    match answer e with
    | none => none
    | some (.error f) => some (.error f)
    | some (.ok out) => (next out).attempt answer

theorem eval_ask (r : Routine) (input : r.Input) (c : Cursor) :
    (ask r input c).eval Call.run = r.parser input c := bind_pure _

/-- A script that begins with a call does what the parser does that begins with the called one. -/
theorem eval_ask_bind {r : Routine} {input : r.Input} {c : Cursor}
    {f : r.Output × Cursor → Script β} {g : r.Output × Cursor → Except Failure β}
    (h : ∀ out, (f out).eval Call.run = g out) :
    (ask r input c >>= f).eval Call.run = r.parser input c >>= g := bind_congr h

theorem eval_step_bind {x : Except Failure α} {f : α → Script β} {g : α → Except Failure β}
    (h : ∀ a, (f a).eval Call.run = g a) : (step x >>= f).eval Call.run = x >>= g := by
  cases x with
  | error => rfl
  | ok a => exact h a

end Script

/-! ## Expressions -/

namespace Script

def expr (c : Cursor) : Script (Expr × Cursor) := do
  let (target, c₁) ← ask .binary 1 c
  match c₁.next? assignOp? with
  | none => done (target, c₁)
  | some ((op, l), c₂) =>
    let (value, c₃) ← ask .expr () c₂
    done (.assign ⟨c₃.nextId, l⟩ op target value, c₃.bump)

theorem eval_expr (c : Cursor) : (expr c).eval Call.run = plain (Parse.expr c) := by
  rw [plain_expr]
  refine eval_ask_bind fun (target, c₁) => ?_
  dsimp only
  cases c₁.next? assignOp? <;> rfl

def binary (least : Nat) (c : Cursor) : Script (Expr × Cursor) := do
  let (left, c₁) ← ask .unary () c
  ask .binaryLoop (least, left) c₁

theorem eval_binary (least : Nat) (c : Cursor) :
    (binary least c).eval Call.run = plain (Parse.binary least c) := by
  rw [plain_binary]
  exact eval_ask_bind fun (left, c₁) => eval_ask _ _ _

def binaryLoop (least : Nat) (left : Expr) (c : Cursor) : Script (Expr × Cursor) :=
  match c.next? (binaryOpFrom? least) with
  | none => done (left, c)
  | some ((op, l), c₁) => do
    let (right, c₂) ← ask .binary (op.precedence + 1) c₁
    ask .binaryLoop (least, .binary ⟨c₂.nextId, l⟩ op left right) c₂.bump

theorem eval_binaryLoop (least : Nat) (left : Expr) (c : Cursor) :
    (binaryLoop least left c).eval Call.run = Parse.binaryLoop least left c := by
  rw [binaryLoop_eq, binaryLoop]
  cases c.next? (binaryOpFrom? least) with
  | none => rfl
  | some => exact eval_ask_bind fun (right, c₂) => eval_ask _ _ _

def unary (c : Cursor) : Script (Expr × Cursor) :=
  match c.next? unaryOp? with
  | none => ask .suffixed () c
  | some ((op, l), c₁) => do
    let (operand, c₂) ← ask .unary () c₁
    done (.unary ⟨c₂.nextId, l⟩ op operand, c₂.bump)

theorem eval_unary (c : Cursor) : (unary c).eval Call.run = plain (Parse.unary c) := by
  rw [plain_unary, unary]
  cases c.next? unaryOp? with
  | none => exact eval_ask _ _ _
  | some => rfl

def suffixed (c : Cursor) : Script (Expr × Cursor) := do
  let (base, c₁) ← ask .primary () c
  ask .suffixLoop base c₁

theorem eval_suffixed (c : Cursor) : (suffixed c).eval Call.run = plain (Parse.suffixed c) := by
  rw [plain_suffixed]
  exact eval_ask_bind fun (base, c₁) => eval_ask _ _ _

def suffixLoop (base : Expr) (c : Cursor) : Script (Expr × Cursor) :=
  match c.next? (mark? .leftParen) with
  | some ((_, l), c₁) => do
    let (args, c₂) ← ask .arguments () c₁
    ask .suffixLoop (.call ⟨c₂.nextId, l⟩ base args) c₂.bump
  | none =>
    match c.next? (mark? .leftBracket) with
    | none => done (base, c)
    | some ((_, l), c₁) => do
      let (subscript, c₂) ← ask .expr () c₁
      let (_, c₃) ← step (plain (expect .rightBracket .afterSubscript c₂))
      ask .suffixLoop (.index ⟨c₃.nextId, l⟩ base subscript) c₃.bump

theorem eval_suffixLoop (base : Expr) (c : Cursor) :
    (suffixLoop base c).eval Call.run = Parse.suffixLoop base c := by
  rw [suffixLoop_eq, suffixLoop]
  cases c.next? (mark? .leftParen) with
  | some => exact eval_ask_bind fun (args, c₂) => eval_ask _ _ _
  | none =>
    cases c.next? (mark? .leftBracket) with
    | none => rfl
    | some =>
      exact eval_ask_bind fun (subscript, c₂) => eval_step_bind fun (_, c₃) => eval_ask _ _ _

def arguments (c : Cursor) : Script (List Expr × Cursor) :=
  match c.next? (mark? .rightParen) with
  | some (_, c₁) => done ([], c₁)
  | none => do
    let (list, c₁) ← ask .argumentList () c
    let (_, c₂) ← step (plain (expect .rightParen .afterArguments c₁))
    done (list, c₂)

theorem eval_arguments (c : Cursor) :
    (arguments c).eval Call.run = plain (Parse.arguments c) := by
  rw [plain_arguments, arguments]
  cases c.next? (mark? .rightParen) with
  | some => rfl
  | none => exact eval_ask_bind fun (list, c₁) => eval_step_bind fun _ => rfl

def argumentList (c : Cursor) : Script (List Expr × Cursor) := do
  let (first, c₁) ← ask .expr () c
  match c₁.next? (mark? .comma) with
  | none => done ([first], c₁)
  | some (_, c₂) =>
    let (more, c₃) ← ask .argumentList () c₂
    done (first :: more, c₃)

theorem eval_argumentList (c : Cursor) :
    (argumentList c).eval Call.run = plain (Parse.argumentList c) := by
  rw [plain_argumentList]
  refine eval_ask_bind fun (first, c₁) => ?_
  dsimp only
  cases c₁.next? (mark? .comma) <;> rfl

def primary (c : Cursor) : Script (Expr × Cursor) :=
  match c.next? leaf? with
  | some ((build, l), c₁) => done (build ⟨c₁.nextId, l⟩, c₁.bump)
  | none =>
    match c.next? string? with
    | some ((first, l), c₁) => do
      let (more, c₂) ← ask .strings () c₁
      done (.literal ⟨c₁.nextId, l⟩ (.string (first ++ more)), c₂.bump)
    | none =>
      match c.next? (mark? .leftParen) with
      | none => object c .expression
      | some (_, c₁) => do
        let (inner, c₂) ← ask .expr () c₁
        let (_, c₃) ← step (plain (expect .rightParen .afterGrouping c₂))
        done (inner, c₃)

theorem eval_primary (c : Cursor) : (primary c).eval Call.run = plain (Parse.primary c) := by
  rw [plain_primary, primary]
  cases c.next? leaf? with
  | some => rfl
  | none =>
    cases c.next? string? with
    | some => rfl
    | none =>
      cases c.next? (mark? .leftParen) with
      | none => rfl
      | some => exact eval_ask_bind fun (inner, c₂) => eval_step_bind fun _ => rfl

def strings (c : Cursor) : Script (String × Cursor) :=
  match c.next? string? with
  | none => done ("", c)
  | some ((first, _), c₁) => do
    let (more, c₂) ← ask .strings () c₁
    done (first ++ more, c₂)

theorem eval_strings (c : Cursor) :
    (strings c).eval Call.run =
      .ok ((joinStrings c.rest).1, ⟨(joinStrings c.rest).2, c.nextId⟩) := by
  rcases c with ⟨_ | ⟨t, rest⟩, i⟩
  · rfl
  · rw [strings, Cursor.next?_cons, joinStrings]
    cases string? t.kind <;> rfl

/-! ## Declarations -/

def dimensions (c : Cursor) : Script (List Nat × Cursor) :=
  match c.next? (mark? .leftBracket) with
  | none => done ([], c)
  | some (_, c₁) =>
    match c₁.next? arraySize? with
    | none => object c₁ .arraySize
    | some ((size, _), c₂) => do
      let (_, c₃) ← step (plain (expect .rightBracket .afterArraySize c₂))
      let (sizes, c₄) ← ask .dimensions () c₃
      done (size :: sizes, c₄)

theorem eval_dimensions (c : Cursor) :
    (dimensions c).eval Call.run = plain (Parse.dimensions c) := by
  rw [plain_dimensions, dimensions]
  cases c.next? (mark? .leftBracket) with
  | none => rfl
  | some opening =>
    dsimp only
    cases opening.2.next? arraySize? with
    | none => rfl
    | some => exact eval_step_bind fun _ => rfl

def declarator (c : Cursor) : Script (Declarator × Cursor) :=
  match c.next? (mark? .star) with
  | some (_, c₁) => do
    let (d, c₂) ← ask .declarator () c₁
    done ({ d with pointers := d.pointers + 1 }, c₂)
  | none =>
    match c.next? identifier? with
    | none => object c .identifier
    | some ((name, l), c₁) =>
      match c₁.next? (mark? .leftParen) with
      | some (_, c₂) => do
        let (list, c₃) ← ask .parameterList () c₂
        let (_, c₄) ← step (plain (expect .rightParen .afterParameters c₃))
        done (⟨0, name, l, .parameters list.1 list.2⟩, c₄)
      | none => do
        let (sizes, c₂) ← ask .dimensions () c₁
        done (⟨0, name, l, .dimensions sizes⟩, c₂)

theorem eval_declarator (c : Cursor) :
    (declarator c).eval Call.run = plain (Parse.declarator c) := by
  rw [plain_declarator, declarator]
  cases c.next? (mark? .star) with
  | some => rfl
  | none =>
    cases c.next? identifier? with
    | none => rfl
    | some name =>
      dsimp only
      cases name.2.next? (mark? .leftParen) with
      | some => exact eval_ask_bind fun (list, c₃) => eval_step_bind fun _ => rfl
      | none => rfl

def parameterList (c : Cursor) : Script ((List Parameter × Bool) × Cursor) :=
  match c.next? (mark? .rightParen) with
  | some _ => done (([], false), c)
  | none =>
    match (c.next? (keyword? .voidKw)).filter
        fun word => (word.2.next? (mark? .rightParen)).isSome with
    | some (_, c₁) => done (([], false), c₁)
    | none => ask .parameters true c

theorem eval_parameterList (c : Cursor) :
    (parameterList c).eval Call.run = plain (Parse.parameterList c) := by
  rw [plain_parameterList, parameterList]
  cases c.next? (mark? .rightParen) with
  | some => rfl
  | none =>
    cases (c.next? (keyword? .voidKw)).filter
      fun word => (word.2.next? (mark? .rightParen)).isSome with
    | some => rfl
    | none => exact eval_ask _ _ _

def parameters (first : Bool) (c : Cursor) : Script ((List Parameter × Bool) × Cursor) :=
  match c.next? (mark? .ellipsis) with
  | some (_, c₁) => if first then object c .unnamedBeforeEllipsis else done (([], true), c₁)
  | none => do
    let (p, c₁) ← ask .parameter () c
    match c₁.next? (mark? .comma) with
    | none => done (([p], false), c₁)
    | some (_, c₂) =>
      let (list, c₃) ← ask .parameters false c₂
      done ((p :: list.1, list.2), c₃)

theorem eval_parameters (first : Bool) (c : Cursor) :
    (parameters first c).eval Call.run = plain (Parse.parameters first c) := by
  rw [plain_parameters, parameters]
  cases c.next? (mark? .ellipsis) with
  | some => cases first <;> rfl
  | none =>
    refine eval_ask_bind fun (p, c₁) => ?_
    dsimp only
    cases c₁.next? (mark? .comma) <;> rfl

def parameter (c : Cursor) : Script (Parameter × Cursor) := do
  let (type, c₁) ← step (plain (typeSpecifier c))
  let (d, c₂) ← ask .declarator () c₁
  match d.tail with
  | .parameters _ _ => object c₂ (.functionParameter d.name d.location)
  | .dimensions _ => done (⟨d.applyTo type, d.name, d.location⟩, c₂)

theorem eval_parameter (c : Cursor) :
    (parameter c).eval Call.run = plain (Parse.parameter c) := by
  rw [plain_parameter]
  refine eval_step_bind fun (type, c₁) => eval_ask_bind fun (d, c₂) => ?_
  dsimp only
  cases d.tail <;> rfl

def typedHeading (storage : Storage) (c : Cursor) : Script (Heading × Cursor) := do
  let (type, c₁) ← step (plain (typeSpecifier c))
  let (d, c₂) ← ask .declarator () c₁
  done (d.heading storage type, c₂)

theorem eval_typedHeading (storage : Storage) (c : Cursor) :
    (typedHeading storage c).eval Call.run = plain (Parse.typedHeading storage c) := by
  rw [plain_typedHeading]
  exact eval_step_bind fun _ => rfl

def heading (c : Cursor) : Script (Heading × Cursor) :=
  match c.next? storage? with
  | some ((storage, _), c₁) => ask .typedHeading storage c₁
  | none => ask .typedHeading .none c

theorem eval_heading (c : Cursor) : (heading c).eval Call.run = plain (Parse.heading c) := by
  rw [plain_heading, heading]
  cases c.next? storage? <;> exact eval_ask _ _ _

def variableEnd (v : Variable) (c : Cursor) : Script (Variable × Cursor) :=
  match c.next? (mark? .assign) with
  | some (_, c₁) => do
    let (value, c₂) ← ask .expr () c₁
    let (_, c₃) ← step (plain (expect .semicolon .afterVariable c₂))
    done ({ v with initializer := some value }, c₃)
  | none => do
    let (_, c₁) ← step (plain (expect .semicolon .afterVariable c))
    done (v, c₁)

theorem eval_variableEnd (v : Variable) (c : Cursor) :
    (variableEnd v c).eval Call.run = plain (Parse.variableEnd v c) := by
  rw [plain_variableEnd, variableEnd]
  cases c.next? (mark? .assign) with
  | some => exact eval_ask_bind fun (value, c₂) => eval_step_bind fun _ => rfl
  | none => exact eval_step_bind fun _ => rfl

def blockDecl (c : Cursor) : Script (Decl × Cursor) := do
  let (h, c₁) ← ask .heading () c
  match h with
  | .var v =>
    let (v, c₂) ← ask .variableEnd v c₁
    done (Decl.var v, c₂)
  | .function p =>
    if (c₁.next? (mark? .leftBrace)).isSome then object c₁ .nestedFunction
    else
      let (p, c₂) ← step (plain (prototypeEnd p c₁))
      done (Decl.function p, c₂)

theorem eval_blockDecl (c : Cursor) :
    (blockDecl c).eval Call.run = plain (Parse.blockDecl c) := by
  rw [plain_blockDecl]
  refine eval_ask_bind fun (h, c₁) => ?_
  cases h with
  | var => rfl
  | function p =>
    dsimp only
    split
    · rfl
    · exact eval_step_bind fun _ => rfl

/-! ## Statements -/

def blockDecls (c : Cursor) : Script (List Decl × Cursor) :=
  if c.rest.head?.any fun t => startsDeclaration t.kind then do
    let (d, c₁) ← ask .blockDecl () c
    let (ds, c₂) ← ask .blockDecls () c₁
    done (d :: ds, c₂)
  else done ([], c)

theorem eval_blockDecls (c : Cursor) :
    (blockDecls c).eval Call.run = plain (Parse.blockDecls c) := by
  rw [plain_blockDecls, blockDecls]
  split <;> rfl

def clause (stop : Punctuator) (place : Place) (c : Cursor) : Script (Option Expr × Cursor) :=
  match c.next? (mark? stop) with
  | some (_, c₁) => done (none, c₁)
  | none => do
    let (e, c₁) ← ask .expr () c
    let (_, c₂) ← step (plain (expect stop place c₁))
    done (some e, c₂)

theorem eval_clause (stop : Punctuator) (place : Place) (c : Cursor) :
    (clause stop place c).eval Call.run = plain (Parse.clause stop place c) := by
  rw [plain_clause, clause]
  cases c.next? (mark? stop) with
  | some => rfl
  | none => exact eval_ask_bind fun (e, c₁) => eval_step_bind fun _ => rfl

def condition (word : Keyword) (c : Cursor) : Script (Expr × Cursor) := do
  let (_, c₁) ← step (plain (expect .leftParen (.afterKeyword word) c))
  let (e, c₂) ← ask .expr () c₁
  let (_, c₃) ← step (plain (expect .rightParen (.afterCondition word) c₂))
  done (e, c₃)

theorem eval_condition (word : Keyword) (c : Cursor) :
    (condition word c).eval Call.run = plain (Parse.condition word c) := by
  rw [plain_condition]
  exact eval_step_bind fun (_, c₁) => eval_ask_bind fun (e, c₂) => eval_step_bind fun _ => rfl

def forClauses (c : Cursor) : Script (ForClauses × Cursor) := do
  let (_, c₁) ← step (plain (expect .leftParen (.afterKeyword .forKw) c))
  let (first, c₂) ← ask .clause (.semicolon, .afterForFirst) c₁
  let (middle, c₃) ← ask .clause (.semicolon, .afterForCondition) c₂
  let (last, c₄) ← ask .clause (.rightParen, .afterForStep) c₃
  done (⟨first, middle, last⟩, c₄)

theorem eval_forClauses (c : Cursor) :
    (forClauses c).eval Call.run = plain (Parse.forClauses c) := by
  rw [plain_forClauses]
  exact eval_step_bind fun _ => rfl

def stmt (c : Cursor) : Script (Stmt × Cursor) :=
  match c.next? leader? with
  | none => do
    let (e, c₁) ← ask .expr () c
    let (_, c₂) ← step (plain (expect .semicolon .afterExpression c₁))
    done (.expr e c.location, c₂)
  | some ((lead, l), c₁) => ask .ledStmt (lead, l) c₁

theorem eval_stmt (c : Cursor) : (stmt c).eval Call.run = plain (Parse.stmt c) := by
  rw [plain_stmt, stmt]
  cases c.next? leader? with
  | none => exact eval_ask_bind fun (e, c₁) => eval_step_bind fun _ => rfl
  | some => exact eval_ask _ _ _

def ledStmt (lead : Leader) (l : Location) (c : Cursor) : Script (Stmt × Cursor) :=
  match lead with
  | .block => do
    let (b, c₁) ← ask .block l c
    done (.block b, c₁)
  | .branch => do
    let (e, c₁) ← ask .condition .ifKw c
    let (b, c₂) ← ask .body .ifKw c₁
    match c₂.next? (keyword? .elseKw) with
    | none => done (.ifThen e b l, c₂)
    | some (_, c₃) =>
      let (a, c₄) ← ask .body .elseKw c₃
      done (.ifElse e b a l, c₄)
  | .whileLoop => do
    let (e, c₁) ← ask .condition .whileKw c
    let (b, c₂) ← ask .body .whileKw c₁
    done (.whileLoop e b l, c₂)
  | .forLoop => do
    let (clauses, c₁) ← ask .forClauses () c
    let (b, c₂) ← ask .body .forKw c₁
    done (.forLoop clauses.first clauses.condition clauses.step b l, c₂)
  | .returnStmt => do
    let (value, c₁) ← ask .clause (.semicolon, .afterReturn) c
    done (.returnStmt value l, c₁)
  | .jump kind => do
    let (_, c₁) ← step (plain (expect .semicolon (.afterKeyword kind.keyword) c))
    done (.jump kind l, c₁)

theorem eval_ledStmt (lead : Leader) (l : Location) (c : Cursor) :
    (ledStmt lead l c).eval Call.run = plain (Parse.ledStmt lead l c) := by
  cases lead with
  | block => exact (plain_ledStmt_block l c).symm
  | branch =>
    rw [plain_ledStmt_branch]
    refine eval_ask_bind fun (e, c₁) => eval_ask_bind fun (b, c₂) => ?_
    dsimp only
    cases c₂.next? (keyword? .elseKw) <;> rfl
  | whileLoop => exact (plain_ledStmt_whileLoop l c).symm
  | forLoop => exact (plain_ledStmt_forLoop l c).symm
  | returnStmt => exact (plain_ledStmt_returnStmt l c).symm
  | jump kind =>
    rw [plain_ledStmt_jump]
    exact eval_step_bind fun _ => rfl

def body (owner : Keyword) (c : Cursor) : Script (Block × Cursor) :=
  match c.next? (mark? .leftBrace) with
  | none => object c (.missing .leftBrace (.openBody owner))
  | some ((_, l), c₁) => ask .block l c₁

theorem eval_body (owner : Keyword) (c : Cursor) :
    (body owner c).eval Call.run = plain (Parse.body owner c) := by
  rw [plain_body, body]
  cases c.next? (mark? .leftBrace) with
  | none => rfl
  | some => exact eval_ask _ _ _

def block (l : Location) (c : Cursor) : Script (Block × Cursor) := do
  let (ds, c₁) ← ask .blockDecls () c
  let (ss, c₂) ← ask .stmts () c₁
  let (_, c₃) ← step (plain (expect .rightBrace .closeBlock c₂))
  done (.mk ds ss l, c₃)

theorem eval_block (l : Location) (c : Cursor) :
    (block l c).eval Call.run = plain (Parse.block l c) := by
  rw [plain_block]
  exact eval_ask_bind fun (ds, c₁) => eval_ask_bind fun (ss, c₂) => eval_step_bind fun _ => rfl

def stmts (c : Cursor) : Script (List Stmt × Cursor) :=
  match c.rest.head? with
  | none => done ([], c)
  | some t =>
    if t.kind = .punctuator .rightBrace then done ([], c)
    else if startsDeclaration t.kind then object c .lateDeclaration
    else do
      let (s, c₁) ← ask .stmt () c
      let (ss, c₂) ← ask .stmts () c₁
      done (s :: ss, c₂)

theorem eval_stmts (c : Cursor) : (stmts c).eval Call.run = plain (Parse.stmts c) := by
  rw [plain_stmts, stmts]
  cases c.rest.head? with
  | none => rfl
  | some t =>
    dsimp only
    split
    · rfl
    · split <;> rfl

/-! ## Units -/

def external (c : Cursor) : Script (External × Cursor) := do
  let (h, c₁) ← ask .heading () c
  match h with
  | .var v =>
    let (v, c₂) ← ask .variableEnd v c₁
    done (External.decl (.var v), c₂)
  | .function p =>
    match c₁.next? (mark? .leftBrace) with
    | none =>
      let (p, c₂) ← step (plain (prototypeEnd p c₁))
      done (External.decl (.function p), c₂)
    | some ((_, l), c₂) =>
      if p.storage = .external then object c₁ .externBody
      else
        let (b, c₃) ← ask .block l c₂
        done (External.definition p b, c₃)

theorem eval_external (c : Cursor) :
    (external c).eval Call.run = plain (Parse.external c) := by
  rw [plain_external]
  refine eval_ask_bind fun (h, c₁) => ?_
  cases h with
  | var => rfl
  | function p =>
    dsimp only
    cases c₁.next? (mark? .leftBrace) with
    | none => exact eval_step_bind fun _ => rfl
    | some =>
      dsimp only
      split <;> rfl

def externals (c : Cursor) : Script (List External × Cursor) :=
  if c.rest.isEmpty then done ([], c)
  else do
    let (d, c₁) ← ask .external () c
    let (ds, c₂) ← ask .externals () c₁
    done (d :: ds, c₂)

theorem eval_externals (c : Cursor) :
    (externals c).eval Call.run = (Reading.from c).outcome := by
  rw [Reading.outcome_from, externals]
  split <;> rfl

end Script

/-- What a call does. -/
def Call.script : (e : Call) → Script (e.routine.Output × Cursor)
  | ⟨.expr, _, c⟩ => .expr c
  | ⟨.binary, least, c⟩ => .binary least c
  | ⟨.binaryLoop, (least, left), c⟩ => .binaryLoop least left c
  | ⟨.unary, _, c⟩ => .unary c
  | ⟨.suffixed, _, c⟩ => .suffixed c
  | ⟨.suffixLoop, base, c⟩ => .suffixLoop base c
  | ⟨.arguments, _, c⟩ => .arguments c
  | ⟨.argumentList, _, c⟩ => .argumentList c
  | ⟨.primary, _, c⟩ => .primary c
  | ⟨.strings, _, c⟩ => .strings c
  | ⟨.dimensions, _, c⟩ => .dimensions c
  | ⟨.declarator, _, c⟩ => .declarator c
  | ⟨.parameterList, _, c⟩ => .parameterList c
  | ⟨.parameters, first, c⟩ => .parameters first c
  | ⟨.parameter, _, c⟩ => .parameter c
  | ⟨.typedHeading, storage, c⟩ => .typedHeading storage c
  | ⟨.heading, _, c⟩ => .heading c
  | ⟨.variableEnd, v, c⟩ => .variableEnd v c
  | ⟨.blockDecl, _, c⟩ => .blockDecl c
  | ⟨.blockDecls, _, c⟩ => .blockDecls c
  | ⟨.clause, (stop, place), c⟩ => .clause stop place c
  | ⟨.condition, word, c⟩ => .condition word c
  | ⟨.forClauses, _, c⟩ => .forClauses c
  | ⟨.stmt, _, c⟩ => .stmt c
  | ⟨.ledStmt, (lead, l), c⟩ => .ledStmt lead l c
  | ⟨.body, owner, c⟩ => .body owner c
  | ⟨.block, l, c⟩ => .block l c
  | ⟨.stmts, _, c⟩ => .stmts c
  | ⟨.external, _, c⟩ => .external c
  | ⟨.externals, _, c⟩ => .externals c

/-- Told what the called parsers find, the script of a parser finds what the parser finds. -/
theorem Call.run_eq : ∀ e : Call, e.script.eval Call.run = e.run
  | ⟨.expr, _, c⟩ => Script.eval_expr c
  | ⟨.binary, least, c⟩ => Script.eval_binary least c
  | ⟨.binaryLoop, (least, left), c⟩ => Script.eval_binaryLoop least left c
  | ⟨.unary, _, c⟩ => Script.eval_unary c
  | ⟨.suffixed, _, c⟩ => Script.eval_suffixed c
  | ⟨.suffixLoop, base, c⟩ => Script.eval_suffixLoop base c
  | ⟨.arguments, _, c⟩ => Script.eval_arguments c
  | ⟨.argumentList, _, c⟩ => Script.eval_argumentList c
  | ⟨.primary, _, c⟩ => Script.eval_primary c
  | ⟨.strings, _, c⟩ => Script.eval_strings c
  | ⟨.dimensions, _, c⟩ => Script.eval_dimensions c
  | ⟨.declarator, _, c⟩ => Script.eval_declarator c
  | ⟨.parameterList, _, c⟩ => Script.eval_parameterList c
  | ⟨.parameters, first, c⟩ => Script.eval_parameters first c
  | ⟨.parameter, _, c⟩ => Script.eval_parameter c
  | ⟨.typedHeading, storage, c⟩ => Script.eval_typedHeading storage c
  | ⟨.heading, _, c⟩ => Script.eval_heading c
  | ⟨.variableEnd, v, c⟩ => Script.eval_variableEnd v c
  | ⟨.blockDecl, _, c⟩ => Script.eval_blockDecl c
  | ⟨.blockDecls, _, c⟩ => Script.eval_blockDecls c
  | ⟨.clause, (stop, place), c⟩ => Script.eval_clause stop place c
  | ⟨.condition, word, c⟩ => Script.eval_condition word c
  | ⟨.forClauses, _, c⟩ => Script.eval_forClauses c
  | ⟨.stmt, _, c⟩ => Script.eval_stmt c
  | ⟨.ledStmt, (lead, l), c⟩ => Script.eval_ledStmt lead l c
  | ⟨.body, owner, c⟩ => Script.eval_body owner c
  | ⟨.block, l, c⟩ => Script.eval_block l c
  | ⟨.stmts, _, c⟩ => Script.eval_stmts c
  | ⟨.external, _, c⟩ => Script.eval_external c
  | ⟨.externals, _, c⟩ => Script.eval_externals c

end Parse

end CSubset
