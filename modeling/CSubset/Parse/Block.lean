-- SUMMARY: Parsing blocks and statements.
import CSubset.Parse.Declaration

/-!
# Blocks and statements

A block holds its declarations first; a declaration behind the first statement is an
error of its own. The bodies of branches and loops have to be blocks.
-/

namespace CSubset.Parse

/-- What the first token of a statement other than an expression announces. -/
inductive Leader where
  | block
  | branch
  | whileLoop
  | forLoop
  | returnStmt
  | jump (kind : Jump)
deriving DecidableEq, Repr

/-- Admits a token that announces a statement other than an expression. -/
def leader? : Token.Kind → Option Leader
  | .punctuator .leftBrace => some .block
  | .keyword .ifKw => some .branch
  | .keyword .whileKw => some .whileLoop
  | .keyword .forKw => some .forLoop
  | .keyword .returnKw => some .returnStmt
  | .keyword .breakKw => some (.jump .breakLoop)
  | .keyword .continueKw => some (.jump .continueLoop)
  | _ => none

/-- An expression that may be absent, and the mark that ends it. -/
def clause (stop : Punctuator) (place : Place) (c : Cursor) : Parse (Option Expr) c :=
  match c.take? (mark? stop) with
  | some p => .ok (p.map fun _ => none)
  | none => do
    let e ← expr c
    let p ← expect stop place e.cursor
    .ok (e.andThen (p.map fun _ => some e.value))

/-- The condition of a branch or loop in its parentheses. -/
def condition (word : Keyword) (c : Cursor) : Parse Expr c := do
  let opening ← expect .leftParen (.afterKeyword word) c
  let e ← expr opening.cursor
  let closing ← expect .rightParen (.afterCondition word) e.cursor
  .ok (opening.andThen (e.andThen (closing.map fun _ => e.value)))

/-- The clauses of a counting loop: what comes first, the condition, and the step. -/
structure ForClauses where
  first : Option Expr
  condition : Option Expr
  step : Option Expr
deriving Repr

/-- The clauses of a counting loop in their parentheses. -/
def forClauses (c : Cursor) : Parse ForClauses c := do
  let opening ← expect .leftParen (.afterKeyword .forKw) c
  let first ← clause .semicolon .afterForFirst opening.cursor
  let middle ← clause .semicolon .afterForCondition first.cursor
  let last ← clause .rightParen .afterForStep middle.cursor
  .ok (opening.andThen (first.andThen (middle.andThen
    (last.map fun step => ⟨first.value, middle.value, step⟩))))

/-- Declarations up to the first token that cannot begin one. -/
def blockDecls (c : Cursor) : ParseMaybe (List Decl) c :=
  if (c.rest.head?.any fun t => startsDeclaration t.kind) then do
    let d ← blockDecl c
    let more ← blockDecls d.cursor
    .ok (d.andMaybe (more.map fun ds => d.value :: ds)).weaken
  else .ok (.nothing c [])
termination_by c.rest.length
decreasing_by exact d.shorter

mutual

/-- A statement. -/
def stmt (c : Cursor) : Parse Stmt c :=
  match c.take? leader? with
  | none => do
    let e ← expr c
    let semicolon ← expect .semicolon .afterExpression e.cursor
    .ok (e.andThen (semicolon.map fun _ => Stmt.expr e.value c.location))
  | some lead => do
    let s ← ledStmt lead.value.1 lead.value.2 lead.cursor
    .ok (lead.andThen s)
termination_by 8 * c.rest.length
decreasing_by
  have := lead.shorter
  omega

/-- The rest of a statement whose first token, at `l`, has been read. -/
def ledStmt (lead : Leader) (l : Location) (c : Cursor) : Parse Stmt c :=
  match lead with
  | .block => do
    let b ← block l c
    .ok (b.map Stmt.block)
  | .branch => do
    let e ← condition .ifKw c
    let b ← body .ifKw e.cursor
    match b.cursor.take? (keyword? .elseKw) with
    | none => .ok (e.andThen (b.map fun b => Stmt.ifThen e.value b l))
    | some word =>
      let a ← body .elseKw word.cursor
      .ok (e.andThen (b.andThen (word.andThen
        (a.map fun a => Stmt.ifElse e.value b.value a l))))
  | .whileLoop => do
    let e ← condition .whileKw c
    let b ← body .whileKw e.cursor
    .ok (e.andThen (b.map fun b => Stmt.whileLoop e.value b l))
  | .forLoop => do
    let clauses ← forClauses c
    let b ← body .forKw clauses.cursor
    .ok (clauses.andThen (b.map fun b =>
      Stmt.forLoop clauses.value.first clauses.value.condition clauses.value.step b l))
  | .returnStmt => do
    let value ← clause .semicolon .afterReturn c
    .ok (value.map fun value => Stmt.returnStmt value l)
  | .jump kind => do
    let semicolon ← expect .semicolon (.afterKeyword kind.keyword) c
    .ok (semicolon.map fun _ => Stmt.jump kind l)
termination_by 8 * c.rest.length + 4
decreasing_by
  · omega
  · have := e.shorter
    omega
  · have := e.shorter
    have := b.shorter
    have := word.shorter
    omega
  · have := e.shorter
    omega
  · have := clauses.shorter
    omega

/-- The block that a branch or loop has to have as its body. -/
def body (owner : Keyword) (c : Cursor) : Parse Block c :=
  match c.take? (mark? .leftBrace) with
  | none => c.fail (.missing .leftBrace (.openBody owner))
  | some opening => do
    let b ← block opening.value.2 opening.cursor
    .ok (opening.andThen b)
termination_by 8 * c.rest.length
decreasing_by
  have := opening.shorter
  omega

/-- The rest of a block whose opening brace, at `l`, has been read. -/
def block (l : Location) (c : Cursor) : Parse Block c := do
  let ds ← blockDecls c
  let ss ← stmts ds.cursor
  let closing ← expect .rightBrace .closeBlock ss.cursor
  .ok (ds.maybeThen (ss.maybeThen (closing.map fun _ => Block.mk ds.value ss.value l)))
termination_by 8 * c.rest.length + 3
decreasing_by
  have := ds.shorter
  omega

/-- Statements up to a closing brace or the end of the input. -/
def stmts (c : Cursor) : ParseMaybe (List Stmt) c :=
  match c.rest.head? with
  | none => .ok (.nothing c [])
  | some t =>
    if t.kind = .punctuator .rightBrace then .ok (.nothing c [])
    else if startsDeclaration t.kind then c.fail .lateDeclaration
    else do
      let s ← stmt c
      let more ← stmts s.cursor
      .ok (s.andMaybe (more.map fun ss => s.value :: ss)).weaken
termination_by 8 * c.rest.length + 1
decreasing_by
  · omega
  · have := s.shorter
    omega

end

end CSubset.Parse
