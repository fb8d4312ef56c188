-- SUMMARY: Parsing expressions.
import CSubset.Parse.Cursor

/-!
# Expressions

From the loosest to the tightest: assignment, which groups to the right; the binary
operators by precedence, which group to the left; unary operators; calls and
subscripts; and primary expressions, where adjacent string literals are one literal.
Parentheses leave no node.

A node gets its number when it is complete, so the nodes of an expression are numbered
from its leaves to its root and from left to right.
-/

namespace CSubset.Parse

-- ---------------------------------------------------------------------------
-- Tokens that operators and leaves are made of
-- ---------------------------------------------------------------------------

/-- The binary operator that a token stands for. -/
def binaryOp? : Token.Kind → Option BinaryOp
  | .punctuator .orOr => some .or
  | .punctuator .andAnd => some .and
  | .punctuator .equal => some .equal
  | .punctuator .notEqual => some .notEqual
  | .punctuator .less => some (.order .less)
  | .punctuator .lessEqual => some (.order .lessEqual)
  | .punctuator .greater => some (.order .greater)
  | .punctuator .greaterEqual => some (.order .greaterEqual)
  | .punctuator .plus => some (.arith .add)
  | .punctuator .minus => some (.arith .sub)
  | .punctuator .star => some (.arith .mul)
  | .punctuator .slash => some (.arith .div)
  | .punctuator .percent => some (.arith .mod)
  | _ => none

/-- The binary operator that a token stands for, if it binds at least as tightly as
`least`. -/
def binaryOpFrom? (least : Nat) (k : Token.Kind) : Option BinaryOp :=
  (binaryOp? k).filter fun op => least ≤ op.precedence

/-- The assignment operator that a token stands for. -/
def assignOp? : Token.Kind → Option AssignOp
  | .punctuator .assign => some .plain
  | .punctuator .plusAssign => some (.compound .add)
  | .punctuator .minusAssign => some (.compound .sub)
  | .punctuator .starAssign => some (.compound .mul)
  | .punctuator .slashAssign => some (.compound .div)
  | .punctuator .percentAssign => some (.compound .mod)
  | _ => none

/-- The unary operator that a token stands for in front of an operand. -/
def unaryOp? : Token.Kind → Option UnaryOp
  | .punctuator .minus => some .negate
  | .punctuator .plus => some .plus
  | .punctuator .bang => some .not
  | .punctuator .star => some .dereference
  | .punctuator .ampersand => some .addressOf
  | _ => none

/-- The leaf that a single token is by itself. -/
def leaf? : Token.Kind → Option (Anchor → Expr)
  | .intLiteral value => some fun a => .literal a (.int value)
  | .floatLiteral value => some fun a => .literal a (.float value)
  | .charLiteral value => some fun a => .literal a (.char value)
  | .identifier name => some fun a => .ident a name
  | _ => none

/-- Admits a string literal, for its value. -/
def string? : Token.Kind → Option String
  | .stringLiteral value => some value
  | _ => none

/-- The string literals at the start of the tokens joined to one text, and what follows. -/
def joinStrings : List Token → String × List Token
  | [] => ("", [])
  | t :: rest =>
    match string? t.kind with
    | some value => (value ++ (joinStrings rest).1, (joinStrings rest).2)
    | none => ("", t :: rest)

theorem length_joinStrings_le (ts : List Token) : (joinStrings ts).2.length ≤ ts.length := by
  induction ts with
  | nil => simp [joinStrings]
  | cons t rest ih =>
    unfold joinStrings
    split
    · simp only [List.length_cons]
      omega
    · exact Nat.le_refl _

/-- A string literal together with those behind it. -/
def strings {n : Nat} (first : Parsed (String × Location) n) : Parsed String n :=
  ⟨first.value.1 ++ (joinStrings first.cursor.rest).1,
    ⟨(joinStrings first.cursor.rest).2, first.cursor.nextId⟩,
    Nat.lt_of_le_of_lt (length_joinStrings_le first.cursor.rest) first.shorter⟩

-- ---------------------------------------------------------------------------
-- The grammar of expressions
-- ---------------------------------------------------------------------------

mutual

/-- An assignment, or an expression that binds more tightly. -/
def expr (c : Cursor) : Parse Expr c := do
  let target ← binary 1 c
  match target.cursor.take? assignOp? with
  | none => .ok target
  | some op =>
    let value ← expr op.cursor
    .ok (target.andThen (op.andThen
      (value.node op.value.2 fun a v => .assign a op.value.1 target.value v)))
termination_by 8 * c.rest.length + 5
decreasing_by
  · omega
  · have := target.shorter
    have := op.shorter
    omega

/-- An expression whose binary operators all bind at least as tightly as `least`. -/
def binary (least : Nat) (c : Cursor) : Parse Expr c := do
  let left ← unary c
  binaryRest least left
termination_by 8 * c.rest.length + 4
decreasing_by
  · omega
  · have := left.shorter
    omega

/-- Goes on behind a left operand as long as operators bind at least as tightly as
`least`. -/
def binaryRest (least : Nat) {n : Nat} (left : Parsed Expr n) : Except Failure (Parsed Expr n) :=
  match left.cursor.take? (binaryOpFrom? least) with
  | none => .ok left
  | some op => do
    let right ← binary (op.value.1.precedence + 1) op.cursor
    binaryRest least (left.andThen (op.andThen
      (right.node op.value.2 fun a r => .binary a op.value.1 left.value r)))
termination_by 8 * left.cursor.rest.length + 7
decreasing_by
  · have := op.shorter
    omega
  · have := op.shorter
    have := right.shorter
    simp only [Parsed.andThen, Parsed.node]
    omega

/-- An expression with any number of unary operators in front. -/
def unary (c : Cursor) : Parse Expr c :=
  match c.take? unaryOp? with
  | none => suffixed c
  | some op => do
    let operand ← unary op.cursor
    .ok (op.andThen (operand.node op.value.2 fun a x => .unary a op.value.1 x))
termination_by 8 * c.rest.length + 3
decreasing_by
  · omega
  · have := op.shorter
    omega

/-- A primary expression with any number of calls and subscripts behind it. -/
def suffixed (c : Cursor) : Parse Expr c := do
  let base ← primary c
  suffixes base
termination_by 8 * c.rest.length + 2
decreasing_by
  · omega
  · have := base.shorter
    omega

/-- Goes on behind an expression as long as calls and subscripts follow. -/
def suffixes {n : Nat} (base : Parsed Expr n) : Except Failure (Parsed Expr n) :=
  match base.cursor.take? (mark? .leftParen) with
  | some opening => do
    let args ← arguments opening.cursor
    suffixes (base.andThen (opening.andThen
      (args.node opening.value.2 fun a args => .call a base.value args)))
  | none =>
    match base.cursor.take? (mark? .leftBracket) with
    | none => .ok base
    | some opening => do
      let subscript ← expr opening.cursor
      let closing ← expect .rightBracket .afterSubscript subscript.cursor
      suffixes (base.andThen (opening.andThen (subscript.andThen
        (closing.node opening.value.2 fun a _ => .index a base.value subscript.value))))
termination_by 8 * base.cursor.rest.length + 7
decreasing_by
  · have := opening.shorter
    omega
  · have := opening.shorter
    have := args.shorter
    simp only [Parsed.andThen, Parsed.node]
    omega
  · have := opening.shorter
    omega
  · have := opening.shorter
    have := subscript.shorter
    have := closing.shorter
    simp only [Parsed.andThen, Parsed.node]
    omega

/-- Arguments, perhaps none, and the parenthesis that closes them. -/
def arguments (c : Cursor) : Parse (List Expr) c :=
  match c.take? (mark? .rightParen) with
  | some closing => .ok (closing.map fun _ => [])
  | none => do
    let list ← argumentList c
    let closing ← expect .rightParen .afterArguments list.cursor
    .ok (list.andThen (closing.map fun _ => list.value))
termination_by 8 * c.rest.length + 7

/-- One or more arguments with commas between them. -/
def argumentList (c : Cursor) : Parse (List Expr) c := do
  let first ← expr c
  match first.cursor.take? (mark? .comma) with
  | none => .ok (first.map fun e => [e])
  | some comma =>
    let more ← argumentList comma.cursor
    .ok (first.andThen (comma.andThen (more.map fun es => first.value :: es)))
termination_by 8 * c.rest.length + 6
decreasing_by
  · omega
  · have := first.shorter
    have := comma.shorter
    omega

/-- A literal, an identifier, or an expression in parentheses. -/
def primary (c : Cursor) : Parse Expr c :=
  match c.take? leaf? with
  | some leaf => .ok (leaf.node leaf.value.2 fun a build => build.1 a)
  | none =>
    match c.take? string? with
    | some first =>
      .ok ((strings first).node first.value.2 fun a value => .literal a (.string value))
    | none =>
      match c.take? (mark? .leftParen) with
      | none => c.fail .expression
      | some opening => do
        let inner ← expr opening.cursor
        let closing ← expect .rightParen .afterGrouping inner.cursor
        .ok (opening.andThen (inner.andThen (closing.map fun _ => inner.value)))
termination_by 8 * c.rest.length + 1
decreasing_by
  have := opening.shorter
  omega

end

end CSubset.Parse
