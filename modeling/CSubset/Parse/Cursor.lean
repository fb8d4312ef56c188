-- SUMMARY: Where a parser stands, what it hands on, and how it fails.
import CSubset.Syntax.Expr
import CSubset.Syntax.SyntaxError

/-!
# Cursors

A parser reads from a cursor: the tokens ahead and the number that the next expression
node gets. It hands on a value and the cursor behind it, together with the fact that
fewer tokens are ahead than before; every recursion of the grammar rests on that fact. A
failure keeps the cursor at which it arose.
-/

namespace CSubset

/-- The tokens ahead of a parser, and the number of the next expression node. -/
structure Cursor where
  rest : List Token
  nextId : Nat
deriving DecidableEq, Repr

/-- A complaint, and the cursor at which it arose. -/
structure Failure where
  complaint : Complaint
  cursor : Cursor
deriving DecidableEq, Repr

/-- A parsed value and the cursor behind it, with fewer than `bound` tokens ahead. -/
structure Parsed (α : Type) (bound : Nat) where
  value : α
  cursor : Cursor
  shorter : cursor.rest.length < bound

/-- What a parser makes of a cursor: a value behind which fewer tokens are ahead, or a
failure. -/
abbrev Parse (α : Type) (c : Cursor) := Except Failure (Parsed α c.rest.length)

/-- Like `Parse`, but the value may come from no tokens. -/
abbrev ParseMaybe (α : Type) (c : Cursor) := Except Failure (Parsed α (c.rest.length + 1))

namespace Parsed

variable {α β : Type} {n : Nat}

/-- The result with its value changed. -/
def map (f : α → β) (p : Parsed α n) : Parsed β n := ⟨f p.value, p.cursor, p.shorter⟩

/-- The result as an expression node, which takes the next number and the given position. -/
def node (p : Parsed α n) (location : Location) (build : Anchor → α → Expr) : Parsed Expr n :=
  ⟨build ⟨p.cursor.nextId, location⟩ p.value, ⟨p.cursor.rest, p.cursor.nextId + 1⟩, p.shorter⟩

/-- What is parsed behind `p`, seen from where `p` began. -/
def andThen (p : Parsed α n) (q : Parsed β p.cursor.rest.length) : Parsed β n :=
  ⟨q.value, q.cursor, Nat.lt_trans q.shorter p.shorter⟩

/-- What is parsed behind `p`, perhaps from no tokens, seen from where `p` began. -/
def andMaybe (p : Parsed α n) (q : Parsed β (p.cursor.rest.length + 1)) : Parsed β n :=
  ⟨q.value, q.cursor, Nat.lt_of_le_of_lt (Nat.le_of_lt_succ q.shorter) p.shorter⟩

/-- What is parsed behind `p`, seen from where `p` began, where `p` perhaps took no tokens. -/
def maybeThen (p : Parsed α (n + 1)) (q : Parsed β p.cursor.rest.length) : Parsed β n :=
  ⟨q.value, q.cursor, Nat.lt_of_lt_of_le q.shorter (Nat.le_of_lt_succ p.shorter)⟩

/-- The same result where none was needed. -/
def weaken (p : Parsed α n) : Parsed α (n + 1) := ⟨p.value, p.cursor, Nat.lt_succ_of_lt p.shorter⟩

/-- A result from no tokens. -/
def nothing (c : Cursor) (value : α) : Parsed α (c.rest.length + 1) :=
  ⟨value, c, Nat.lt_succ_self _⟩

end Parsed

namespace Cursor

/-- Where the next token stands. -/
def location (c : Cursor) : Location := (c.rest.head?.map Token.location).getD .start

/-- Takes the next token if its kind is one that `pick` admits. -/
def take? {β : Type} (c : Cursor) (pick : Token.Kind → Option β) :
    Option (Parsed (β × Location) c.rest.length) :=
  match h : c.rest with
  | [] => none
  | t :: rest => (pick t.kind).map fun b => ⟨(b, t.location), ⟨rest, c.nextId⟩, by simp⟩

/-- Objects to the next token. -/
def fail {α : Type} (c : Cursor) (complaint : Complaint) : Except Failure α :=
  .error ⟨complaint, c⟩

end Cursor

namespace Parse

/-- Admits one punctuator. -/
def mark? (mark : Punctuator) (k : Token.Kind) : Option Unit :=
  if k = .punctuator mark then some () else none

/-- Admits one keyword. -/
def keyword? (word : Keyword) (k : Token.Kind) : Option Unit :=
  if k = .keyword word then some () else none

/-- Admits an identifier, for its name. -/
def identifier? : Token.Kind → Option String
  | .identifier name => some name
  | _ => none

/-- Takes a punctuator that has to come next. -/
def expect (mark : Punctuator) (place : Place) (c : Cursor) : Parse Unit c :=
  match c.take? (mark? mark) with
  | some p => .ok (p.map fun _ => ())
  | none => c.fail (.missing mark place)

end Parse

end CSubset
