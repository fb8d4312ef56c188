-- SUMMARY: Keywords, punctuators and tokens, with the text that displays them.
import CSubset.Binary64.Shortest
import CSubset.Location
import CSubset.Text.Escape

/-!
# Tokens

What the scanner hands to the parser: keywords, punctuators, identifiers and literals.
Literals carry their value and not their spelling, so `Token.Kind.text` is a canonical
display and need not be the text that was scanned.
-/

namespace CSubset

/-- The reserved words. -/
inductive Keyword where
  | intKw | floatKw | charKw | voidKw
  | constKw | staticKw | externKw
  | ifKw | elseKw | whileKw | forKw
  | returnKw | breakKw | continueKw
deriving DecidableEq, Repr

namespace Keyword

/-- All reserved words. -/
def all : List Keyword :=
  [intKw, floatKw, charKw, voidKw, constKw, staticKw, externKw, ifKw, elseKw, whileKw, forKw,
   returnKw, breakKw, continueKw]

/-- The spelling of a reserved word. -/
def text : Keyword → String
  | intKw => "int"
  | floatKw => "float"
  | charKw => "char"
  | voidKw => "void"
  | constKw => "const"
  | staticKw => "static"
  | externKw => "extern"
  | ifKw => "if"
  | elseKw => "else"
  | whileKw => "while"
  | forKw => "for"
  | returnKw => "return"
  | breakKw => "break"
  | continueKw => "continue"

/-- The reserved word with a given spelling. -/
def ofText? (word : String) : Option Keyword := all.find? fun k => k.text = word

theorem mem_all (k : Keyword) : k ∈ all := by cases k <;> decide

end Keyword

/-- Operators, brackets and separators. -/
inductive Punctuator where
  | plus | minus | star | slash | percent
  | equal | notEqual | less | lessEqual | greater | greaterEqual
  | andAnd | orOr | bang | ampersand
  | assign | plusAssign | minusAssign | starAssign | slashAssign | percentAssign
  | leftParen | rightParen | leftBrace | rightBrace | leftBracket | rightBracket
  | semicolon | comma | colon | dot | ellipsis
deriving DecidableEq, Repr

namespace Punctuator

/-- All punctuators, those that another one starts with after the longer one. -/
def all : List Punctuator :=
  [plusAssign, plus, minusAssign, minus, starAssign, star, slashAssign, slash, percentAssign,
   percent, equal, assign, notEqual, bang, lessEqual, less, greaterEqual, greater, andAnd,
   ampersand, orOr, leftParen, rightParen, leftBrace, rightBrace, leftBracket, rightBracket,
   semicolon, comma, colon, ellipsis, dot]

/-- The spelling of a punctuator. -/
def text : Punctuator → String
  | plus => "+"
  | minus => "-"
  | star => "*"
  | slash => "/"
  | percent => "%"
  | equal => "=="
  | notEqual => "!="
  | less => "<"
  | lessEqual => "<="
  | greater => ">"
  | greaterEqual => ">="
  | andAnd => "&&"
  | orOr => "||"
  | bang => "!"
  | ampersand => "&"
  | assign => "="
  | plusAssign => "+="
  | minusAssign => "-="
  | starAssign => "*="
  | slashAssign => "/="
  | percentAssign => "%="
  | leftParen => "("
  | rightParen => ")"
  | leftBrace => "\x7b"
  | rightBrace => "\x7d"
  | leftBracket => "["
  | rightBracket => "]"
  | semicolon => ";"
  | comma => ","
  | colon => ":"
  | dot => "."
  | ellipsis => "..."

theorem mem_all (p : Punctuator) : p ∈ all := by cases p <;> decide

end Punctuator

/-- What a token is; literals carry their value. -/
inductive Token.Kind where
  | keyword (word : Keyword)
  | punctuator (mark : Punctuator)
  | identifier (name : String)
  | intLiteral (value : Int)
  | floatLiteral (value : Binary64)
  | charLiteral (value : Char)
  | stringLiteral (value : String)
deriving DecidableEq, Repr

/-- A token and where it starts. -/
structure Token where
  kind : Token.Kind
  location : Location
deriving DecidableEq, Repr

namespace Token

/-- The display of a character constant. -/
def charText (c : Char) : String := "'" ++ Text.escape (String.ofList [c]) ++ "'"

/-- The display of a string literal. -/
def stringText (s : String) : String := "\"" ++ Text.escape s ++ "\""

/-- The display of a token, as error messages quote it. -/
def Kind.text : Kind → String
  | .keyword word => word.text
  | .punctuator mark => mark.text
  | .identifier name => name
  | .intLiteral value => toString value
  | .floatLiteral value => value.text
  | .charLiteral value => charText value
  | .stringLiteral value => stringText value

/-- The display of a token, as error messages quote it. -/
def text (t : Token) : String := t.kind.text

end Token

end CSubset
