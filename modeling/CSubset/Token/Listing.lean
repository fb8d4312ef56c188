-- SUMMARY: The listing of a file's tokens, one to a line.
import CSubset.Text.Quoted
import CSubset.Token.Scan

/-!
# Token listings

A listing names the kind of every token and shows the value of literals and
identifiers, for readers who want to see how a file was cut into tokens.
-/

namespace CSubset

/-- The name of a keyword in listings. -/
def Keyword.label : Keyword → String
  | intKw => "Int"
  | floatKw => "Float"
  | charKw => "Char"
  | voidKw => "Void"
  | constKw => "Const"
  | staticKw => "Static"
  | externKw => "Extern"
  | ifKw => "If"
  | elseKw => "Else"
  | whileKw => "While"
  | forKw => "For"
  | returnKw => "Return"
  | breakKw => "Break"
  | continueKw => "Continue"

/-- The name of a punctuator in listings. -/
def Punctuator.label : Punctuator → String
  | plus => "Plus"
  | minus => "Minus"
  | star => "Star"
  | slash => "Slash"
  | percent => "Percent"
  | equal => "EqEq"
  | notEqual => "NotEq"
  | less => "Lt"
  | lessEqual => "Le"
  | greater => "Gt"
  | greaterEqual => "Ge"
  | andAnd => "AndAnd"
  | orOr => "OrOr"
  | bang => "Bang"
  | ampersand => "Amp"
  | assign => "Eq"
  | plusAssign => "PlusEq"
  | minusAssign => "MinusEq"
  | starAssign => "StarEq"
  | slashAssign => "SlashEq"
  | percentAssign => "PercentEq"
  | leftParen => "LParen"
  | rightParen => "RParen"
  | leftBrace => "LBrace"
  | rightBrace => "RBrace"
  | leftBracket => "LBracket"
  | rightBracket => "RBracket"
  | semicolon => "Semicolon"
  | comma => "Comma"
  | colon => "Colon"
  | dot => "Dot"
  | ellipsis => "Ellipsis"

namespace Token

/-- The name of a token's kind in listings. -/
def Kind.label : Kind → String
  | .keyword word => word.label
  | .punctuator mark => mark.label
  | .identifier _ => "Ident"
  | .intLiteral _ => "IntLiteral"
  | .floatLiteral _ => "FloatLiteral"
  | .charLiteral _ => "CharLiteral"
  | .stringLiteral _ => "StringLiteral"

/-- The value that a listing shows behind the name, for the kinds that have one. -/
def Kind.shownValue? : Kind → Option String
  | .keyword _ => none
  | .punctuator _ => none
  | .identifier name => some (Text.quote '"' name.toList)
  | .intLiteral value => some (toString value)
  | .floatLiteral value => some value.text
  | .charLiteral value => some (Text.quote '\'' [value])
  | .stringLiteral value => some (Text.quote '"' value.toList)

/-- A token's kind as a listing shows it. -/
def Kind.listed (k : Kind) : String :=
  match k.shownValue? with
  | some value => s!"{k.label}({value})"
  | none => k.label

/-- Text filled up with blanks on the left to at least `width` characters. -/
def padLeft (width : Nat) (text : String) : String :=
  String.ofList (List.replicate (width - text.length) ' ') ++ text

/-- Text filled up with blanks on the right to at least `width` characters. -/
def padRight (width : Nat) (text : String) : String :=
  text ++ String.ofList (List.replicate (width - text.length) ' ')

/-- A token's line in a listing: where it starts and what it is. -/
def listingLine (t : Token) : String :=
  padLeft 4 (toString t.location.line) ++ ":" ++ padRight 3 (toString t.location.column) ++ " " ++
    t.kind.listed

end Token

end CSubset
