-- SUMMARY: What can be wrong with a piece of source text, and the message for it.
import CSubset.Location
import CSubset.Text.Escape

/-!
# Lexical errors

A lexical error never stops the scan: it is recorded with the position it concerns, and
the scan goes on behind it.
-/

namespace CSubset

/-- What is wrong with a piece of text. -/
inductive LexicalError.Kind where
  | illegalCharacter (c : Char)
  | unterminatedString
  | unterminatedChar
  | unterminatedComment
  | emptyChar
  | multiCharacterChar
  | invalidEscape (c : Char)
  | invalidNumber (text : String)
deriving DecidableEq, Repr

/-- A lexical error and the position it concerns. -/
structure LexicalError where
  kind : LexicalError.Kind
  location : Location
deriving DecidableEq, Repr

namespace LexicalError

/-- The fault in words. -/
def Kind.message : Kind → String
  | .illegalCharacter c => "illegal character '" ++ Text.escape (String.ofList [c]) ++ "'"
  | .unterminatedString => "unterminated string literal"
  | .unterminatedChar => "unterminated character constant"
  | .unterminatedComment => "unterminated comment"
  | .emptyChar => "empty character constant"
  | .multiCharacterChar => "character constant holds more than one character"
  | .invalidEscape c => "unknown escape sequence '\\" ++ Text.escape (String.ofList [c]) ++ "'"
  | .invalidNumber text => "invalid numeric literal " ++ text

/-- The error as a line of output. -/
def message (e : LexicalError) : String :=
  s!"Lexical error at line {e.location.line}, column {e.location.column}: " ++ e.kind.message

end LexicalError

end CSubset
