-- SUMMARY: One piece of source text: a blank, a comment, an illegal character or a lexeme.
import CSubset.Binary64.Numeral
import CSubset.Token.Basic
import CSubset.Token.LexicalError

/-!
# Segments

A source text is cut into segments: single blanks, comments, single illegal characters,
and the lexemes of tokens. `Segment.first` cuts off the first one. A segment knows its
text and its faults, but not where it stands: a fault carries its offset from the
segment's first character. What a segment is therefore depends on the characters from
its start on and on nothing before it.

Lexemes are the longest that fit, with one exception: a run of digits before two points
stops before them. No lexeme reaches past the end of its line.
-/

namespace CSubset

/-- A lexical error inside a segment, `offset` characters from its start. -/
structure Fault where
  offset : Nat
  kind : LexicalError.Kind
deriving DecidableEq, Repr

/-- What a segment is. -/
inductive Segment.Content where
  | blank
  | lineComment
  | blockComment
  | illegal
  | lexeme (kind : Token.Kind)
deriving DecidableEq, Repr

/-- A piece of source text. -/
structure Segment where
  text : List Char
  content : Segment.Content
  faults : List Fault
deriving DecidableEq, Repr

-- ---------------------------------------------------------------------------
-- Escape sequences
-- ---------------------------------------------------------------------------

/-- What stands behind a backslash: the characters that belong to the escape sequence, the
character it means unless the line ends there, and whether the sequence is unknown. -/
structure EscapeSequence where
  text : List Char
  value : Option Char
  unknown : Option Char
deriving DecidableEq, Repr

namespace EscapeSequence

/-- The characters that a single letter behind a backslash stands for. -/
def named? : Char → Option Char
  | 'n' => some '\n'
  | 't' => some '\t'
  | 'r' => some '\r'
  | '0' => some '\x00'
  | '\\' => some '\\'
  | '\'' => some '\''
  | '"' => some '"'
  | _ => none

/-- A hexadecimal digit of either case. -/
def isHexDigit (c : Char) : Bool :=
  c.isDigit || ('a' ≤ c && c ≤ 'f') || ('A' ≤ c && c ≤ 'F')

/-- The value of a hexadecimal digit. -/
def hexDigitValue (c : Char) : Nat :=
  if c.isDigit then c.toNat - '0'.toNat
  else if 'a' ≤ c then c.toNat - 'a'.toNat + 10
  else c.toNat - 'A'.toNat + 10

/-- The number that hexadecimal digits stand for, most significant first. -/
def hexValue (digits : List Char) : Nat :=
  digits.foldl (fun n c => 16 * n + hexDigitValue c) 0

/-- The escape sequence at the start of the text behind a backslash. An `x` takes up to two
hexadecimal digits and is unknown without any; an unknown sequence stands for its letter. -/
def read : List Char → EscapeSequence
  | [] => ⟨[], none, none⟩
  | c :: rest =>
    if c = '\n' then ⟨[], none, none⟩
    else if c = 'x' then
      let digits := (rest.take 2).takeWhile isHexDigit
      if digits.isEmpty then ⟨[c], some c, some c⟩
      else ⟨c :: digits, some (Char.ofNat (hexValue digits)), none⟩
    else match named? c with
      | some value => ⟨[c], some value, none⟩
      | none => ⟨[c], some c, some c⟩

/-- The fault of an unknown sequence whose first character is at `offset`. -/
def faults (e : EscapeSequence) (offset : Nat) : List Fault :=
  e.unknown.toList.map fun c => ⟨offset, .invalidEscape c⟩

end EscapeSequence

-- ---------------------------------------------------------------------------
-- Literals
-- ---------------------------------------------------------------------------

/-- The part of a string literal behind its opening quote. -/
structure StringBody where
  text : List Char
  value : List Char
  faults : List Fault
  closed : Bool
deriving DecidableEq, Repr

/-- Reads a string literal from behind its opening quote, up to the closing quote or the end
of the line; `offset` is how far into the literal the reading stands. -/
def StringBody.read (offset : Nat) : List Char → StringBody
  | [] => ⟨[], [], [], false⟩
  | c :: rest =>
    if c = '\n' then ⟨[], [], [], false⟩
    else if c = '"' then ⟨[c], [], [], true⟩
    else if c = '\\' then
      let e := EscapeSequence.read rest
      let body := StringBody.read (offset + 1 + e.text.length) (rest.drop e.text.length)
      ⟨c :: e.text ++ body.text, e.value.toList ++ body.value,
        e.faults (offset + 1) ++ body.faults, body.closed⟩
    else
      let body := StringBody.read (offset + 1) rest
      ⟨c :: body.text, c :: body.value, body.faults, body.closed⟩
termination_by text => text.length
decreasing_by all_goals simp only [List.length_drop, List.length_cons]; omega

namespace Segment

/-- A segment that is the lexeme of a token. -/
def ofLexeme (text : List Char) (kind : Token.Kind) (faults : List Fault) : Segment :=
  ⟨text, .lexeme kind, faults⟩

/-- The string literal whose opening quote stands before `rest`. -/
def ofString (rest : List Char) : Segment :=
  let body := StringBody.read 1 rest
  ofLexeme ('"' :: body.text) (.stringLiteral (String.ofList body.value))
    (body.faults ++ if body.closed then [] else [⟨0, .unterminatedString⟩])

/-- Ends a character constant that has been read up to `rest`. Without a quote there, the
text up to the next quote of the line is skipped. -/
def closeChar (read : List Char) (value : Char) (faults : List Fault) (rest : List Char) :
    Segment :=
  if rest.head? = some '\'' then ofLexeme (read ++ ['\'']) (.charLiteral value) faults
  else
    let line := rest.takeWhile (· ≠ '\n')
    if '\'' ∈ line then
      ofLexeme (read ++ line.takeWhile (· ≠ '\'') ++ ['\'']) (.charLiteral value)
        (faults ++ [⟨0, .multiCharacterChar⟩])
    else ofLexeme read (.charLiteral value) (faults ++ [⟨0, .unterminatedChar⟩])

/-- The character constant whose opening quote stands before `rest`. A constant without a
character has the value NUL. -/
def ofChar : List Char → Segment
  | [] => ofLexeme ['\''] (.charLiteral '\x00') [⟨0, .unterminatedChar⟩]
  | c :: rest =>
    if c = '\n' then ofLexeme ['\''] (.charLiteral '\x00') [⟨0, .unterminatedChar⟩]
    else if c = '\'' then ofLexeme ['\'', '\''] (.charLiteral '\x00') [⟨0, .emptyChar⟩]
    else if c = '\\' then
      let e := EscapeSequence.read rest
      match e.value with
      | none => ofLexeme ['\'', '\\'] (.charLiteral '\x00') [⟨0, .unterminatedChar⟩]
      | some value =>
        closeChar ('\'' :: '\\' :: e.text) value (e.faults 2) (rest.drop e.text.length)
    else closeChar ['\'', c] c [] rest

/-- The largest integer literal. -/
def maxInt : Nat := 9223372036854775807

/-- An integer literal; one that is too large has the value zero. -/
def ofDigits (digits : List Char) : Segment :=
  let value := Binary64.digitsValue digits
  if value ≤ maxInt then ofLexeme digits (.intLiteral value) []
  else ofLexeme digits (.intLiteral 0) [⟨0, .invalidNumber (String.ofList digits)⟩]

/-- A float literal, given its digits before and behind the point. -/
def ofPointed (whole fraction : List Char) : Segment :=
  ofLexeme (whole ++ '.' :: fraction) (.floatLiteral (Binary64.ofPointed whole fraction)) []

/-- The number at the start of a text that begins with a digit. A point behind the digits
belongs to it unless another point follows. -/
def ofNumber (text : List Char) : Segment :=
  let digits := text.takeWhile Char.isDigit
  match text.dropWhile Char.isDigit with
  | '.' :: rest =>
    if rest.head? = some '.' then ofDigits digits
    else ofPointed digits (rest.takeWhile Char.isDigit)
  | _ => ofDigits digits

-- ---------------------------------------------------------------------------
-- Words, marks and comments
-- ---------------------------------------------------------------------------

/-- A character that can start an identifier. -/
def isWordStart (c : Char) : Bool := c.isAlpha || c = '_'

/-- A character that can continue an identifier. -/
def isWordRest (c : Char) : Bool := c.isAlphanum || c = '_'

/-- The keyword or identifier at the start of a text. -/
def ofWord (text : List Char) : Segment :=
  let word := text.takeWhile isWordRest
  let name := String.ofList word
  ofLexeme word (match Keyword.ofText? name with
    | some k => .keyword k
    | none => .identifier name) []

/-- The longest punctuator at the start of a text. -/
def punctuator? (text : List Char) : Option Punctuator :=
  Punctuator.all.find? fun p => p.text.toList.isPrefixOf text

/-- The blanks of the language. -/
def isBlank (c : Char) : Bool := c = ' ' || c = '\t' || c = '\r' || c = '\n'

/-- The part of a block comment behind its opening mark, and whether it is closed. -/
def commentBody : List Char → List Char × Bool
  | [] => ([], false)
  | c :: rest =>
    if c = '*' ∧ rest.head? = some '/' then (['*', '/'], true)
    else
      let (text, closed) := commentBody rest
      (c :: text, closed)

/-- The block comment whose opening mark stands before `rest`. -/
def ofComment (rest : List Char) : Segment :=
  let (text, closed) := commentBody rest
  ⟨'/' :: '*' :: text, .blockComment, if closed then [] else [⟨0, .unterminatedComment⟩]⟩

/-- The first segment of the text `c :: rest`. -/
def first (c : Char) (rest : List Char) : Segment :=
  if isBlank c then ⟨[c], .blank, []⟩
  else if c = '/' ∧ rest.head? = some '/' then
    ⟨c :: rest.takeWhile (· ≠ '\n'), .lineComment, []⟩
  else if c = '/' ∧ rest.head? = some '*' then ofComment (rest.drop 1)
  else if c = '"' then ofString rest
  else if c = '\'' then ofChar rest
  else if c.isDigit then ofNumber (c :: rest)
  else if isWordStart c then ofWord (c :: rest)
  else if c = '.' ∧ rest.head?.any Char.isDigit then ofPointed [] (rest.takeWhile Char.isDigit)
  else match punctuator? (c :: rest) with
    | some p => ofLexeme p.text.toList (.punctuator p) []
    | none => ⟨[c], .illegal, [⟨0, .illegalCharacter c⟩]⟩

-- ---------------------------------------------------------------------------
-- Placing a segment
-- ---------------------------------------------------------------------------

/-- The token of a segment that stands at `l`, if it is a lexeme. -/
def token? (s : Segment) (l : Location) : Option Token :=
  match s.content with
  | .lexeme kind => some ⟨kind, l⟩
  | _ => none

/-- The errors of a segment that stands at `l`. -/
def errors (s : Segment) (l : Location) : List LexicalError :=
  s.faults.map fun f => ⟨f.kind, l.after (s.text.take f.offset)⟩

end Segment

end CSubset
