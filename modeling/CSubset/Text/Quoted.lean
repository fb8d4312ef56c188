-- SUMMARY: Quoted characters and texts as a token listing shows them.
import CSubset.Text.Escape
import CSubset.Text.Printable

/-!
# Quoted text

A token listing shows literals between quotes in a form for human readers: printable
Unicode stands for itself, and of the two quotes only the one in use is escaped.
-/

namespace CSubset.Text

/-- The spelling of one character between two of the quote `q`. -/
def quoteChar (q c : Char) : List Char :=
  if c = '\x00' then ['\\', '0']
  else if c = '\t' then ['\\', 't']
  else if c = '\r' then ['\\', 'r']
  else if c = '\n' then ['\\', 'n']
  else if c = '\\' ∨ c = q then ['\\', c]
  else if isPrintable c then [c]
  else spellNumber c

/-- A text between two of the quote `q`. -/
def quote (q : Char) (text : List Char) : String :=
  String.ofList ([q] ++ text.flatMap (quoteChar q) ++ [q])

end CSubset.Text
