-- SUMMARY: The printable-ASCII spelling of characters inside literals and messages.

/-!
# Escaped text

Characters inside displayed literals and inside messages are spelled in printable
ASCII: the three blank characters of the language that have a letter, both quotes and
the backslash take a backslash, the rest of printable ASCII stands for itself, and any
other character is written by its number. What is written is printable ASCII throughout.
-/

namespace CSubset.Text

/-- The characters `0x20` to `0x7e`, which need no spelling by number. -/
def isPlainAscii (c : Char) : Bool := 0x20 ≤ c.toNat && c.toNat ≤ 0x7e

/-- A character written by its number in lower-case hexadecimal without padding. -/
def spellNumber (c : Char) : List Char :=
  ['\\', 'u', '\x7b'] ++ Nat.toDigits 16 c.toNat ++ ['\x7d']

/-- The spelling of one character; both quotes are escaped wherever they stand. -/
def escapeChar (c : Char) : List Char :=
  if c = '\t' then ['\\', 't']
  else if c = '\r' then ['\\', 'r']
  else if c = '\n' then ['\\', 'n']
  else if c = '\'' ∨ c = '"' ∨ c = '\\' then ['\\', c]
  else if isPlainAscii c then [c]
  else spellNumber c

/-- The spelling of a text, character by character. -/
def escape (s : String) : String := String.ofList (s.toList.flatMap escapeChar)

end CSubset.Text
