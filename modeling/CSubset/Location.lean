-- SUMMARY: Positions in a source text, counted in lines and columns from 1.

/-!
# Locations

A position in a source text. Columns count characters, and only a newline starts
a new line. `Location.after` gives the position reached behind a stretch of text;
it composes over concatenation (`after_append`), which is what lets the scanner
describe each piece of the text without knowing where the piece stands.
-/

namespace CSubset

/-- A line and a column, both counted from 1. -/
structure Location where
  line : Nat
  column : Nat
deriving DecidableEq, Repr, Inhabited

namespace Location

/-- The position of the first character of a text. -/
def start : Location := ⟨1, 1⟩

/-- The position behind one character that stands at `l`. -/
def next (l : Location) (c : Char) : Location :=
  if c = '\n' then ⟨l.line + 1, 1⟩ else ⟨l.line, l.column + 1⟩

/-- The position behind a stretch of text that starts at `l`. -/
def after (l : Location) (text : List Char) : Location := text.foldl next l

@[simp] theorem after_nil (l : Location) : l.after [] = l := rfl

@[simp] theorem after_cons (l : Location) (c : Char) (text : List Char) :
    l.after (c :: text) = (l.next c).after text := rfl

theorem after_append (l : Location) (a b : List Char) :
    l.after (a ++ b) = (l.after a).after b := List.foldl_append

/-- The written form `line:column`. -/
def render (l : Location) : String := s!"{l.line}:{l.column}"

end Location

end CSubset
