-- SUMMARY: Cutting a whole source text into segments, at once and step by step.
import CSubset.Token.Segment

/-!
# Scanning

`scan` cuts a whole text into segments, places them one behind the other and collects
their tokens and errors. A `Scanner` does the same on demand: `Scanner.next` goes on to
the next token, and the errors it has met so far can be asked for at any time. What it
has not reached yet has left no trace.
-/

namespace CSubset

/-- The segments of a text, in order. -/
def segments : List Char → List Segment
  | [] => []
  | c :: rest =>
    let s := Segment.first c rest
    s :: segments (rest.drop (s.text.length - 1))
termination_by text => text.length
decreasing_by simp only [List.length_drop, List.length_cons]; omega

/-- The tokens and the errors of a text, both in the order in which they are found. -/
structure Scan where
  tokens : List Token
  errors : List LexicalError
deriving DecidableEq, Repr

/-- The tokens and errors of segments that stand one behind the other from `l` on. -/
def Scan.place (l : Location) : List Segment → Scan
  | [] => ⟨[], []⟩
  | s :: rest =>
    let behind := Scan.place (l.after s.text) rest
    ⟨(s.token? l).toList ++ behind.tokens, s.errors l ++ behind.errors⟩

/-- The tokens and errors of a source text. -/
def scan (source : String) : Scan := Scan.place .start (segments source.toList)

/-- A scan in progress: the text ahead, the position of its first character, and the errors
met so far. -/
structure Scanner where
  rest : List Char
  location : Location
  errors : List LexicalError
deriving DecidableEq, Repr

namespace Scanner

/-- A scan that has not begun. -/
def ofSource (source : String) : Scanner := ⟨source.toList, .start, []⟩

/-- Scans up to the end of the next lexeme; `none` at the end of the text. -/
def next : Scanner → Option Token × Scanner
  | ⟨[], l, errors⟩ => (none, ⟨[], l, errors⟩)
  | ⟨c :: rest, l, errors⟩ =>
    let s := Segment.first c rest
    let ahead : Scanner :=
      ⟨rest.drop (s.text.length - 1), l.after s.text, errors ++ s.errors l⟩
    match s.token? l with
    | some t => (some t, ahead)
    | none => ahead.next
termination_by s => s.rest.length
decreasing_by simp only [List.length_drop, List.length_cons]; omega

/-- Scans the rest of the text. -/
def drain (s : Scanner) : List Token × Scanner :=
  let ahead := Scan.place s.location (segments s.rest)
  (ahead.tokens, ⟨[], s.location.after s.rest, s.errors ++ ahead.errors⟩)

end Scanner

end CSubset
