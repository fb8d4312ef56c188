-- SUMMARY: From source text to a compilation unit.
import CSubset.Parse.Unit
import CSubset.Token.Scan

/-!
# Compiling

Compiling scans a text and parses its tokens. The lexical errors of the whole text are
part of the answer, whether the tokens form a unit or not.
-/

namespace CSubset

/-- A compilation unit, and the lexical errors met on the way to it. -/
structure Compilation where
  unit : CompilationUnit
  lexicalErrors : List LexicalError
deriving Repr

/-- The syntax error that stopped a compilation, and the lexical errors of the text. -/
structure CompileError where
  syntaxError : SyntaxError
  lexicalErrors : List LexicalError
deriving DecidableEq, Repr

/-- The error as output: a line for each lexical error, and the syntax error. -/
def CompileError.text (e : CompileError) : String :=
  String.join (e.lexicalErrors.map fun l => l.message ++ "\n") ++ e.syntaxError.text

/-- The compilation unit of a source text. -/
def compile (source : String) : Except CompileError Compilation :=
  let s := scan source
  match CompilationUnit.ofTokens? s.tokens with
  | .ok u => .ok ⟨u, s.errors⟩
  | .error e => .error ⟨e, s.errors⟩

/-- What is compiled is what the tokens of the text are read as. -/
theorem ofTokens?_of_compile {source : String} {c : Compilation} (h : compile source = .ok c) :
    CompilationUnit.ofTokens? (scan source).tokens = .ok c.unit := by
  simp only [compile] at h
  split at h
  · next u hu =>
    cases h
    exact hu
  · cases h

end CSubset
