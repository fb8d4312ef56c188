-- SUMMARY: The record of a compilation and check, line by line.
import CSubset.Check.Unit
import CSubset.Compile

/-!
# Journals

A journal records what happens while a source text is compiled and checked: lexical
errors as they are found, declarations as they are parsed, and the events of the check
with a summary at its end. The scan is complete before parsing starts, and there is no
check of a text that is no unit.
-/

namespace CSubset

/-- How much a record matters. -/
inductive Level where
  | info | debug | trace
deriving DecidableEq, Repr

/-- What a record comes from. -/
inductive Origin where
  | scan | parse | walk | check
deriving DecidableEq, Repr

/-- A line of a journal. -/
structure Record where
  level : Level
  origin : Origin
  message : String
deriving DecidableEq, Repr

/-- The name of a scope in journals. -/
def scopeLabel (n : Nat) : String := s!"ScopeId({n})"

/-- The record of an event of a check. -/
def Event.record : Event → Record
  | diagnostic d => ⟨.debug, .walk, "diagnostic: " ++ d.message⟩
  | enterScope n parent =>
    ⟨.trace, .walk, s!"enter scope {scopeLabel n} (parent {scopeLabel parent})"⟩
  | leaveScope n => ⟨.trace, .walk, s!"leave scope {scopeLabel n}"⟩
  | leaveFunction name => ⟨.trace, .walk, s!"leave function '{name}'"⟩

/-- The record of a parsed declaration. -/
def External.record (d : External) : Record :=
  ⟨.debug, .parse, s!"parsed top-level declaration '{d.name}' at line {d.location.line}"⟩

/-- The record of a lexical error. -/
def LexicalError.record (e : LexicalError) : Record := ⟨.debug, .scan, e.message⟩

/-- The records of checking a unit. -/
def Report.records (r : Report) (u : CompilationUnit) : List Record :=
  r.findings.events.map Event.record ++
    [⟨.info, .check, s!"checked {u.decls.length} declarations: " ++
      s!"{r.diagnostics.length} diagnostics, {r.scopes.size} scopes, ok = {r.ok}"⟩]

/-- The journal of compiling and checking a source text. -/
def journal (source : String) : List Record :=
  let s := scan source
  let reading := Reading.from (.ofTokens s.tokens)
  s.errors.map LexicalError.record ++ reading.decls.map External.record ++
    match reading.failure with
    | some _ => []
    | none =>
      let u : CompilationUnit := ⟨reading.decls⟩
      (u.check true).records u

end CSubset
