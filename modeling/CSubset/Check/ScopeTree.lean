-- SUMMARY: Nested scopes and the names bound in them.
import CSubset.Check.Symbol

/-!
# Scope trees

Scopes are numbered in the order in which they are opened, and the file is scope 0.
Each scope knows the scope around it, which has a smaller number, and the scopes inside
it. A name is looked up from the inside out.

A scope binds each name once. Declaring a bound name again is accepted when the two
declarations agree and one of them is a forward declaration; a definition then takes
the place of a forward declaration.
-/

namespace CSubset

/-- One scope: its symbols in the order in which their names were first bound, the scope
around it and the scopes inside it. -/
structure Scope where
  symbols : List Symbol
  parent : Option Nat
  children : List Nat
deriving DecidableEq, Repr

namespace Scope

/-- A scope without names, inside `parent`. -/
def empty (parent : Option Nat) : Scope := ⟨[], parent, []⟩

/-- The symbol that a name is bound to in this very scope. -/
def find? (s : Scope) (name : String) : Option Symbol := s.symbols.find? fun x => x.name = name

/-- Puts a symbol in the place of the one of its name. -/
def replace (s : Scope) (x : Symbol) : Scope :=
  { s with symbols := s.symbols.map fun y => if y.name = x.name then x else y }

/-- Binds a symbol's name; a conflict is answered with the symbol already there. -/
def bind (s : Scope) (x : Symbol) : Except Symbol Scope :=
  match s.find? x.name with
  | none => .ok { s with symbols := s.symbols ++ [x] }
  | some held =>
    if !held.agrees x then .error held
    else if x.isForward then .ok s
    else if held.isForward then .ok (s.replace x)
    else .error held

end Scope

/-- All scopes of a file, by number. -/
structure ScopeTree where
  scopes : List Scope
deriving DecidableEq, Repr

namespace ScopeTree

/-- The number of the scope of the file. -/
def root : Nat := 0

/-- A file in which nothing is declared yet. -/
def initial : ScopeTree := ⟨[Scope.empty none]⟩

/-- How many scopes there are. -/
def size (t : ScopeTree) : Nat := t.scopes.length

/-- The scope with a given number. -/
def scope (t : ScopeTree) (n : Nat) : Scope := t.scopes[n]?.getD (Scope.empty none)

/-- Opens a scope inside `parent`; it gets the next number, `t.size`. -/
def push (t : ScopeTree) (parent : Nat) : ScopeTree :=
  ⟨(t.scopes.modify parent fun s => { s with children := s.children ++ [t.size] }) ++
    [Scope.empty (some parent)]⟩

/-- Binds a symbol's name in a scope; a conflict is answered with the symbol already there. -/
def add (t : ScopeTree) (n : Nat) (x : Symbol) : Except Symbol ScopeTree :=
  ((t.scope n).bind x).map fun s => ⟨t.scopes.set n s⟩

/-- The symbol of a name seen from a scope: the binding of the nearest scope outward that has
one. -/
def lookup (t : ScopeTree) (n : Nat) (name : String) : Option Symbol :=
  match (t.scope n).find? name with
  | some x => some x
  | none =>
    match (t.scope n).parent with
    | some p => if p < n then t.lookup p name else none
    | none => none
termination_by n

end ScopeTree

end CSubset
