-- SUMMARY: What a check brings to light, in the order in which it does.
import CSubset.Check.Diagnostic
import CSubset.Check.Symbol

/-!
# Findings

Checking a piece of a program yields findings: the events of the walk, with the
diagnostics among them; the types of expression nodes; and the symbols that identifier
nodes stand for. Findings of pieces that are checked one behind the other are appended.
-/

namespace CSubset

/-- What happens during a check. -/
inductive Event where
  | diagnostic (d : Diagnostic)
  | enterScope (scope parent : Nat)
  | leaveScope (scope : Nat)
  | leaveFunction (name : String)
deriving DecidableEq, Repr

/-- The events of a check, and the types and symbols of expression nodes by their numbers. -/
structure Findings where
  events : List Event
  types : List (Nat × ValueType)
  symbols : List (Nat × Symbol)
deriving DecidableEq, Repr

namespace Findings

/-- Nothing found. -/
def none : Findings := ⟨[], [], []⟩

/-- Findings one behind the other. -/
def append (f g : Findings) : Findings :=
  ⟨f.events ++ g.events, f.types ++ g.types, f.symbols ++ g.symbols⟩

instance : Append Findings := ⟨append⟩

/-- Events alone. -/
def ofEvents (events : List Event) : Findings := ⟨events, [], []⟩

/-- Diagnostics alone. -/
def ofDiagnostics (ds : List Diagnostic) : Findings := ofEvents (ds.map Event.diagnostic)

/-- The type of a node. -/
def ofType (id : Nat) (t : ValueType) : Findings := ⟨[], [(id, t)], []⟩

/-- The symbol of a node. -/
def ofSymbol (id : Nat) (s : Symbol) : Findings := ⟨[], [], [(id, s)]⟩

/-- The diagnostics among the events, in order. -/
def diagnostics (f : Findings) : List Diagnostic :=
  f.events.filterMap fun
    | .diagnostic d => some d
    | _ => Option.none

theorem append_def (f g : Findings) :
    f ++ g = ⟨f.events ++ g.events, f.types ++ g.types, f.symbols ++ g.symbols⟩ := rfl

@[simp] theorem events_append (f g : Findings) : (f ++ g).events = f.events ++ g.events := rfl

@[simp] theorem types_append (f g : Findings) : (f ++ g).types = f.types ++ g.types := rfl

@[simp] theorem symbols_append (f g : Findings) : (f ++ g).symbols = f.symbols ++ g.symbols := rfl

theorem append_assoc (f g h : Findings) : f ++ g ++ h = f ++ (g ++ h) := by
  simp [append_def, List.append_assoc]

@[simp] theorem none_append (f : Findings) : none ++ f = f := rfl

@[simp] theorem append_none (f : Findings) : f ++ none = f := by
  simp [append_def, none]

@[simp] theorem diagnostics_append (f g : Findings) :
    (f ++ g).diagnostics = f.diagnostics ++ g.diagnostics := by
  simp [diagnostics]

end Findings

end CSubset
