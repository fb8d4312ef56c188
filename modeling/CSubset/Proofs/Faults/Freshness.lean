-- SUMMARY: Names that occur nowhere in a program stand for nothing in the scopes that checking it builds.
import CSubset.Proofs.Scoping.Scopes
import CSubset.Proofs.Syntax.Nodes

/-!
# Freshness

A name is fresh for a piece of a program if no node of the piece carries it. Scopes bind only
the names of declarations, so a fresh name is bound in no scope that is opened and filled while
the piece is checked, and looking it up finds nothing from any of them.
-/

namespace CSubset

/-! ## Names in a program -/

/-- The name that a node introduces or uses. -/
def Node.name? : Node → Option String
  | .function p _ => some p.name
  | .parameter p => some p.name
  | .var v => some v.name
  | .expr (.ident _ name) => some name
  | _ => none

/-- None of the nodes carries the name. -/
def Fresh (name : String) (nodes : List Node) : Prop := ∀ n ∈ nodes, n.name? ≠ some name

open Walk (everywhere)

variable {name : String}

@[simp] theorem fresh_append {xs ys : List Node} :
    Fresh name (xs ++ ys) ↔ Fresh name xs ∧ Fresh name ys := List.forall_mem_append

@[simp] theorem fresh_enter {n : Node} {below : List Node} :
    Fresh name (Walk.enter everywhere n below) ↔ n.name? ≠ some name ∧ Fresh name below :=
  List.forall_mem_cons

@[simp] theorem fresh_flatMap {α : Type} {walk : α → List Node} {xs : List α} :
    Fresh name (xs.flatMap walk) ↔ ∀ x ∈ xs, Fresh name (walk x) := List.forall_mem_flatMap

/-- A declaration whose nodes do not carry a name does not bind it. -/
theorem Fresh.symbol {d : Decl} (h : Fresh name (Walk.decl everywhere d)) :
    d.symbol.name ≠ name := by
  cases d with
  | function p =>
    simp only [Walk.decl, Walk.function, fresh_enter, Node.name?, ne_eq, Option.some.injEq] at h
    exact h.2.1
  | var v =>
    simp only [Walk.decl, Walk.var, fresh_enter, Node.name?, ne_eq, Option.some.injEq] at h
    exact h.2.1

theorem Fresh.parameter {q : Parameter} (h : Fresh name (Walk.parameter everywhere q)) :
    (Symbol.parameter q).name ≠ name := by
  simp only [Walk.parameter, fresh_enter, Node.name?, ne_eq, Option.some.injEq] at h
  exact h.1

/-- What is fresh for a function is neither its name nor that of a parameter. -/
theorem Fresh.function {q : Prototype} {body : Option Block} {below : List Node}
    (h : Fresh name (Walk.function everywhere q body below)) :
    q.name ≠ name ∧ (∀ x ∈ q.parameters, (Symbol.parameter x).name ≠ name) ∧
      Fresh name below := by
  simp only [Walk.function, fresh_enter, fresh_append, fresh_flatMap, Node.name?, ne_eq,
    Option.some.injEq] at h
  exact ⟨h.1, fun x hx => (h.2.1 x hx).parameter, h.2.2⟩

theorem Fresh.block {b : Block} (h : Fresh name (Walk.block everywhere b)) :
    (∀ d ∈ b.decls, d.symbol.name ≠ name) ∧ Fresh name (Walk.stmts everywhere b.stmts) := by
  obtain ⟨decls, stmts, l⟩ := b
  simp only [Walk.block, fresh_enter, fresh_append, fresh_flatMap] at h
  exact ⟨fun d hd => (h.2.1 d hd).symbol, h.2.2⟩

/-! ## Scopes without a name -/

namespace ScopeTree

variable {t : ScopeTree} {n : Nat}

/-- No scope binds the name. -/
def Lacks (t : ScopeTree) (name : String) : Prop := ∀ n, (t.scope n).find? name = none

theorem lacks_initial (name : String) : initial.Lacks name := by
  intro n
  cases n <;> rfl

/-- Looking up a name that no scope binds finds nothing, however far outward. -/
theorem Lacks.lookup (h : t.Lacks name) (n : Nat) : t.lookup n name = none := by
  induction n using Nat.strongRecOn with
  | ind n ih =>
    rw [ScopeTree.lookup, h n]
    cases (t.scope n).parent with
    | none => rfl
    | some p =>
      dsimp only
      split
      · next hp => exact ih p hp
      · rfl

theorem scope_of_le (hn : t.size ≤ n) : t.scope n = Scope.empty none := by
  unfold scope
  rw [List.getElem?_eq_none hn]
  rfl

theorem Lacks.push (h : t.Lacks name) (p : Nat) : (t.push p).Lacks name := by
  intro n
  obtain hn | rfl | hn := Nat.lt_trichotomy n t.size
  · rw [Scope.find?, (scope_push_of_lt p hn).1]
    exact h n
  · rw [scope_push_size]
    rfl
  · rw [scope_of_le (by rw [size_push]; exact hn)]
    rfl

/-- A declaration in a scope that does not exist leaves all scopes as they are. -/
theorem scope_declare_of_le (t : ScopeTree) (x : Symbol) (hn : t.size ≤ n) (m : Nat) :
    (t.declare n x).scopes.scope m = t.scope m := by
  unfold declare add
  cases (t.scope n).bind x with
  | error held => rfl
  | ok s =>
    dsimp only [Except.map, scope]
    rw [List.set_eq_of_length_le hn]

/-- Declaring other names does not bind the name. -/
theorem Lacks.declare (h : t.Lacks name) (n : Nat) {x : Symbol} (hx : x.name ≠ name) :
    (t.declare n x).scopes.Lacks name := by
  intro m
  obtain hn | hn := Nat.lt_or_ge n t.size
  · rw [scope_declare t x hn]
    split
    · rw [Scope.bound_find?, if_neg hx]
      exact h n
    · exact h m
  · rw [scope_declare_of_le t x hn]
    exact h m

end ScopeTree

end CSubset
