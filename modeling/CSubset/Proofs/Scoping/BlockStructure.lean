-- SUMMARY: The scopes of a report are the blocks of the program: as many, numbered and nested like them, with their names.
import Mathlib.Tactic
import CSubset.Proofs.Parse.Exactness
import CSubset.Proofs.Scoping.BlockNodes
import CSubset.Proofs.Scoping.Growth
import CSubset.Token.Scan

/-!
# Scopes are blocks

A scope is recognized as a block by its number: scope `k` is the block at place `k` of the
preorder. `Mirrors` says that a tree of scopes and a nest of blocks agree in this way, and
`check_scopes_mirror` that the scopes which the checker opens mirror the block structure of the
unit, so that a scope tree shows nothing of a program but what the text says.
-/

namespace CSubset

open Nest

/-- The scopes are the file and the blocks inside it, by their places in the preorder. -/
structure ScopeTree.Mirrors (t : ScopeTree) (file : Nest) : Prop where
  size : t.size = file.preorder.length
  root : (t.scope ScopeTree.root).parent = none
  enclosed : ∀ k, 0 < k → k < t.size → ∃ p < k, (t.scope k).parent = some p
  inverse : ∀ k c, c < t.size → (c ∈ (t.scope k).children ↔ (t.scope c).parent = some k)
  ordered : ∀ k, (t.scope k).children.Pairwise (· < ·)
  children : ∀ k b, file.preorder[k]? = some b →
    (t.scope k).children.map (file.preorder[·]?) = b.inner.map some
  once : ∀ k, ((t.scope k).symbols.map Symbol.name).Nodup
  names : ∀ k b, file.preorder[k]? = some b → ∀ name,
    name ∈ (t.scope k).symbols.map Symbol.name ↔ name ∈ b.declared.map Symbol.name

theorem Nest.Placed.scope_parent (x : Placed) : x.scope.parent = x.parent :=
  Scope.grow_parent _ _ _

theorem Nest.Placed.scope_children (x : Placed) :
    x.scope.children = starts (x.number + 1) x.nest.inner := rfl

namespace ScopeTree

variable {t : ScopeTree} {file : Nest} {k : Nat} {x : Placed}

/-! ## Scopes of numbered blocks -/

theorem scope_of_places (h : t.scopes = (file.places none 0).map Placed.scope)
    (hx : x ∈ file.places none 0) : t.scope x.number = x.scope := by
  rw [scope, h, List.getElem?_map, getElem?_of_mem hx]
  rfl

theorem scope_eq_empty (hk : ¬ k < t.size) : t.scope k = Scope.empty none := by
  rw [scope, List.getElem?_eq_none (Nat.le_of_not_lt hk)]
  rfl

theorem exists_place (h : t.scopes = (file.places none 0).map Placed.scope)
    (hk : k < t.size) : ∃ x ∈ file.places none 0, x.number = k := by
  have hlength : k < (file.places none 0).length := by
    rwa [size, h, List.length_map] at hk
  have hx := List.getElem?_eq_getElem hlength
  exact ⟨_, List.mem_of_getElem? hx, (number_of_getElem? hx).trans (Nat.zero_add k)⟩

theorem exists_place_of_preorder {b : Nest} (hb : file.preorder[k]? = some b) :
    ∃ x ∈ file.places none 0, x.number = k ∧ x.nest = b := by
  rw [← places_nest none 0 file, List.getElem?_map] at hb
  obtain ⟨x, hx, rfl⟩ := Option.map_eq_some_iff.mp hb
  exact ⟨x, List.mem_of_getElem? hx, (number_of_getElem? hx).trans (Nat.zero_add k), rfl⟩

theorem exists_inner {bs : List Nest} {n i c : Nat} (hc : (starts n bs)[i]? = some c) :
    ∃ b, bs[i]? = some b := by
  have hi : i < (starts n bs).length := (List.getElem?_eq_some_iff.mp hc).1
  rw [length_starts] at hi
  exact ⟨_, List.getElem?_eq_getElem hi⟩

/-- Every block but the file is directly inside another. -/
theorem place_inside (hx : x ∈ file.places none 0) (hk : 0 < x.number) :
    x.Inside (file.places none 0) := by
  rcases places_origin hx with ⟨-, hnumber⟩ | hinside
  · exact absurd hnumber (Nat.ne_of_gt hk)
  · exact hinside

/-- The blocks directly inside a numbered block are numbered by its `starts`. -/
theorem place_of_start {i c : Nat} {b : Nest} (hx : x ∈ file.places none 0)
    (hc : (starts (x.number + 1) x.nest.inner)[i]? = some c) (hb : x.nest.inner[i]? = some b) :
    ⟨some x.number, c, b⟩ ∈ file.places none 0 :=
  mem_places_inner hx (mem_placesAll_starts hc hb)

/-- Children of a scope have it as their parent. -/
theorem parent_of_child (h : t.scopes = (file.places none 0).map Placed.scope) {c : Nat}
    (hc : c ∈ (t.scope k).children) : (t.scope c).parent = some k := by
  have hk : k < t.size := by
    by_contra hk
    rw [scope_eq_empty hk] at hc
    cases hc
  obtain ⟨x, hx, rfl⟩ := exists_place h hk
  rw [scope_of_places h hx, Placed.scope_children] at hc
  obtain ⟨i, hi⟩ := List.mem_iff_getElem?.mp hc
  obtain ⟨b, hb⟩ := exists_inner hi
  rw [scope_of_places h (place_of_start hx hi hb), Placed.scope_parent]

/-- A scope is among the children of its parent. -/
theorem child_of_parent (h : t.scopes = (file.places none 0).map Placed.scope) {c : Nat}
    (hc : c < t.size) (hparent : (t.scope c).parent = some k) : c ∈ (t.scope k).children := by
  obtain ⟨x, hx, rfl⟩ := exists_place h hc
  rw [scope_of_places h hx, Placed.scope_parent] at hparent
  rcases places_origin hx with ⟨hnone, -⟩ | ⟨y, hy, hsome, hmem⟩
  · rw [hnone] at hparent
    cases hparent
  · obtain rfl : y.number = k := Option.some.inj (hsome.symm.trans hparent)
    rwa [scope_of_places h hy, Placed.scope_children]

theorem mirrors_of_places (h : t.scopes = (file.places none 0).map Placed.scope) :
    t.Mirrors file where
  size := by
    have hnests := congrArg List.length (places_nest none 0 file)
    rw [List.length_map] at hnests
    rw [size, h, List.length_map, hnests]
  root := by
    have hfile : ⟨none, 0, file⟩ ∈ file.places none 0 := by
      rw [places_eq]
      exact List.mem_cons_self
    exact (congrArg Scope.parent (scope_of_places h hfile)).trans (Placed.scope_parent _)
  enclosed k hpos hk := by
    obtain ⟨x, hx, rfl⟩ := exists_place h hk
    obtain ⟨y, -, hparent, hmem⟩ := place_inside hx hpos
    refine ⟨y.number, le_of_mem_starts hmem, ?_⟩
    rw [scope_of_places h hx, Placed.scope_parent, hparent]
  inverse k c hc := ⟨parent_of_child h, child_of_parent h hc⟩
  ordered k := by
    by_cases hk : k < t.size
    · obtain ⟨x, hx, rfl⟩ := exists_place h hk
      rw [scope_of_places h hx, Placed.scope_children]
      exact starts_pairwise _ _
    · rw [scope_eq_empty hk]
      exact .nil
  children k b hb := by
    obtain ⟨x, hx, rfl, rfl⟩ := exists_place_of_preorder hb
    rw [scope_of_places h hx, Placed.scope_children]
    refine List.ext_getElem? fun i => ?_
    rw [List.getElem?_map, List.getElem?_map]
    rcases hi : (starts (x.number + 1) x.nest.inner)[i]? with _ | c
    · rw [List.getElem?_eq_none_iff, length_starts, ← List.getElem?_eq_none_iff] at hi
      rw [hi]
      rfl
    · obtain ⟨d, hd⟩ := exists_inner hi
      rw [hd]
      exact congrArg some (nest_of_getElem? (getElem?_of_mem (place_of_start hx hi hd)))
  once k := by
    by_cases hk : k < t.size
    · obtain ⟨x, hx, rfl⟩ := exists_place h hk
      rw [scope_of_places h hx]
      exact Scope.grow_names_nodup (s := Scope.empty x.parent) List.nodup_nil _ _
    · rw [scope_eq_empty hk]
      exact List.nodup_nil
  names k b hb name := by
    obtain ⟨x, hx, rfl, rfl⟩ := exists_place_of_preorder hb
    rw [scope_of_places h hx]
    exact Scope.mem_grow_names.trans (or_iff_right (List.not_mem_nil))

end ScopeTree

/-- The scopes of a parsed unit mirror its block structure. There is one for the file, one for each
function definition and one for each block below a statement; but for the file they are the blocks
that a walk meets, in this order, which is that of their opening braces; and a block is directly
inside another if no third one is between them. -/
theorem check_scopes_mirror {ts : List Token} {u : CompilationUnit}
    (h : CompilationUnit.ofTokens? ts = .ok u) (returnTypes : Bool) :
    (u.check returnTypes).scopes.Mirrors u.nest ∧
      (u.check returnTypes).scopes.size = 1 + (u.decls.filter External.isDefinition).length +
        (((Node.unit u).walk fun _ => true).flatMap Node.compounds).length ∧
      u.nest.preorder.map Nest.node =
        .unit u :: ((Node.unit u).walk fun _ => true).filter Node.isBlock ∧
      ((u.nest.preorder.map Nest.node).filterMap Node.opening?).Sublist (ts.map Token.location) ∧
      ∀ b ∈ u.nest.preorder, b.inner.map Nest.node = b.node.nested := by
  have hmirrors := ScopeTree.mirrors_of_places (u.check_scopes returnTypes)
  exact ⟨hmirrors, hmirrors.size.trans u.length_nest, u.nest_blocks,
    (Parse.translationUnit_of_ofTokens? h).opens, u.inner_nested⟩

/-- The unit that `int f(int a) { { int a; } }` is read as. -/
def shadowedParameterUnit : CompilationUnit :=
  ⟨[.definition ⟨⟨.int, false, 0, []⟩, "f", [⟨⟨.int, false, 0, []⟩, "a", ⟨1, 11⟩⟩], false, .none,
      ⟨1, 5⟩⟩
    (.mk [] [.block (.mk [.var ⟨⟨.int, false, 0, []⟩, "a", none, .none, ⟨1, 22⟩⟩] [] ⟨1, 16⟩)]
      ⟨1, 14⟩)]⟩

theorem check_scopes_mirror_shadowed :
    CompilationUnit.ofTokens? (scan "int f(int a) \x7b \x7b int a; \x7d \x7d").tokens =
        .ok shadowedParameterUnit ∧
      (shadowedParameterUnit.check true).scopes.size = 3 ∧
      ∀ name, name ∈ ((shadowedParameterUnit.check true).scopes.scope 2).symbols.map Symbol.name ↔
        name ∈ ["a"] := by
  have hscan : scan "int f(int a) \x7b \x7b int a; \x7d \x7d" =
      ⟨[.ofWord .intKw ⟨1, 1⟩, ⟨.identifier "f", ⟨1, 5⟩⟩, .ofMark .leftParen ⟨1, 6⟩,
        .ofWord .intKw ⟨1, 7⟩, ⟨.identifier "a", ⟨1, 11⟩⟩, .ofMark .rightParen ⟨1, 12⟩,
        .ofMark .leftBrace ⟨1, 14⟩, .ofMark .leftBrace ⟨1, 16⟩, .ofWord .intKw ⟨1, 18⟩,
        ⟨.identifier "a", ⟨1, 22⟩⟩, .ofMark .semicolon ⟨1, 23⟩, .ofMark .rightBrace ⟨1, 25⟩,
        .ofMark .rightBrace ⟨1, 27⟩], []⟩ := by decide +kernel
  have hread : CompilationUnit.ofTokens?
      (scan "int f(int a) \x7b \x7b int a; \x7d \x7d").tokens =
        .ok shadowedParameterUnit := by
    rw [hscan]
    cbv
  obtain ⟨hmirrors, hsize, -⟩ := check_scopes_mirror hread true
  exact ⟨hread, hsize, hmirrors.names 2 _ rfl⟩

end CSubset
