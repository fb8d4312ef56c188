-- SUMMARY: A walk through a compiled unit meets every node once, and its literals and names in the order of the source.
import CSubset.Compile
import CSubset.Proofs.Grammar.Roles
import CSubset.Proofs.Parse.Exactness
import CSubset.Proofs.Syntax.Addresses
import CSubset.Proofs.Token.Partition
import Mathlib.Tactic

/-!
# Walks in the order of the source

What a walk meets and in which order is a matter of the tree alone, and `map_some_walk` tells it by
addresses. How the tree lies in the source is a matter of the parser: by the roles of tokens the
walk meets the literals and identifiers of the source from left to right, and leaves none out.
-/

namespace CSubset

open Grammar

/-! ## Tokens by role -/

namespace Token

theorem roles_sublist (s : Standing) (ts : List Token) :
    ((roles s ts).map fun x => x.2.1).Sublist ts := by
  induction ts generalizing s with
  | nil => exact .refl []
  | cons t rest ih =>
    rw [roles]
    cases s.role? t.kind with
    | none => exact (ih _).cons t
    | some r => exact (ih _).cons_cons t

/-- The tokens with a given role are among all tokens, in their order. -/
theorem playing_sublist (role : Role) (ts : List Token) :
    ((playing role ts).map Prod.fst).Sublist ts := by
  refine List.Sublist.trans ?_ (roles_sublist .elsewhere ts)
  rw [playing, List.map_filterMap, ← List.filterMap_eq_map]
  refine filterMap_sublist (fun x t hx => ?_) _
  split at hx
  · exact hx
  · cases hx

end Token

namespace Demand

/-- The node that is needed itself. -/
def leaf? : Demand → Option Node
  | leaf n => some n
  | _ => none

/-- The node whose declared name is needed. -/
def name? : Demand → Option Node
  | name n => some n
  | _ => none

/-- The size that is needed. -/
def size? : Demand → Option Nat
  | size n => some n
  | _ => none

/-- What is needed in a role are the tokens that play it. -/
theorem forall₂_playing {α : Type} {us : List Demand} {ts : List Token} {role : Role}
    {pick : Demand → Option α} {R : α → Token × List Token → Prop}
    (h : List.Forall₂ At us (Token.roles .elsewhere ts))
    (hpick : ∀ u x, At u x → Option.Rel R (pick u) (if x.1 = role then some x.2 else none)) :
    List.Forall₂ R (us.filterMap pick) (Token.playing role ts) :=
  List.rel_filterMap (fun _ _ hu => hpick _ _ hu) h

end Demand

namespace Node

theorem flatMap_if (p : Node → Bool) (ns : List Node) :
    (ns.flatMap fun n => if p n then [n] else []) = ns.filter p := by
  induction ns with
  | nil => rfl
  | cons n rest ih =>
    rw [List.flatMap_cons, ih]
    cases h : p n <;> simp [h]

theorem filterMap_sizes {α : Type} {pick : Demand → Option α} (hpick : ∀ k, pick (.size k) = none)
    (ks : List Nat) : (ks.map Demand.size).filterMap pick = [] := by
  rw [List.filterMap_map]
  exact List.filterMap_eq_nil_iff.mpr fun k _ => hpick k

theorem demands_leaves (n : Node) :
    n.demands.filterMap Demand.leaf? = (n.walk Walk.everywhere).filter isLeaf := by
  rw [demands, List.filterMap_flatMap, ← flatMap_if]
  refine List.flatMap_congr fun m _ => ?_
  rw [ownDemands, List.filterMap_append, List.filterMap_append, filterMap_sizes fun _ => rfl]
  cases m.isLeaf <;> cases m.declares <;> rfl

theorem demands_names (n : Node) :
    n.demands.filterMap Demand.name? = (n.walk Walk.everywhere).filter declares := by
  rw [demands, List.filterMap_flatMap, ← flatMap_if]
  refine List.flatMap_congr fun m _ => ?_
  rw [ownDemands, List.filterMap_append, List.filterMap_append, filterMap_sizes fun _ => rfl]
  cases m.isLeaf <;> cases m.declares <;> rfl

theorem demands_sizes (n : Node) :
    n.demands.filterMap Demand.size? = (n.walk Walk.everywhere).flatMap sizes := by
  rw [demands, List.filterMap_flatMap]
  refine List.flatMap_congr fun m _ => ?_
  have hsizes : (m.sizes.map Demand.size).filterMap Demand.size? = m.sizes := by
    rw [List.filterMap_map]
    exact List.filterMap_some
  rw [ownDemands, List.filterMap_append, List.filterMap_append, hsizes]
  cases m.isLeaf <;> cases m.declares <;> rfl

/-! ## Walks -/

theorem reaches_everywhere (n : Node) (a : List Nat) : n.reaches Walk.everywhere a = true := by
  refine List.all_eq_true.mpr fun b _ => ?_
  cases n.at? b <;> rfl

/-- A walk that leaves nothing out meets what is at all addresses. -/
theorem map_some_walk_everywhere (n : Node) :
    (n.walk Walk.everywhere).map some = n.addresses.map n.at? := by
  rw [map_some_walk, List.filter_eq_self.mpr fun a _ => n.reaches_everywhere a]

end Node

/-- Nodes are at the positions of their tokens. -/
theorem Node.locations_of_standsAt {ns : List Node} {xs : List (Token × List Token)}
    (h : List.Forall₂ (fun n x => n.StandsAt x.1 x.2) ns xs) :
    ns.filterMap Node.location? = (xs.map Prod.fst).map Token.location := by
  induction h with
  | nil => rfl
  | cons hn _ ih =>
    rw [List.filterMap_cons_some hn.location?, ih]
    rfl

/-- A walk through a compiled unit meets every node once, each in front of those below it, since
addresses increase. A walk that does not descend everywhere meets the same nodes less those below
one that it does not descend into. The literals and identifiers that it meets are at increasing
positions, and they are those of the source, strings with all their parts, apart from declared names
and sizes of arrays; these belong to the declarations that it meets. -/
theorem walk_in_source_order {source : String} {c : Compilation} (h : compile source = .ok c) :
    let root := Node.unit c.unit
    let full := root.walk Walk.everywhere
    let tokens := (scan source).tokens
    root.addresses.Pairwise (· < ·) ∧
      (∀ a, a ∈ root.addresses ↔ (root.at? a).isSome) ∧
      full.map some = root.addresses.map root.at? ∧
      (∀ descend, (root.walk descend).map some =
        (root.addresses.filter (root.reaches descend)).map root.at?) ∧
      ((full.filter Node.isLeaf).filterMap Node.location?).Pairwise Location.Before ∧
      List.Forall₂ (fun n x => n.StandsAt x.1 x.2) (full.filter Node.isLeaf)
        (Token.playing .leaf tokens) ∧
      List.Forall₂ (fun n x => n.StandsAt x.1 x.2) (full.filter Node.declares)
        (Token.playing .name tokens) ∧
      List.Forall₂ (fun k x => x.1.kind = .intLiteral k) (full.flatMap Node.sizes)
        (Token.playing .size tokens) := by
  intro root full tokens
  have hdemands : List.Forall₂ Demand.At root.demands (Token.roles .elsewhere tokens) :=
    (Parse.translationUnit_of_ofTokens? (ofTokens?_of_compile h)).reads
  have hleaves : List.Forall₂ (fun n x => n.StandsAt x.1 x.2) (full.filter Node.isLeaf)
      (Token.playing .leaf tokens) := by
    rw [← root.demands_leaves]
    refine Demand.forall₂_playing hdemands fun u x hu => ?_
    cases hu with
    | leaf h => exact .some h
    | _ => exact .none
  have hnames : List.Forall₂ (fun n x => n.StandsAt x.1 x.2) (full.filter Node.declares)
      (Token.playing .name tokens) := by
    rw [← root.demands_names]
    refine Demand.forall₂_playing hdemands fun u x hu => ?_
    cases hu with
    | name h => exact .some h
    | _ => exact .none
  have hsizes : List.Forall₂ (fun k x => x.1.kind = .intLiteral k) (full.flatMap Node.sizes)
      (Token.playing .size tokens) := by
    rw [← root.demands_sizes]
    refine Demand.forall₂_playing hdemands fun u x hu => ?_
    cases hu with
    | size => exact .some rfl
    | _ => exact .none
  refine ⟨root.addresses_pairwise, fun _ => Node.mem_addresses, root.map_some_walk_everywhere,
    root.map_some_walk, ?_, hleaves, hnames, hsizes⟩
  rw [Node.locations_of_standsAt hleaves]
  exact List.pairwise_map.mpr ((scan_pairwise source).sublist (Token.playing_sublist .leaf tokens))

/-- The unit that `int a[2] = "p" "q" - b;` is read as. -/
def spelledSizeUnit : CompilationUnit :=
  ⟨[.decl (.var ⟨⟨.int, false, 0, [2]⟩, "a",
    some (.binary ⟨2, ⟨1, 20⟩⟩ (.arith .sub) (.literal ⟨0, ⟨1, 12⟩⟩ (.string "pq"))
      (.ident ⟨1, ⟨1, 22⟩⟩ "b")), .none, ⟨1, 5⟩⟩)]⟩

/-- The size and the second string are no expressions of their own. -/
theorem walk_in_source_order_spelledSize :
    let full := (Node.unit spelledSizeUnit).walk Walk.everywhere
    compile "int a[2] = \"p\" \"q\" - b;" = .ok ⟨spelledSizeUnit, []⟩ ∧
      (Node.unit spelledSizeUnit).addresses.Pairwise (· < ·) ∧
      (full.filter Node.isLeaf).filterMap Node.location? = [⟨1, 12⟩, ⟨1, 22⟩] ∧
      List.Forall₂ (fun n x => n.StandsAt x.1 x.2) (full.filter Node.isLeaf)
        [(⟨.stringLiteral "p", ⟨1, 12⟩⟩, [⟨.stringLiteral "q", ⟨1, 16⟩⟩]),
          (⟨.identifier "b", ⟨1, 22⟩⟩, [])] := by
  have hscan : scan "int a[2] = \"p\" \"q\" - b;" =
      ⟨[.ofWord .intKw ⟨1, 1⟩, ⟨.identifier "a", ⟨1, 5⟩⟩, .ofMark .leftBracket ⟨1, 6⟩,
        ⟨.intLiteral 2, ⟨1, 7⟩⟩, .ofMark .rightBracket ⟨1, 8⟩, .ofMark .assign ⟨1, 10⟩,
        ⟨.stringLiteral "p", ⟨1, 12⟩⟩, ⟨.stringLiteral "q", ⟨1, 16⟩⟩, .ofMark .minus ⟨1, 20⟩,
        ⟨.identifier "b", ⟨1, 22⟩⟩, .ofMark .semicolon ⟨1, 23⟩], []⟩ := by decide +kernel
  have hcompile : compile "int a[2] = \"p\" \"q\" - b;" = .ok ⟨spelledSizeUnit, []⟩ := by
    rw [compile, hscan]
    cbv
  have hleaves : Token.playing .leaf (scan "int a[2] = \"p\" \"q\" - b;").tokens =
      [(⟨.stringLiteral "p", ⟨1, 12⟩⟩, [⟨.stringLiteral "q", ⟨1, 16⟩⟩]),
        (⟨.identifier "b", ⟨1, 22⟩⟩, [])] := by
    rw [hscan]
    decide
  obtain ⟨horder, -, -, -, -, hstand, -⟩ := walk_in_source_order hcompile
  rw [hleaves] at hstand
  exact ⟨hcompile, horder, rfl, hstand⟩

end CSubset
