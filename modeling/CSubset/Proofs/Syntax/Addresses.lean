-- SUMMARY: Addresses of nodes, and which of them a walk gets to.
import CSubset.Proofs.Syntax.Inorder
import Mathlib.Data.List.Infix

/-!
# Addresses

Equal nodes can stand at several places of a unit. An address tells them apart: it says which child
to go to at each step from the top. Addresses are ordered like words in a dictionary, so a node is
in front of what is below it, and this in front of the next child. A walk meets the nodes at
increasing addresses, and what it leaves out are those below a node that it does not descend into.
-/

namespace CSubset

namespace Node

/-- The node at an address. -/
def at? : Node → List Nat → Option Node
  | n, [] => some n
  | n, i :: below => n.children[i]?.bind fun c => c.at? below

/-- The addresses of a node and of all nodes below it. -/
def addresses (n : Node) : List (List Nat) :=
  [] :: n.children.attach.zipIdx.flatMap fun c => c.1.1.addresses.map (c.2 :: ·)
termination_by (n.walk Walk.everywhere).length
decreasing_by exact length_walk_lt c.1.2

/-- Whether a walk gets to an address: it descends into all nodes above. -/
def reaches (n : Node) (descend : Node → Bool) (a : List Nat) : Bool :=
  a.inits.dropLast.all fun b => (n.at? b).all descend

theorem addresses_eq (n : Node) :
    n.addresses = [] :: n.children.zipIdx.flatMap fun c => c.1.addresses.map (c.2 :: ·) := by
  have hchildren : n.children.zipIdx = n.children.attach.zipIdx.map (Prod.map Subtype.val id) := by
    rw [← List.zipIdx_map, List.attach_map_subtype_val]
  rw [addresses, hchildren, List.flatMap_map]
  rfl

theorem at?_child {n c : Node} {i : Nat} (hc : n.children[i]? = some c) (a : List Nat) :
    n.at? (i :: a) = c.at? a := by
  rw [at?, hc]
  rfl

theorem at?_zipIdx {n : Node} {c : Node × Nat} (hc : c ∈ n.children.zipIdx) (a : List Nat) :
    n.at? (c.2 :: a) = c.1.at? a :=
  at?_child (List.mem_zipIdx_iff_getElem?.mp hc) a

/-- The addresses are those at which there is a node. -/
theorem mem_addresses {n : Node} {a : List Nat} : a ∈ n.addresses ↔ (n.at? a).isSome := by
  induction n using children_induction generalizing a with
  | step n ih =>
    rw [addresses_eq]
    cases a with
    | nil => exact iff_of_true List.mem_cons_self rfl
    | cons i a =>
      simp only [List.mem_cons, reduceCtorEq, false_or, List.mem_flatMap, List.mem_map,
        List.cons.injEq]
      constructor
      · rintro ⟨c, hc, b, hb, rfl, rfl⟩
        rw [at?_zipIdx hc]
        exact (ih c.1 (List.fst_mem_of_mem_zipIdx hc)).mp hb
      · intro h
        obtain ⟨c, hc⟩ := Option.isSome_iff_exists.mp (Option.isSome_of_isSome_bind h)
        rw [at?_child hc] at h
        exact ⟨(c, i), List.mem_zipIdx_iff_getElem?.mpr hc, a,
          (ih c (List.mem_of_getElem? hc)).mpr h, rfl, rfl⟩

/-- Addresses increase, so none is listed twice and nodes are in front of those below. -/
theorem addresses_pairwise (n : Node) : n.addresses.Pairwise (· < ·) := by
  induction n using children_induction with
  | step n ih =>
    rw [addresses_eq]
    refine List.pairwise_cons.mpr ⟨fun a ha => ?_, List.pairwise_flatMap.mpr ⟨fun c hc => ?_, ?_⟩⟩
    · obtain ⟨c, -, hb⟩ := List.mem_flatMap.mp ha
      obtain ⟨b, -, rfl⟩ := List.mem_map.mp hb
      exact List.nil_lt_cons _ _
    · refine List.pairwise_map.mpr ((ih c.1 (List.fst_mem_of_mem_zipIdx hc)).imp fun hab => ?_)
      exact List.cons_lt_cons_iff.mpr (.inr ⟨rfl, hab⟩)
    · have hnumbers : (n.children.zipIdx.map Prod.snd).Pairwise (· < ·) := by
        rw [List.zipIdx_map_snd]
        exact List.pairwise_lt_range'
      refine (List.pairwise_map.mp hnumbers).imp fun {c d} hlt a ha b hb => ?_
      obtain ⟨a, -, rfl⟩ := List.mem_map.mp ha
      obtain ⟨b, -, rfl⟩ := List.mem_map.mp hb
      exact List.cons_lt_cons_iff.mpr (.inl hlt)

/-! ## Walks -/

variable {n : Node} {descend : Node → Bool}

theorem reaches_nil : n.reaches descend [] = true := rfl

theorem reaches_child {c : Node × Nat} (hc : c ∈ n.children.zipIdx) (a : List Nat) :
    n.reaches descend (c.2 :: a) = (descend n && c.1.reaches descend a) := by
  have hinits : (c.2 :: a).inits.dropLast = [] :: a.inits.dropLast.map (c.2 :: ·) := by
    have hinits : a.inits ≠ [] := List.ne_nil_of_mem ((List.mem_inits a a).mpr List.prefix_rfl)
    rw [List.inits_cons, List.dropLast_cons_of_ne_nil (mt List.map_eq_nil_iff.mp hinits),
      List.map_dropLast]
  rw [reaches, hinits, List.all_cons, List.all_map]
  simp only [Function.comp_def, at?_zipIdx hc]
  rfl

/-- Of the addresses below a child a walk gets to those that it gets to from there. -/
theorem filter_child {c : Node × Nat} (hc : c ∈ n.children.zipIdx) :
    ((c.1.addresses.map (c.2 :: ·)).filter (n.reaches descend)).map n.at? =
      if descend n then (c.1.addresses.filter (c.1.reaches descend)).map c.1.at? else [] := by
  rw [List.filter_map, List.map_map]
  simp only [Function.comp_def, reaches_child hc, at?_zipIdx hc]
  cases descend n with
  | true => rfl
  | false => exact congrArg _ (List.filter_false _)

/-- A walk meets what is at the addresses that it gets to, once each and in their order. -/
theorem map_some_walk (n : Node) (descend : Node → Bool) :
    (n.walk descend).map some = (n.addresses.filter (n.reaches descend)).map n.at? := by
  induction n using children_induction with
  | step n ih =>
    have hbelow : (n.children.flatMap (walk descend)).map some =
        n.children.zipIdx.flatMap fun c =>
          (c.1.addresses.filter (c.1.reaches descend)).map c.1.at? := by
      have hfirst : n.children = n.children.zipIdx.map Prod.fst := (List.zipIdx_map_fst 0 _).symm
      conv_lhs => rw [hfirst]
      rw [List.map_flatMap, List.flatMap_map]
      exact List.flatMap_congr fun c hc => ih c.1 (List.fst_mem_of_mem_zipIdx hc)
    rw [n.walk_eq, addresses_eq, List.filter_cons_of_pos reaches_nil, List.map_cons, List.map_cons,
      List.filter_flatMap, List.map_flatMap, List.flatMap_congr fun c hc => filter_child hc]
    refine congrArg (some n :: ·) ?_
    cases descend n with
    | true => exact hbelow
    | false => exact (List.flatMap_eq_nil_iff.mpr fun _ _ => rfl).symm

end Node

end CSubset
