-- SUMMARY: The blocks of a program as a tree, and their numbers if they are counted in source order.
import CSubset.Proofs.Scoping.Lexical

/-!
# Nested blocks

`Nest` is the block structure of a program text: the file or a block, the declarations that belong
to it, and the blocks directly inside it. It is read off the syntax without any table of scopes.
The body of a function is one block, to which its parameters belong; a prototype opens none.

Counted in preorder, the blocks inside the block number `k` begin at `k + 1`, and each starts
where the one before it ends (`Nest.starts`). `Nest.placesAll` lists all blocks with the numbers of
the block around them and of their own; the facts about it say that the numbers are those of the
preorder (`placesAll_number`), and that being inside a block and having a number among its
`starts` are the same (`mem_placesAll_inner`, `placesAll_origin`).
-/

namespace CSubset

/-! ## Block structure -/

/-- The file or a block, the declarations that belong to it, and the blocks directly inside it. -/
inductive Nest where
  | mk (node : Node) (declared : Passed) (inner : List Nest)

namespace Nest

/-- The node of the file or block. -/
def node : Nest → Node
  | mk node _ _ => node

/-- What is declared in the file or block itself. -/
def declared : Nest → Passed
  | mk _ declared _ => declared

/-- The blocks directly inside, in source order. -/
def inner : Nest → List Nest
  | mk _ _ inner => inner

mutual

/-- The file or block, and all blocks inside, each in front of those inside it. -/
def preorder : Nest → List Nest
  | b@(mk _ _ inner) => b :: preorderAll inner

/-- The blocks that stand one behind the other, and all blocks inside them. -/
def preorderAll : List Nest → List Nest
  | [] => []
  | b :: rest => b.preorder ++ preorderAll rest

end

/-- The numbers of blocks that stand one behind the other, if blocks are counted in preorder and
the first of them is number `k`. -/
def starts (k : Nat) : List Nest → List Nat
  | [] => []
  | b :: rest => k :: starts (k + b.preorder.length) rest

end Nest

mutual

/-- The blocks directly below a statement. -/
def Stmt.nests : Stmt → List Nest
  | .block body => [body.nest]
  | .ifThen _ body _ => [body.nest]
  | .ifElse _ body alternative _ => [body.nest, alternative.nest]
  | .whileLoop _ body _ => [body.nest]
  | .forLoop _ _ _ body _ => [body.nest]
  | .jump _ _ => []
  | .returnStmt _ _ => []
  | .expr _ _ => []

/-- The blocks directly below statements that stand one behind the other. -/
def Stmt.nestsAll : List Stmt → List Nest
  | [] => []
  | s :: rest => s.nests ++ Stmt.nestsAll rest

/-- A block that is not the body of a function, with the blocks inside it. -/
def Block.nest : Block → Nest
  | b@(.mk decls stmts _) => .mk (.block b) (decls.map Decl.symbol) (Stmt.nestsAll stmts)

end

/-- The body of a function, to which the parameters belong, with the blocks inside it. -/
def Prototype.bodyNest (p : Prototype) (body : Block) : Nest :=
  .mk (.block body) (p.parameters.map Symbol.parameter ++ body.decls.map Decl.symbol)
    (Stmt.nestsAll body.stmts)

/-- The block directly below a declaration at file level, if it defines a function. -/
def External.nests : External → List Nest
  | decl _ => []
  | definition p body => [p.bodyNest body]

/-- The file with all blocks. -/
def CompilationUnit.nest (u : CompilationUnit) : Nest :=
  .mk (.unit u) (u.decls.map External.symbol) (u.decls.flatMap External.nests)

namespace Nest

variable {k : Nat} {parent : Option Nat}

theorem preorder_eq (b : Nest) : b.preorder = b :: preorderAll b.inner := by
  cases b
  rfl

theorem length_preorder_pos (b : Nest) : 0 < b.preorder.length := by
  rw [preorder_eq]
  exact Nat.succ_pos _

theorem preorderAll_append (bs cs : List Nest) :
    preorderAll (bs ++ cs) = preorderAll bs ++ preorderAll cs := by
  induction bs with
  | nil => rfl
  | cons b rest ih => rw [List.cons_append, preorderAll, ih, preorderAll, List.append_assoc]

theorem preorderAll_singleton (b : Nest) : preorderAll [b] = b.preorder := List.append_nil _

/-! ## Numbers of siblings -/

theorem starts_append (k : Nat) (bs cs : List Nest) :
    starts k (bs ++ cs) = starts k bs ++ starts (k + (preorderAll bs).length) cs := by
  induction bs generalizing k with
  | nil => rfl
  | cons b rest ih =>
    simp only [List.cons_append, starts, ih, preorderAll, List.length_append, Nat.add_assoc]

theorem length_starts (k : Nat) (bs : List Nest) : (starts k bs).length = bs.length := by
  induction bs generalizing k with
  | nil => rfl
  | cons b rest ih => rw [starts, List.length_cons, ih, List.length_cons]

theorem le_of_mem_starts {bs : List Nest} {c : Nat} (h : c ∈ starts k bs) : k ≤ c := by
  induction bs generalizing k with
  | nil => cases h
  | cons b rest ih =>
    rcases List.mem_cons.mp h with rfl | h
    · exact Nat.le_refl _
    · exact Nat.le_trans (Nat.le_add_right _ _) (ih h)

theorem starts_pairwise (k : Nat) (bs : List Nest) : (starts k bs).Pairwise (· < ·) := by
  induction bs generalizing k with
  | nil => exact .nil
  | cons b rest ih =>
    refine .cons (fun c hc => ?_) (ih _)
    have hle := le_of_mem_starts hc
    have hpos := b.length_preorder_pos
    omega

/-! ## Numbers of all blocks -/

/-- A block with its number and that of the block around it. -/
structure Placed where
  parent : Option Nat
  number : Nat
  nest : Nest

mutual

/-- All blocks of a nest that is number `k`. -/
def places (parent : Option Nat) (k : Nat) : Nest → List Placed
  | b@(mk _ _ inner) => ⟨parent, k, b⟩ :: placesAll (some k) (k + 1) inner

/-- All blocks of nests that stand one behind the other, the first of which is number `k`. -/
def placesAll (parent : Option Nat) (k : Nat) : List Nest → List Placed
  | [] => []
  | b :: rest => b.places parent k ++ placesAll parent (k + b.preorder.length) rest

end

theorem places_eq (parent : Option Nat) (k : Nat) (b : Nest) :
    b.places parent k = ⟨parent, k, b⟩ :: placesAll (some k) (k + 1) b.inner := by
  cases b
  rfl

theorem placesAll_append (parent : Option Nat) (k : Nat) (bs cs : List Nest) :
    placesAll parent k (bs ++ cs) =
      placesAll parent k bs ++ placesAll parent (k + (preorderAll bs).length) cs := by
  induction bs generalizing k with
  | nil => rfl
  | cons b rest ih =>
    simp only [List.cons_append, placesAll, ih, preorderAll, List.length_append, Nat.add_assoc,
      List.append_assoc]

theorem placesAll_singleton (parent : Option Nat) (k : Nat) (b : Nest) :
    placesAll parent k [b] = b.places parent k := List.append_nil _

mutual

theorem places_nest (parent : Option Nat) (k : Nat) :
    ∀ b : Nest, (b.places parent k).map Placed.nest = b.preorder
  | mk node declared inner => by
    rw [places, List.map_cons, placesAll_nest _ _ inner, preorder]

/-- The blocks are listed in preorder. -/
theorem placesAll_nest (parent : Option Nat) (k : Nat) :
    ∀ bs : List Nest, (placesAll parent k bs).map Placed.nest = preorderAll bs
  | [] => rfl
  | b :: rest => by
    rw [placesAll, List.map_append, places_nest _ _ b, placesAll_nest _ _ rest, preorderAll]

end

mutual

theorem places_number (parent : Option Nat) (k : Nat) :
    ∀ b : Nest, (b.places parent k).map Placed.number = List.range' k b.preorder.length
  | mk node declared inner => by
    rw [places, List.map_cons, placesAll_number _ _ inner, preorder, List.length_cons,
      List.range'_succ]

/-- The blocks are numbered one by one. -/
theorem placesAll_number (parent : Option Nat) (k : Nat) :
    ∀ bs : List Nest,
      (placesAll parent k bs).map Placed.number = List.range' k (preorderAll bs).length
  | [] => rfl
  | b :: rest => by
    rw [placesAll, List.map_append, places_number _ _ b, placesAll_number _ _ rest, preorderAll,
      List.length_append, List.range'_append_1]

end

theorem nest_of_getElem? {b : Nest} {i : Nat} {x : Placed}
    (h : (b.places parent k)[i]? = some x) : b.preorder[i]? = some x.nest := by
  rw [← places_nest parent k b, List.getElem?_map, h]
  rfl

theorem number_of_getElem? {b : Nest} {i : Nat} {x : Placed}
    (h : (b.places parent k)[i]? = some x) : x.number = k + i := by
  have hi : i < b.preorder.length := (List.getElem?_eq_some_iff.mp (nest_of_getElem? h)).1
  have hnumber : ((b.places parent k).map Placed.number)[i]? = some (k + 1 * i) := by
    rw [places_number, List.getElem?_range' hi]
  rw [List.getElem?_map, h, Option.map_some, Nat.one_mul] at hnumber
  exact Option.some.inj hnumber

/-- Counted from 0, a block stands in the list at its number. -/
theorem getElem?_of_mem {b : Nest} {x : Placed} (h : x ∈ b.places parent 0) :
    (b.places parent 0)[x.number]? = some x := by
  obtain ⟨i, hi⟩ := List.mem_iff_getElem?.mp h
  rwa [number_of_getElem? hi, Nat.zero_add]

/-- A block that stands among others has its number among their numbers. -/
theorem mem_placesAll_starts {bs : List Nest} {i c : Nat} {b : Nest}
    (hc : (starts k bs)[i]? = some c) (hb : bs[i]? = some b) :
    ⟨parent, c, b⟩ ∈ placesAll parent k bs := by
  induction bs generalizing k i with
  | nil => cases hb
  | cons b' rest ih =>
    rw [placesAll]
    cases i with
    | zero =>
      cases hb
      cases hc
      rw [places_eq]
      exact List.mem_append_left _ List.mem_cons_self
    | succ i => exact List.mem_append_right _ (ih hc hb)

mutual

theorem mem_places_inner {x y : Placed} : ∀ {b : Nest} {parent : Option Nat} {k : Nat},
    y ∈ b.places parent k → x ∈ placesAll (some y.number) (y.number + 1) y.nest.inner →
      x ∈ b.places parent k
  | mk node declared inner, _, _, hy, hx => by
    rcases List.mem_cons.mp hy with rfl | hy
    · exact List.mem_cons_of_mem _ hx
    · exact List.mem_cons_of_mem _ (mem_placesAll_inner hy hx)

/-- The blocks inside a listed block are listed, with the numbers that they have there. -/
theorem mem_placesAll_inner {x y : Placed} : ∀ {bs : List Nest} {parent : Option Nat} {k : Nat},
    y ∈ placesAll parent k bs → x ∈ placesAll (some y.number) (y.number + 1) y.nest.inner →
      x ∈ placesAll parent k bs
  | [], _, _, hy, _ => nomatch hy
  | b :: rest, _, _, hy, hx => by
    rw [placesAll] at hy ⊢
    rcases List.mem_append.mp hy with hy | hy
    · exact List.mem_append_left _ (mem_places_inner hy hx)
    · exact List.mem_append_right _ (mem_placesAll_inner hy hx)

end

/-- The listed block `x` is directly inside one of the listed blocks `ps`. -/
def Placed.Inside (ps : List Placed) (x : Placed) : Prop :=
  ∃ y ∈ ps, x.parent = some y.number ∧ x.number ∈ starts (y.number + 1) y.nest.inner

theorem Placed.Inside.mono {ps qs : List Placed} {x : Placed} (h : x.Inside ps) (hs : ps ⊆ qs) :
    x.Inside qs := h.imp fun _ hy => ⟨hs hy.1, hy.2⟩

mutual

theorem places_origin {x : Placed} : ∀ {b : Nest} {parent : Option Nat} {k : Nat},
    x ∈ b.places parent k → x.parent = parent ∧ x.number = k ∨ x.Inside (b.places parent k)
  | mk node declared inner, _, k, hx => by
    rcases List.mem_cons.mp hx with rfl | hx
    · exact .inl ⟨rfl, rfl⟩
    · refine .inr ?_
      rcases placesAll_origin hx with ⟨hparent, hnumber⟩ | hinside
      · exact ⟨_, List.mem_cons_self, hparent, hnumber⟩
      · exact hinside.mono (List.subset_cons_self _ _)

/-- A listed block is one of those that were given, or is directly inside a listed block. -/
theorem placesAll_origin {x : Placed} : ∀ {bs : List Nest} {parent : Option Nat} {k : Nat},
    x ∈ placesAll parent k bs →
      x.parent = parent ∧ x.number ∈ starts k bs ∨ x.Inside (placesAll parent k bs)
  | [], _, _, hx => nomatch hx
  | b :: rest, parent, k, hx => by
    rw [placesAll] at hx
    rw [placesAll, starts]
    rcases List.mem_append.mp hx with hx | hx
    · rcases places_origin hx with ⟨hparent, hnumber⟩ | hinside
      · exact .inl ⟨hparent, hnumber ▸ List.mem_cons_self⟩
      · exact .inr (hinside.mono (List.subset_append_left _ _))
    · rcases placesAll_origin hx with ⟨hparent, hnumber⟩ | hinside
      · exact .inl ⟨hparent, List.mem_cons_of_mem _ hnumber⟩
      · exact .inr (hinside.mono (List.subset_append_right _ _))

end

end Nest

end CSubset
