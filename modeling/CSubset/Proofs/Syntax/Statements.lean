-- SUMMARY: All statements of a unit, each with the function it is in and the statements around it.
import CSubset.Proofs.Grammar.Positions
import CSubset.Proofs.Scoping.BlockNodes
import Mathlib.Data.List.Flatten
import Mathlib.Data.List.Nodup

/-!
# Statements in place

What a statement means to the checker depends on the function it is in and on the statements around
it there. `PlacedStmt` is a statement with both; `CompilationUnit.placed` lists those of a unit in
source order. They are all statements that a walk meets, and a walk that goes below no statement
of some sort meets those without one around them (`placed_avoiding`).
-/

namespace CSubset

open Walk

/-- A statement, the function it is in, and the statements around it there, from the innermost
on. -/
structure PlacedStmt where
  function : Prototype
  around : List Stmt
  stmt : Stmt

/-- Whether a statement is a loop. -/
def Stmt.isLoop : Stmt → Bool
  | .whileLoop _ _ _ => true
  | .forLoop _ _ _ _ _ => true
  | _ => false

/-- The keyword and position of a jump. -/
def Stmt.jump? : Stmt → Option (Jump × Location)
  | .jump kind l => some (kind, l)
  | _ => none

/-- The value and position of a return. -/
def Stmt.return? : Stmt → Option (Option Expr × Location)
  | .returnStmt value l => some (value, l)
  | _ => none

/-- Where the keyword of a jump or return stands. -/
def Stmt.keywordAt? (s : Stmt) : Option Location :=
  (s.jump?.map Prod.snd).or (s.return?.map Prod.snd)

theorem Stmt.keywordAt?_of_jump {s : Stmt} {j : Jump × Location} (h : s.jump? = some j) :
    s.keywordAt? = some j.2 := by
  rw [keywordAt?, h]
  rfl

/-- The statement that a node is. -/
def Node.stmt? : Node → Option Stmt
  | .stmt s => some s
  | _ => none

/-- Whether a node is a loop. -/
def Node.isLoop (n : Node) : Bool := n.stmt?.any Stmt.isLoop

/-! ## Listing statements -/

mutual

/-- A statement and those inside it, each in front of those inside it. -/
def Stmt.placed (p : Prototype) (around : List Stmt) : Stmt → List PlacedStmt
  | s@(.block body) => ⟨p, around, s⟩ :: body.placed p (s :: around)
  | s@(.ifThen _ body _) => ⟨p, around, s⟩ :: body.placed p (s :: around)
  | s@(.ifElse _ body alternative _) =>
    ⟨p, around, s⟩ :: (body.placed p (s :: around) ++ alternative.placed p (s :: around))
  | s@(.whileLoop _ body _) => ⟨p, around, s⟩ :: body.placed p (s :: around)
  | s@(.forLoop _ _ _ body _) => ⟨p, around, s⟩ :: body.placed p (s :: around)
  | s@(.jump _ _) => [⟨p, around, s⟩]
  | s@(.returnStmt _ _) => [⟨p, around, s⟩]
  | s@(.expr _ _) => [⟨p, around, s⟩]

/-- Statements that stand one behind the other, and those inside them. -/
def Stmt.placedAll (p : Prototype) (around : List Stmt) : List Stmt → List PlacedStmt
  | [] => []
  | s :: rest => s.placed p around ++ Stmt.placedAll p around rest

/-- The statements in a block. -/
def Block.placed (p : Prototype) (around : List Stmt) : Block → List PlacedStmt
  | .mk _ stmts _ => Stmt.placedAll p around stmts

end

/-- The statements in the body of a function, around which there are none. -/
def External.placed : External → List PlacedStmt
  | decl _ => []
  | definition p body => body.placed p []

/-- The statements in a unit, in source order. -/
def CompilationUnit.placed (u : CompilationUnit) : List PlacedStmt :=
  u.decls.flatMap External.placed

variable {p : Prototype} {around : List Stmt}

theorem Stmt.placed_eq (p : Prototype) (around : List Stmt) (s : Stmt) :
    s.placed p around = ⟨p, around, s⟩ :: s.bodies.flatMap (Block.placed p (s :: around)) := by
  cases s <;>
    simp only [placed, bodies, List.flatMap_cons, List.flatMap_nil, List.append_nil]

theorem Stmt.placedAll_eq_flatMap (p : Prototype) (around ss : List Stmt) :
    Stmt.placedAll p around ss = ss.flatMap (Stmt.placed p around) := by
  induction ss with
  | nil => rfl
  | cons s rest ih => rw [Stmt.placedAll, ih, List.flatMap_cons]

theorem Block.placed_eq (p : Prototype) (around : List Stmt) (b : Block) :
    b.placed p around = b.stmts.flatMap (Stmt.placed p around) := by
  cases b
  exact Stmt.placedAll_eq_flatMap _ _ _

/-- What is around a block is around every statement in it. -/
theorem Block.around_subset (b : Block) :
    ∀ around, ∀ x ∈ b.placed p around, around ⊆ x.around := by
  induction b using Block.bodies_induction with
  | step b ih =>
    intro around x hx
    rw [b.placed_eq] at hx
    obtain ⟨s, hs, hx⟩ := List.mem_flatMap.mp hx
    rw [s.placed_eq] at hx
    rcases List.mem_cons.mp hx with rfl | hx
    · exact List.Subset.refl _
    · obtain ⟨c, hc, hx⟩ := List.mem_flatMap.mp hx
      exact List.Subset.trans (List.subset_cons_self s around) (ih s hs c hc _ x hx)

/-! ## Statements on a walk -/

/-- A walk that does not go below some statements. -/
def Walk.avoiding (q : Stmt → Bool) : Node → Bool := fun n => !n.stmt?.any q

namespace PlacedStmt

/-- Whether none of some statements is around a statement. -/
def isFree (q : Stmt → Bool) (x : PlacedStmt) : Bool := !x.around.any q

/-- The statements among those listed that no statement of some sort is around. -/
def free (q : Stmt → Bool) (xs : List PlacedStmt) : List Stmt := (xs.filter (isFree q)).map stmt

theorem free_flatMap {α : Type} (q : Stmt → Bool) (f : α → List PlacedStmt) (xs : List α) :
    free q (xs.flatMap f) = xs.flatMap fun x => free q (f x) := by
  rw [free, List.filter_flatMap, List.map_flatMap]
  rfl

end PlacedStmt

/-- Lists statements alone. -/
def Walk.stmtList (n : Node) : List Stmt := n.stmt?.toList

theorem Walk.ofBlocks_stmtList : OfBlocks stmtList :=
  ⟨fun _ => rfl, fun _ _ => rfl, fun _ => rfl, fun _ => rfl, fun _ => rfl⟩

open PlacedStmt (free isFree)

variable {q : Stmt → Bool}

theorem Walk.stmt_avoided {s : Stmt} (h : q s = true) :
    Walk.stmt (avoiding q) s = [.stmt s] := by
  have hs : avoiding q (.stmt s) = false := by
    rw [avoiding, Node.stmt?, Option.any_some, h]
    rfl
  cases s <;> simp only [Walk.stmt, enter, hs] <;> rfl

/-- Nothing is listed of a block that lies inside one of the statements. -/
theorem Block.free_nil (b : Block) (h : around.any q = true) :
    free q (b.placed p around) = [] := by
  rw [free, List.map_eq_nil_iff, List.filter_eq_nil_iff]
  intro x hx hfree
  obtain ⟨s, hs, hq⟩ := List.any_eq_true.mp h
  have hany : x.around.any q = true := List.any_eq_true.mpr ⟨s, b.around_subset around x hx hs, hq⟩
  rw [isFree, hany] at hfree
  cases hfree

/-- A block that lies inside none of the statements. -/
theorem Block.free_eq (b : Block) : ∀ around : List Stmt, around.any q = false →
    free q (b.placed p around) = (Walk.block (avoiding q) b).flatMap stmtList := by
  induction b using Block.bodies_induction with
  | step b ih =>
    intro around ha
    rw [b.placed_eq, PlacedStmt.free_flatMap, ofBlocks_stmtList.block b rfl]
    refine List.flatMap_congr fun s hs => ?_
    have hself : free q (s.placed p around) =
        s :: s.bodies.flatMap fun c => free q (c.placed p (s :: around)) := by
      rw [s.placed_eq, ← PlacedStmt.free_flatMap, free, List.filter_cons_of_pos, List.map_cons]
      · rfl
      · rw [isFree, ha]
        rfl
    rw [hself]
    cases hq : q s with
    | true =>
      rw [stmt_avoided hq, List.flatMap_singleton]
      refine congrArg _ (List.flatMap_eq_nil_iff.mpr fun c _ => ?_)
      exact c.free_nil (by rw [List.any_cons, hq, Bool.true_or])
    | false =>
      rw [ofBlocks_stmtList.stmt s (by rw [avoiding, Node.stmt?, Option.any_some, hq]; rfl)]
      refine congrArg _ (List.flatMap_congr fun c hc => ?_)
      exact ih s hs c hc _ (by rw [List.any_cons, hq, ha, Bool.false_or])

theorem External.free_eq (q : Stmt → Bool) (d : External) :
    free q d.placed = (Walk.external (avoiding q) d).flatMap stmtList := by
  cases d with
  | decl d => exact (ofBlocks_stmtList.decl_nil d).symm
  | definition p body =>
    rw [ofBlocks_stmtList.definition p body rfl rfl]
    exact body.free_eq [] rfl

/-- A walk that goes below no statement of some sort meets the statements without one around
them. -/
theorem CompilationUnit.placed_avoiding (u : CompilationUnit) (q : Stmt → Bool) :
    ((Node.unit u).walk (avoiding q)).filterMap Node.stmt? = free q u.placed := by
  have hwalk : ((Node.unit u).walk (avoiding q)).flatMap stmtList =
      (u.decls.flatMap (Walk.external (avoiding q))).flatMap stmtList := rfl
  rw [List.filterMap_eq_flatMap_toList]
  refine hwalk.trans ?_
  rw [placed, PlacedStmt.free_flatMap, List.flatMap_assoc]
  exact List.flatMap_congr fun d _ => (d.free_eq q).symm

/-- The statements that a walk meets are those listed. -/
theorem CompilationUnit.placed_everywhere (u : CompilationUnit) :
    ((Node.unit u).walk fun _ => true).filterMap Node.stmt? = u.placed.map PlacedStmt.stmt := by
  have havoiding : (avoiding fun _ => false) = fun _ => true := by
    funext n
    rw [avoiding, Option.any_false]
    rfl
  have hfree : (u.placed.filter (isFree fun _ => false)) = u.placed := by
    refine List.filter_eq_self.mpr fun x _ => ?_
    rw [isFree, List.any_eq_false.mpr fun _ _ => Bool.false_ne_true]
    rfl
  rw [← havoiding, u.placed_avoiding, free, hfree]

/-! ## Positions of keywords -/

/-- The positions of jumps and returns among statements. -/
def PlacedStmt.keywordsAt (xs : List PlacedStmt) : List Location :=
  xs.filterMap fun x => x.stmt.keywordAt?

theorem PlacedStmt.keywordsAt_flatMap {α : Type} (f : α → List PlacedStmt) (xs : List α) :
    keywordsAt (xs.flatMap f) = xs.flatMap fun x => keywordsAt (f x) :=
  List.filterMap_flatMap ..

open PlacedStmt (keywordsAt keywordsAt_flatMap)

theorem Stmt.keyword_sublist (s : Stmt) :
    (s.keywordAt?.toList ++ s.bodies.flatMap Block.positions).Sublist s.positions := by
  cases s with
  | forLoop first condition step body l =>
    simp only [positions, bodies, List.flatMap_singleton, ← List.append_assoc]
    exact List.sublist_append_right _ _
  | _ => simp [keywordAt?, jump?, return?, bodies, positions]

theorem Stmt.positionsAll_eq_flatMap (ss : List Stmt) :
    Stmt.positionsAll ss = ss.flatMap Stmt.positions := by
  induction ss with
  | nil => rfl
  | cons s rest ih => rw [Stmt.positionsAll, ih, List.flatMap_cons]

theorem Block.keywordsAt_sublist (b : Block) :
    ∀ around, (keywordsAt (b.placed p around)).Sublist b.positions := by
  induction b using Block.bodies_induction with
  | step b ih =>
    intro around
    have hstmts : (keywordsAt (b.placed p around)).Sublist (b.stmts.flatMap Stmt.positions) := by
      rw [b.placed_eq, keywordsAt_flatMap]
      refine List.Sublist.flatMap_right _ fun s hs => ?_
      have hbodies : (s.bodies.flatMap fun c => keywordsAt (c.placed p (s :: around))).Sublist
          (s.bodies.flatMap Block.positions) :=
        List.Sublist.flatMap_right _ fun c hc => ih s hs c hc _
      have hself : keywordsAt (s.placed p around) = s.keywordAt?.toList ++
          s.bodies.flatMap fun c => keywordsAt (c.placed p (s :: around)) := by
        rw [s.placed_eq, ← keywordsAt_flatMap, keywordsAt, List.filterMap_cons]
        cases s.keywordAt? <;> rfl
      rw [hself]
      exact ((List.Sublist.refl _).append hbodies).trans s.keyword_sublist
    cases b with
    | mk decls stmts l =>
      rw [Block.positions, Stmt.positionsAll_eq_flatMap]
      exact hstmts.trans (List.sublist_append_right _ _)

theorem CompilationUnit.keywordsAt_sublist (u : CompilationUnit) :
    (keywordsAt u.placed).Sublist u.positions := by
  rw [placed, keywordsAt_flatMap]
  refine List.Sublist.flatMap_right _ fun d _ => ?_
  cases d with
  | decl d => exact List.nil_sublist _
  | definition p body => exact (body.keywordsAt_sublist []).trans (List.sublist_append_right _ _)

/-- What a list of partial results names only once comes from one place. -/
theorem eq_of_filterMap_nodup {α β : Type} {f : α → Option β} {xs : List α}
    (h : (xs.filterMap f).Nodup) {x y : α} (hx : x ∈ xs) (hy : y ∈ xs) {b : β}
    (hxb : f x = some b) (hyb : f y = some b) : x = y := by
  induction xs with
  | nil => cases hx
  | cons z rest ih =>
    have hfar : f z = some b → ∀ w ∈ rest, f w ≠ some b := by
      intro hzb w hw hwb
      rw [List.filterMap_cons_some hzb] at h
      exact (List.nodup_cons.mp h).1 (List.mem_filterMap.mpr ⟨w, hw, hwb⟩)
    have hrest : (rest.filterMap f).Nodup :=
      ((List.sublist_cons_self z rest).filterMap f).nodup h
    rcases List.mem_cons.mp hx with rfl | hx' <;> rcases List.mem_cons.mp hy with rfl | hy'
    · rfl
    · exact absurd hyb (hfar hxb y hy')
    · exact absurd hxb (hfar hyb x hx')
    · exact ih hrest hx' hy'

/-- Where positions differ, a jump or return is told by its position. -/
theorem CompilationUnit.placed_eq_of_keywordAt {u : CompilationUnit} (h : u.positions.Nodup)
    {x y : PlacedStmt} (hx : x ∈ u.placed) (hy : y ∈ u.placed) {l : Location}
    (hxl : x.stmt.keywordAt? = some l) (hyl : y.stmt.keywordAt? = some l) : x = y :=
  eq_of_filterMap_nodup (u.keywordsAt_sublist.nodup h) hx hy hxl hyl

end CSubset
