-- SUMMARY: The tree of scopes grows block by block along the walk of the checker.
import CSubset.Proofs.Scoping.Nesting
import CSubset.Proofs.Scoping.Scopes
import Mathlib.Data.List.Nodup

/-!
# Growth of scope trees

The checker opens scopes as it walks, tells each one its parent and each parent its children.
`Grows n declared inner t t'` says what a piece of the walk that runs in scope `n` does to the
tree: it passes some declarations in `n`, appends the scopes of some blocks directly inside `n`
with all blocks in them, and leaves everything else alone. It holds of a piece if it holds of its
parts, and for the whole unit it gives the list of scopes (`check_scopes`).
-/

namespace CSubset

/-! ## One scope -/

namespace Scope

theorem bound_children (s : Scope) (x : Symbol) : (s.bound x).children = s.children := by
  unfold bound bind
  repeat' split
  all_goals grind [replace]

/-- A scope behind some declarations in it and with further blocks inside. -/
def grow (declared : Passed) (inside : List Nat) (s : Scope) : Scope :=
  { declared.foldl bound s with children := s.children ++ inside }

/-- The numbers of inner scopes play no part in what names are bound to. -/
theorem bound_withChildren (s : Scope) (x : Symbol) (children : List Nat) :
    ({ s with children := children } : Scope).bound x =
      { s.bound x with children := children } := by
  unfold bound bind find?
  dsimp only
  repeat' split
  all_goals grind [replace]

theorem foldl_bound_withChildren (declared : Passed) (s : Scope) (children : List Nat) :
    declared.foldl bound { s with children := children } =
      { declared.foldl bound s with children := children } := by
  induction declared generalizing s with
  | nil => rfl
  | cons x rest ih => rw [List.foldl_cons, bound_withChildren, ih, List.foldl_cons]

theorem grow_grow (xs ys : Passed) (is js : List Nat) (s : Scope) :
    (s.grow xs is).grow ys js = s.grow (xs ++ ys) (is ++ js) := by
  simp only [grow, foldl_bound_withChildren, List.foldl_append, List.append_assoc]

theorem grow_nothing : grow [] [] = id := by
  funext s
  simp [grow]

theorem grow_single (s : Scope) (x : Symbol) : s.grow [x] [] = s.bound x := by
  rw [grow, List.append_nil, ← s.bound_children x]
  rfl

theorem grow_parent (declared : Passed) (inside : List Nat) (s : Scope) :
    (s.grow declared inside).parent = s.parent := by
  have h : (declared.foldl bound s).parent = s.parent := by
    induction declared generalizing s with
    | nil => rfl
    | cons x rest ih => rw [List.foldl_cons, ih, bound_parent]
  exact h

/-! ## Names of one scope -/

/-- The names that a scope binds, in the order in which they were first declared. -/
def names (s : Scope) : List String := s.symbols.map Symbol.name

theorem find?_eq_none_iff {s : Scope} {name : String} :
    s.find? name = none ↔ name ∉ s.names := by
  simp [find?, names]

theorem replace_names (s : Scope) (x : Symbol) : (s.replace x).names = s.names := by
  simp only [replace, names, List.map_map]
  refine List.map_congr_left fun y _ => ?_
  by_cases hy : y.name = x.name <;> simp [hy]

/-- A declaration adds its name behind the others, unless the scope binds it already. -/
theorem bound_names (s : Scope) (x : Symbol) :
    (s.bound x).names = if x.name ∈ s.names then s.names else s.names ++ [x.name] := by
  unfold bound bind
  cases h : s.find? x.name with
  | none =>
    rw [if_neg (find?_eq_none_iff.mp h)]
    exact List.map_append
  | some held =>
    have hmem : x.name ∈ s.names := List.mem_map.mpr
      ⟨held, List.mem_of_find?_eq_some h, by simpa using List.find?_some h⟩
    rw [if_pos hmem]
    have hreplace := s.replace_names x
    repeat' split
    all_goals grind

theorem mem_bound_names {s : Scope} {x : Symbol} {name : String} :
    name ∈ (s.bound x).names ↔ name ∈ s.names ∨ name = x.name := by
  rw [bound_names]
  split
  · next h => exact ⟨.inl, fun hname => hname.elim id fun heq => heq ▸ h⟩
  · rw [List.mem_append, List.mem_singleton]

theorem bound_names_nodup {s : Scope} (h : s.names.Nodup) (x : Symbol) :
    (s.bound x).names.Nodup := by
  rw [bound_names]
  split
  · exact h
  · next hx => exact List.nodup_append.mpr ⟨h, List.nodup_singleton _, by grind⟩

theorem mem_grow_names {declared : Passed} {inside : List Nat} {s : Scope} {name : String} :
    name ∈ (s.grow declared inside).names ↔
      name ∈ s.names ∨ name ∈ declared.map Symbol.name := by
  have h : name ∈ (declared.foldl bound s).names ↔
      name ∈ s.names ∨ name ∈ declared.map Symbol.name := by
    induction declared generalizing s with
    | nil => simp
    | cons x rest ih =>
      rw [List.foldl_cons, ih, mem_bound_names, List.map_cons, List.mem_cons, or_assoc]
  exact h

theorem grow_names_nodup {s : Scope} (h : s.names.Nodup) (declared : Passed) (inside : List Nat) :
    (s.grow declared inside).names.Nodup := by
  have hfold : (declared.foldl bound s).names.Nodup := by
    induction declared generalizing s with
    | nil => exact h
    | cons x rest ih => exact ih (bound_names_nodup h x)
  exact hfold

end Scope

/-- The scope of a numbered block. -/
def Nest.Placed.scope (x : Placed) : Scope :=
  (Scope.empty x.parent).grow x.nest.declared (starts (x.number + 1) x.nest.inner)

namespace ScopeTree

open Nest

/-! ## Growth of a tree -/

/-- Between `t` and `t'` scope `n` passes some declarations and is given some blocks, whose scopes
and those inside them stand behind all others; no other scope changes. -/
def Grows (n : Nat) (declared : Passed) (inner : List Nest) (t t' : ScopeTree) : Prop :=
  t'.scopes = t.scopes.modify n (Scope.grow declared (starts t.size inner)) ++
    (placesAll (some n) t.size inner).map Placed.scope

variable {n : Nat} {xs ys : Passed} {bs cs : List Nest} {t t' t'' : ScopeTree}

theorem modify_append_of_lt {α : Type} {as bs : List α} (f : α → α) {n : Nat}
    (h : n < as.length) : (as ++ bs).modify n f = as.modify n f ++ bs := by
  induction as generalizing n with
  | nil => exact absurd h (Nat.not_lt_zero n)
  | cons a rest ih =>
    cases n with
    | zero => rfl
    | succ n => exact congrArg (a :: ·) (ih (Nat.lt_of_succ_lt_succ h))

theorem modify_append_length {α : Type} (as : List α) (a : α) (f : α → α) :
    (as ++ [a]).modify as.length f = as ++ [f a] := by
  induction as with
  | nil => rfl
  | cons b rest ih => exact congrArg (b :: ·) ih

namespace Grows

theorem refl (n : Nat) (t : ScopeTree) : Grows n [] [] t t := by
  rw [Grows, starts, Scope.grow_nothing, List.modify_id, placesAll, List.map_nil, List.append_nil]

theorem size (h : Grows n xs bs t t') : t'.size = t.size + (preorderAll bs).length := by
  have hplaces := congrArg List.length (placesAll_nest (some n) t.size bs)
  rw [List.length_map] at hplaces
  rw [ScopeTree.size, h, List.length_append, List.length_modify, List.length_map, hplaces]
  rfl

theorem trans (h : Grows n xs bs t t') (h' : Grows n ys cs t' t'') (hn : n < t.size) :
    Grows n (xs ++ ys) (bs ++ cs) t t'' := by
  have hlt : n < (t.scopes.modify n (Scope.grow xs (starts t.size bs))).length := by
    rw [List.length_modify]
    exact hn
  have hgrow : Scope.grow ys (starts t'.size cs) ∘ Scope.grow xs (starts t.size bs) =
      Scope.grow (xs ++ ys) (starts t.size (bs ++ cs)) := by
    funext s
    rw [starts_append, ← h.size, Function.comp_apply, Scope.grow_grow]
  rw [Grows, h', h, modify_append_of_lt _ hlt, List.modify_modify_eq, hgrow, placesAll_append,
    ← h.size, List.map_append, List.append_assoc]

/-- A scope that was there has grown if it is scope `n`, and else is what it was. -/
theorem scope_eq (h : Grows n xs bs t t') {k : Nat} (hk : k < t.size) :
    t'.scope k = if n = k then (t.scope k).grow xs (starts t.size bs) else t.scope k := by
  have hlt : k < t.scopes.length := hk
  have hmodify : k < (t.scopes.modify n (Scope.grow xs (starts t.size bs))).length := by
    rwa [List.length_modify]
  rw [scope, h, List.getElem?_append_left hmodify, List.getElem?_modify, scope,
    List.getElem?_eq_getElem hlt]
  split <;> rfl

/-- Where nothing is declared, the scopes that were there bind what they did. -/
theorem keeps (h : Grows n [] bs t t') : Keeps t.size t t' := by
  refine ⟨?_, ?_, ?_⟩
  · rw [h.size]
    exact Nat.le_add_right _ _
  · intro k hk
    rw [h.scope_eq hk]
    split <;> rfl
  · intro k hk
    rw [h.scope_eq hk]
    split <;> rfl

/-- A scope that is opened in scope `n` and grows is a block inside `n`. -/
theorem nest {node : Node} (h : Grows t.size xs bs (t.push n) t') :
    Grows n [] [.mk node xs bs] t t' := by
  have hpush : (t.push n).scopes =
      t.scopes.modify n (Scope.grow [] [t.size]) ++ [Scope.empty (some n)] := rfl
  have hlength : (t.scopes.modify n (Scope.grow [] [t.size])).length = t.size :=
    List.length_modify ..
  have hopened := modify_append_length (t.scopes.modify n (Scope.grow [] [t.size]))
    (Scope.empty (some n)) (Scope.grow xs (starts (t.size + 1) bs))
  rw [hlength] at hopened
  rw [Grows, size_push, hpush, hopened] at h
  rw [Grows, h, placesAll_singleton, places_eq, List.map_cons, List.append_assoc]
  rfl

end Grows

theorem grows_declare (x : Symbol) (hn : n < t.size) :
    Grows n [x] [] t (t.declare n x).scopes := by
  have hlt : n < t.scopes.length := hn
  have hscope : t.scope n = t.scopes[n] := by
    rw [scope, List.getElem?_eq_getElem hlt]
    rfl
  have hset : t.scopes.modify n (Scope.grow [x] []) = t.scopes.set n ((t.scope n).bound x) := by
    rw [List.modify_eq_take_cons_drop hlt, List.set_eq_take_append_cons_drop, if_pos hlt, hscope,
      Scope.grow_single]
  rw [Grows, starts, hset, placesAll, List.map_nil, List.append_nil]
  unfold declare add Scope.bound
  cases (t.scope n).bind x with
  | ok s => rfl
  | error held =>
    dsimp only [Except.map]
    rw [hscope, List.set_getElem_self]

/-! ## The walk of the checker -/

theorem Grows.andThen {c : Checked} {next : ScopeTree → Checked} (h : Grows n xs bs t c.scopes)
    (h' : Grows n ys cs c.scopes (next c.scopes).scopes) (hn : n < t.size) :
    Grows n (xs ++ ys) (bs ++ cs) t (c.andThen next).scopes := h.trans h' hn

theorem Grows.lt (h : Grows n xs bs t t') (hn : n < t.size) : n < t'.size := by
  rw [h.size]
  exact Nat.lt_add_right _ hn

end ScopeTree

open ScopeTree

variable {n : Nat} {t : ScopeTree}

theorem Decl.checkAll_grows (ds : List Decl) (hn : n < t.size) :
    Grows n (ds.map Decl.symbol) [] t (Decl.checkAll n ds t).scopes := by
  induction ds generalizing t with
  | nil => exact .refl n t
  | cons d rest ih =>
    have hd : Grows n [d.symbol] [] t (d.check n t).scopes := grows_declare d.symbol hn
    exact hd.andThen (ih (hd.lt hn)) hn

theorem Parameter.checkAll_grows (ps : List Parameter) (hn : n < t.size) :
    Grows n (ps.map Symbol.parameter) [] t (Parameter.checkAll n ps t).scopes := by
  induction ps generalizing t with
  | nil => exact .refl n t
  | cons p rest ih =>
    have hp : Grows n [.parameter p] [] t (p.check n t).scopes := grows_declare (.parameter p) hn
    exact hp.andThen (ih (hp.lt hn)) hn

theorem lt_size_push (t : ScopeTree) (n : Nat) : t.size < (t.push n).size := by
  rw [size_push]
  exact Nat.lt_succ_self _

mutual

theorem Stmt.check_grows (ctx : Context) : ∀ (s : Stmt) {t : ScopeTree}, ctx.scope < t.size →
    Grows ctx.scope [] s.nests t (s.check ctx t).scopes
  | .block body, _, h => body.check_grows ctx h
  | .ifThen _ body _, _, h => body.check_grows ctx h
  | .ifElse _ body alternative _, _, h => by
    have hbody := body.check_grows ctx h
    exact hbody.andThen (alternative.check_grows ctx (hbody.lt h)) h
  | .whileLoop _ body _, _, h => body.check_grows { ctx with inLoop := true } h
  | .forLoop _ _ _ body _, _, h => body.check_grows { ctx with inLoop := true } h
  | .jump _ _, t, _ => .refl ctx.scope t
  | .returnStmt _ _, t, _ => .refl ctx.scope t
  | .expr _ _, t, _ => .refl ctx.scope t

theorem Stmt.checkAll_grows (ctx : Context) : ∀ (ss : List Stmt) {t : ScopeTree},
    ctx.scope < t.size → Grows ctx.scope [] (Stmt.nestsAll ss) t (Stmt.checkAll ctx ss t).scopes
  | [], t, _ => .refl ctx.scope t
  | s :: rest, _, h => by
    have hs := s.check_grows ctx h
    exact hs.andThen (Stmt.checkAll_grows ctx rest (hs.lt h)) h

theorem Block.check_grows (ctx : Context) : ∀ (b : Block) {t : ScopeTree}, ctx.scope < t.size →
    Grows ctx.scope [] [b.nest] t (b.check ctx t).scopes
  | .mk decls stmts _, t, _ => by
    have hopen := lt_size_push t ctx.scope
    have hd := Decl.checkAll_grows decls hopen
    have hs := Stmt.checkAll_grows { ctx with scope := t.size } stmts (hd.lt hopen)
    have hinner := hd.andThen hs hopen
    rw [List.append_nil] at hinner
    exact hinner.nest

end

theorem Prototype.checkBody_grows (returnTypes : Bool) (p : Prototype) (body : Block) :
    Grows root [] [p.bodyNest body] t (p.checkBody returnTypes body t).scopes := by
  have hopen := lt_size_push t root
  have hp := Parameter.checkAll_grows p.parameters hopen
  have hd := hp.andThen (Decl.checkAll_grows body.decls (hp.lt hopen)) hopen
  have hs := Stmt.checkAll_grows ⟨returnTypes, p, t.size, false⟩ body.stmts (hd.lt hopen)
  have hinner := hd.andThen hs hopen
  rw [List.append_nil] at hinner
  exact hinner.nest

theorem External.check_grows (returnTypes : Bool) (d : External) (h : root < t.size) :
    Grows root [d.symbol] d.nests t (d.check returnTypes t).scopes := by
  cases d with
  | decl d => exact grows_declare d.symbol h
  | definition p body =>
    exact (grows_declare (.function p true) h).andThen (p.checkBody_grows returnTypes body) h

theorem External.checkAll_grows (returnTypes : Bool) (ds : List External) (h : root < t.size) :
    Grows root (ds.map External.symbol) (ds.flatMap External.nests) t
      (External.checkAll returnTypes ds t).scopes := by
  induction ds generalizing t with
  | nil => exact .refl root t
  | cons d rest ih =>
    have hd := d.check_grows returnTypes h
    exact hd.andThen (ih (hd.lt h)) h

/-- The scopes of a unit are those of its blocks, in their order. -/
theorem CompilationUnit.check_scopes (u : CompilationUnit) (returnTypes : Bool) :
    (u.check returnTypes).scopes.scopes = (u.nest.places none 0).map Nest.Placed.scope := by
  have h : Grows root _ _ .initial (u.check returnTypes).scopes :=
    External.checkAll_grows returnTypes u.decls Nat.one_pos
  rw [h, Nest.places_eq]
  rfl

end CSubset
