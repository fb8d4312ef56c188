-- SUMMARY: Scope trees that show the blocks of a program, and what opening scopes and declaring names does to them.
import CSubset.Check.Unit
import CSubset.Proofs.Scoping.Lexical

/-!
# Scopes and blocks

The checker keeps all scopes in one list and walks from a scope to the one around it by number.
`Shows t n blocks` says that from scope `n` outward the tree `t` binds what the given blocks
bind, so that looking a name up is resolving it (`Shows.lookup`). Opening a scope and declaring
a name keep a tree in step with the blocks. `Keeps k` is the frame: the first `k` scopes bind
what they did before.
-/

namespace CSubset

/-! ## One scope -/

namespace Scope

/-- A scope behind a declaration, which changes nothing if it conflicts. -/
def bound (s : Scope) (x : Symbol) : Scope :=
  match s.bind x with
  | .ok s => s
  | .error _ => s

@[simp] theorem bound_parent (s : Scope) (x : Symbol) : (s.bound x).parent = s.parent := by
  unfold bound bind
  repeat' split
  all_goals grind [replace]

theorem replace_find? (s : Scope) (x : Symbol) (name : String) :
    (s.replace x).find? name =
      (s.find? name).map fun y => if y.name = x.name then x else y := by
  have hname : ((fun y : Symbol => decide (y.name = name)) ∘
      fun y => if y.name = x.name then x else y) = fun y => decide (y.name = name) := by
    funext y
    by_cases hy : y.name = x.name
    · simp [hy]
    · simp [hy]
  rw [find?, find?, replace, List.find?_map, hname]

/-- A declaration settles what its name is bound to, and touches no other name. -/
theorem bound_find? (s : Scope) (x : Symbol) (name : String) :
    (s.bound x).find? name =
      if x.name = name then some (settle (s.find? name) x) else s.find? name := by
  unfold bound bind
  cases hf : s.find? x.name with
  | none =>
    have happend : ({ s with symbols := s.symbols ++ [x] } : Scope).find? name =
        (s.find? name).or (if x.name = name then some x else none) := by
      simp only [find?, List.find?_append, List.find?_singleton, decide_eq_true_eq]
    dsimp only
    rw [happend]
    split
    · next hname => rw [← hname, hf, Option.none_or, settle]
    · rw [Option.or_none]
  | some held =>
    have hheld : held.name = x.name := by
      simpa using List.find?_some hf
    have hkept : x.name = name → s.find? name = some held := fun hname => hname ▸ hf
    dsimp only
    by_cases hagree : held.agrees x = true
    · by_cases hforward : x.isForward = true
      · simp only [hagree, hforward, Bool.not_true, Bool.false_eq_true, if_false, if_true]
        split
        · next hname => simp [hkept hname, settle, hforward]
        · rfl
      · by_cases hopen : held.isForward = true
        · simp only [hagree, hforward, hopen, Bool.not_true, Bool.false_eq_true, if_false, if_true,
            replace_find?]
          split
          · next hname => simp [hkept hname, settle, hagree, hforward, hopen, hheld]
          · next hname =>
            cases hs : s.find? name with
            | none => rfl
            | some y =>
              have hy : y.name = name := by
                simpa using List.find?_some hs
              simp [hy, Ne.symm hname]
        · simp only [hagree, hforward, hopen, Bool.not_true, Bool.false_eq_true, if_false]
          split
          · next hname => simp [hkept hname, settle, hopen]
          · rfl
    · simp only [hagree, Bool.not_false, if_true]
      split
      · next hname => simp [hkept hname, settle, hagree]
      · rfl

end Scope

/-! ## The list of scopes -/

namespace ScopeTree

variable {t t' t'' : ScopeTree} {k n m : Nat}

theorem size_push (t : ScopeTree) (p : Nat) : (t.push p).size = t.size + 1 := by
  simp [push, size]

theorem scope_push_size (t : ScopeTree) (p : Nat) :
    (t.push p).scope t.size = Scope.empty (some p) := by
  simp [push, scope, size]

theorem scope_push_of_lt (p : Nat) (hn : n < t.size) :
    ((t.push p).scope n).symbols = (t.scope n).symbols ∧
      ((t.push p).scope n).parent = (t.scope n).parent := by
  have hlt : n < t.scopes.length := hn
  simp only [push, scope]
  rw [List.getElem?_append_left (by simpa using hlt), List.getElem?_modify,
    List.getElem?_eq_getElem hlt]
  by_cases hp : p = n <;> simp [hp]

theorem scope_declare (t : ScopeTree) (x : Symbol) (hn : n < t.size) (m : Nat) :
    (t.declare n x).scopes.scope m = if m = n then (t.scope n).bound x else t.scope m := by
  have hlt : n < t.scopes.length := hn
  unfold declare add Scope.bound
  cases (t.scope n).bind x with
  | error held =>
    dsimp only [Except.map]
    split
    · next hm => rw [hm]
    · rfl
  | ok s =>
    dsimp only [Except.map, scope]
    rw [List.getElem?_set]
    by_cases hm : m = n
    · simp [hm, hlt]
    · simp [hm, Ne.symm hm]

theorem size_declare (t : ScopeTree) (n : Nat) (x : Symbol) :
    (t.declare n x).scopes.size = t.size := by
  unfold declare add
  cases (t.scope n).bind x with
  | error held => rfl
  | ok s => simp [Except.map, size]

/-! ## What is kept -/

/-- The first `k` scopes bind the same symbols and have the same scopes around them. -/
structure Keeps (k : Nat) (t t' : ScopeTree) : Prop where
  size : t.size ≤ t'.size
  symbols : ∀ n < k, (t'.scope n).symbols = (t.scope n).symbols
  parent : ∀ n < k, (t'.scope n).parent = (t.scope n).parent

theorem Keeps.refl (k : Nat) (t : ScopeTree) : Keeps k t t :=
  ⟨Nat.le_refl _, fun _ _ => rfl, fun _ _ => rfl⟩

theorem Keeps.trans (h : Keeps k t t') (h' : Keeps k t' t'') : Keeps k t t'' :=
  ⟨Nat.le_trans h.size h'.size, fun n hn => (h'.symbols n hn).trans (h.symbols n hn),
    fun n hn => (h'.parent n hn).trans (h.parent n hn)⟩

theorem Keeps.mono (hle : m ≤ k) (h : Keeps k t t') : Keeps m t t' :=
  ⟨h.size, fun n hn => h.symbols n (Nat.lt_of_lt_of_le hn hle),
    fun n hn => h.parent n (Nat.lt_of_lt_of_le hn hle)⟩

theorem keeps_push (t : ScopeTree) (p : Nat) : Keeps t.size t (t.push p) :=
  ⟨by rw [size_push]; exact Nat.le_succ _, fun _ hn => (scope_push_of_lt p hn).1,
    fun _ hn => (scope_push_of_lt p hn).2⟩

/-- A declaration touches no scope but its own. -/
theorem keeps_declare (t : ScopeTree) (x : Symbol) (hn : n < t.size) :
    Keeps n t (t.declare n x).scopes := by
  have hne : ∀ m < n, (t.declare n x).scopes.scope m = t.scope m := by
    intro m hm
    rw [scope_declare t x hn, if_neg (Nat.ne_of_lt hm)]
  exact ⟨Nat.le_of_eq (size_declare t n x).symm, fun m hm => congrArg Scope.symbols (hne m hm),
    fun m hm => congrArg Scope.parent (hne m hm)⟩

/-! ## Trees and blocks -/

/-- A scope binds what some declarations bind. -/
def Binds (t : ScopeTree) (n : Nat) (passed : Passed) : Prop :=
  ∀ name, (t.scope n).find? name = binding passed name

/-- From scope `n` outward the tree binds what the blocks bind, the innermost first. -/
inductive Shows (t : ScopeTree) : Nat → List Passed → Prop where
  | file {n : Nat} {passed : Passed} (hn : n < t.size) (hp : (t.scope n).parent = none)
      (hb : t.Binds n passed) : Shows t n [passed]
  | inner {n p : Nat} {passed : Passed} {blocks : List Passed} (hn : n < t.size)
      (hp : (t.scope n).parent = some p) (hlt : p < n) (hb : t.Binds n passed)
      (h : Shows t p blocks) : Shows t n (passed :: blocks)

variable {blocks : List Passed} {passed : Passed}

theorem Shows.lt (h : Shows t n blocks) : n < t.size := by
  cases h with
  | file hn => exact hn
  | inner hn => exact hn

/-- The scope itself binds what the innermost block does. -/
theorem Shows.binds (h : Shows t n (passed :: blocks)) : t.Binds n passed := by
  cases h with
  | file _ _ hb => exact hb
  | inner _ _ _ hb => exact hb

/-- Looking a name up is resolving it in the blocks that the tree shows. -/
theorem Shows.lookup (h : Shows t n blocks) : t.lookup n = resolve blocks := by
  funext name
  induction h with
  | file hn hp hb =>
    rw [ScopeTree.lookup, hb name, resolve_cons]
    cases binding _ name with
    | some x => rfl
    | none => simp [hp, resolve]
  | inner hn hp hlt hb h ih =>
    rw [ScopeTree.lookup, hb name, resolve_cons]
    cases binding _ name with
    | some x => rfl
    | none => simp [hp, hlt, ih]

/-- Blocks are shown as long as the scopes they are in are kept. -/
theorem Shows.keep (h : Shows t n blocks) (hk : Keeps k t t') (hn : n < k) :
    Shows t' n blocks := by
  have binds {n : Nat} {passed : Passed} (hn : n < k) (hb : t.Binds n passed) :
      t'.Binds n passed := by
    intro name
    rw [← hb name, Scope.find?, Scope.find?, hk.symbols n hn]
  induction h with
  | file hlt hp hb =>
    exact .file (Nat.lt_of_lt_of_le hlt hk.size) ((hk.parent _ hn).trans hp) (binds hn hb)
  | inner hlt hp hpn hb h ih =>
    exact .inner (Nat.lt_of_lt_of_le hlt hk.size) ((hk.parent _ hn).trans hp) hpn (binds hn hb)
      (ih (Nat.lt_trans hpn hn))

/-- A scope that has just been opened shows a block without declarations. -/
theorem Shows.push (h : Shows t n blocks) : Shows (t.push n) t.size ([] :: blocks) := by
  have hscope := scope_push_size t n
  refine .inner ?_ ?_ h.lt ?_ (h.keep (keeps_push t n) h.lt)
  · rw [size_push]
    exact Nat.lt_succ_self _
  · rw [hscope]
    rfl
  · intro name
    rw [hscope]
    rfl

/-- A declaration is passed in the block of its scope. -/
theorem Shows.declare (h : Shows t n (passed :: blocks)) (x : Symbol) :
    Shows (t.declare n x).scopes n ((passed ++ [x]) :: blocks) := by
  have hlt := h.lt
  have hsize : n < (t.declare n x).scopes.size := by
    rw [size_declare]
    exact hlt
  have hscope : (t.declare n x).scopes.scope n = (t.scope n).bound x := by
    rw [scope_declare t x hlt, if_pos rfl]
  have binds (hb : t.Binds n passed) : (t.declare n x).scopes.Binds n (passed ++ [x]) := by
    intro name
    rw [hscope, Scope.bound_find?, hb name, binding_concat]
  cases h with
  | file hn hp hb =>
    exact .file hsize (by rw [hscope, Scope.bound_parent, hp]) (binds hb)
  | inner hn hp hpn hb h =>
    exact .inner hsize (by rw [hscope, Scope.bound_parent, hp]) hpn (binds hb)
      (h.keep (keeps_declare t x hlt) hpn)

theorem shows_initial : Shows .initial root [[]] := .file Nat.one_pos rfl fun _ => rfl

end ScopeTree

end CSubset
