-- SUMMARY: What holds of every tree of scopes that can be built, and which lookups a step can change.
import CSubset.Proofs.Scoping.Views

/-!
# Operations on scope trees

A tree is built from the scope of the file by opening scopes and adding symbols, in any order and
in any scopes that are there. `Run` is such a sequence. Parents and children agree in every tree
that comes out of one (`Consistent`), so a walk outward always ends (`Chain`), and a lookup finds
the nearest binding on it. An added symbol is seen from the scopes that reach its own without
passing another binding of the name.
-/

namespace CSubset

namespace ScopeTree

/-! ## Runs -/

/-- One step of building a tree. -/
inductive Operation where
  | push (parent : Nat)
  | add (n : Nat) (x : Symbol)
deriving DecidableEq, Repr

/-- The scope that an operation is about. -/
def Operation.scope : Operation → Nat
  | push parent => parent
  | add n _ => n

/-- The tree behind an operation; a conflict leaves it alone. -/
def perform (t : ScopeTree) : Operation → ScopeTree
  | .push parent => t.push parent
  | .add n x =>
    match t.add n x with
    | .ok t' => t'
    | .error _ => t

/-- Some operations, each on a scope that is there, lead from one tree to another. -/
inductive Run : ScopeTree → List Operation → ScopeTree → Prop where
  | nil {t : ScopeTree} : Run t [] t
  | cons {t t' : ScopeTree} {op : Operation} {ops : List Operation} (hscope : op.scope < t.size)
      (h : Run (t.perform op) ops t') : Run t (op :: ops) t'

variable {t t' t'' : ScopeTree} {op : Operation} {ops more : List Operation} {n m p : Nat}

/-- The checker declares a symbol by adding it. -/
theorem perform_add (t : ScopeTree) (n : Nat) (x : Symbol) :
    t.perform (.add n x) = (t.declare n x).scopes := by
  unfold declare
  dsimp only [perform]
  cases t.add n x <;> rfl

theorem perform_of_ok {x : Symbol} (h : t.add n x = .ok t') : t.perform (.add n x) = t' := by
  simp only [perform, h]

theorem perform_of_error {x held : Symbol} (h : t.add n x = .error held) :
    t.perform (.add n x) = t := by
  simp only [perform, h]

/-- What a conflict is answered with is what the scope binds the name to. -/
theorem find?_of_error {x held : Symbol} (h : t.add n x = .error held) :
    (t.scope n).find? x.name = some held := by
  unfold add Scope.bind at h
  cases hfind : (t.scope n).find? x.name with
  | none =>
    rw [hfind] at h
    cases h
  | some y =>
    rw [hfind] at h
    dsimp only at h
    repeat' split at h
    all_goals cases h
    all_goals rfl

/-- A property that every operation keeps holds behind a run if it holds in front of it. -/
theorem Run.invariant {P : ScopeTree → Prop} (h : Run t ops t') (ht : P t)
    (step : ∀ {t : ScopeTree} {op : Operation}, op.scope < t.size → P t → P (t.perform op)) :
    P t' := by
  induction h with
  | nil => exact ht
  | cons hscope _ ih => exact ih (step hscope ht)

/-! ## Scopes behind an operation -/

theorem scope_push (p : Nat) (hn : n < t.size) :
    (t.push p).scope n =
      if n = p then { t.scope n with children := (t.scope n).children ++ [t.size] }
      else t.scope n := by
  have hlt : n < t.scopes.length := hn
  simp only [push, scope]
  rw [List.getElem?_append_left (by simpa using hlt), List.getElem?_modify,
    List.getElem?_eq_getElem hlt]
  by_cases hp : n = p
  · simp [hp]
  · simp [hp, Ne.symm hp]

theorem lt_or_eq_of_lt_push (h : n < (t.push p).size) : n < t.size ∨ n = t.size := by
  rw [size_push] at h
  exact Nat.lt_succ_iff_lt_or_eq.mp h

/-- The scopes inside a scope are those that were, and the new one if it is opened there. -/
theorem inside_push :
    m < (t.push p).size ∧ ((t.push p).scope m).parent = some n ↔
      (m < t.size ∧ (t.scope m).parent = some n) ∨ (m = t.size ∧ p = n) := by
  constructor
  · rintro ⟨hm, hparent⟩
    rcases lt_or_eq_of_lt_push hm with hlt | rfl
    · exact .inl ⟨hlt, (scope_push_of_lt p hlt).2.symm.trans hparent⟩
    · rw [scope_push_size] at hparent
      exact .inr ⟨rfl, Option.some.inj hparent⟩
  · rintro (⟨hlt, hparent⟩ | ⟨rfl, rfl⟩)
    · exact ⟨Nat.lt_trans hlt (lt_size_push t p), (scope_push_of_lt p hlt).2.trans hparent⟩
    · rw [scope_push_size]
      exact ⟨lt_size_push t p, rfl⟩

/-- Every scope keeps the scope around it when a symbol is added. -/
theorem scope_declare_parent (t : ScopeTree) (x : Symbol) (hn : n < t.size) (m : Nat) :
    ((t.declare n x).scopes.scope m).parent = (t.scope m).parent := by
  rw [scope_declare t x hn]
  split
  · next hm => rw [hm, Scope.bound_parent]
  · rfl

/-- Every scope keeps the scopes inside it when a symbol is added. -/
theorem scope_declare_children (t : ScopeTree) (x : Symbol) (hn : n < t.size) (m : Nat) :
    ((t.declare n x).scopes.scope m).children = (t.scope m).children := by
  rw [scope_declare t x hn]
  split
  · next hm => rw [hm, Scope.bound_children]
  · rfl

/-! ## Consistency -/

/-- The links between the scopes fit together, and each scope binds a name once. -/
structure Consistent (t : ScopeTree) : Prop where
  root_lt : root < t.size
  root_parent : (t.scope root).parent = none
  parent : ∀ n < t.size, n ≠ root → ∃ p < n, (t.scope n).parent = some p
  increasing : ∀ n < t.size, (t.scope n).children.Pairwise (· < ·)
  children : ∀ n < t.size, ∀ m,
    m ∈ (t.scope n).children ↔ m < t.size ∧ (t.scope m).parent = some n
  names : ∀ n < t.size, (t.scope n).names.Nodup

namespace Consistent

theorem initial : Consistent .initial where
  root_lt := Nat.one_pos
  root_parent := rfl
  parent := fun n hn hroot => absurd (Nat.lt_one_iff.mp hn) hroot
  increasing := fun n hn => by
    rw [Nat.lt_one_iff.mp hn]
    exact .nil
  children := fun n hn m => by
    rw [Nat.lt_one_iff.mp hn]
    refine ⟨fun hm => absurd hm List.not_mem_nil, fun ⟨hm, hparent⟩ => ?_⟩
    rw [Nat.lt_one_iff.mp hm] at hparent
    cases hparent
  names := fun n hn => by
    rw [Nat.lt_one_iff.mp hn]
    exact .nil

/-- The parent of a scope is in front of it. -/
theorem parent_lt (h : t.Consistent) (hn : n < t.size) (hp : (t.scope n).parent = some p) :
    p < n := by
  by_cases hroot : n = root
  · subst hroot
    cases h.root_parent.symm.trans hp
  · obtain ⟨q, hq, hparent⟩ := h.parent n hn hroot
    cases hparent.symm.trans hp
    exact hq

theorem push (h : t.Consistent) (hp : p < t.size) : (t.push p).Consistent := by
  refine ⟨?_, ?_, ?_, ?_, ?_, ?_⟩
  · rw [size_push]
    exact Nat.lt_succ_of_lt h.root_lt
  · rw [(scope_push_of_lt p h.root_lt).2, h.root_parent]
  · intro n hn hroot
    rcases lt_or_eq_of_lt_push hn with hlt | rfl
    · rw [(scope_push_of_lt p hlt).2]
      exact h.parent n hlt hroot
    · rw [scope_push_size]
      exact ⟨p, hp, rfl⟩
  · intro n hn
    rcases lt_or_eq_of_lt_push hn with hlt | rfl
    · rw [scope_push p hlt]
      split
      · refine List.pairwise_append.mpr
          ⟨h.increasing n hlt, List.pairwise_singleton _ _, fun m hm k hk => ?_⟩
        rw [List.mem_singleton.mp hk]
        exact ((h.children n hlt m).mp hm).1
      · exact h.increasing n hlt
    · rw [scope_push_size]
      exact .nil
  · intro n hn m
    rw [inside_push]
    rcases lt_or_eq_of_lt_push hn with hlt | rfl
    · rw [scope_push p hlt]
      split
      · next hnp =>
        subst hnp
        simp [h.children n hlt m]
      · next hnp => simp [h.children n hlt m, Ne.symm hnp]
    · rw [scope_push_size]
      refine ⟨fun hmem => absurd hmem List.not_mem_nil, ?_⟩
      -- No parent is the new scope: those of the others are in front of them.
      rintro (⟨hlt, hparent⟩ | ⟨rfl, rfl⟩)
      · exact absurd (h.parent_lt hlt hparent) (Nat.lt_asymm hlt)
      · exact absurd hp (Nat.lt_irrefl _)
  · intro n hn
    rcases lt_or_eq_of_lt_push hn with hlt | rfl
    · rw [Scope.names, (scope_push_of_lt p hlt).1]
      exact h.names n hlt
    · rw [scope_push_size]
      exact .nil

theorem declare (h : t.Consistent) (hn : n < t.size) (x : Symbol) :
    (t.declare n x).scopes.Consistent := by
  have hsize := size_declare t n x
  refine ⟨hsize.symm ▸ h.root_lt, ?_, ?_, ?_, ?_, ?_⟩
  · rw [scope_declare_parent t x hn, h.root_parent]
  · intro m hm hroot
    rw [scope_declare_parent t x hn]
    exact h.parent m (hsize ▸ hm) hroot
  · intro m hm
    rw [scope_declare_children t x hn]
    exact h.increasing m (hsize ▸ hm)
  · intro m hm k
    rw [scope_declare_children t x hn, scope_declare_parent t x hn, hsize]
    exact h.children m (hsize ▸ hm) k
  · intro m hm
    rw [scope_declare t x hn]
    split
    · exact Scope.bound_names_nodup (h.names n hn) x
    · exact h.names m (hsize ▸ hm)

theorem perform (hscope : op.scope < t.size) (h : t.Consistent) : (t.perform op).Consistent := by
  cases op with
  | push p => exact h.push hscope
  | add n x =>
    rw [perform_add]
    exact h.declare hscope x

theorem of_run (h : Run .initial ops t) : t.Consistent := h.invariant initial perform

/-- The entry of a name is the one symbol of that name. -/
theorem find?_eq_some (h : t.Consistent) (hn : n < t.size) {name : String} {x : Symbol} :
    (t.scope n).find? name = some x ↔ x ∈ (t.scope n).symbols ∧ x.name = name := by
  constructor
  · intro hfind
    exact ⟨List.mem_of_find?_eq_some hfind, by simpa using List.find?_some hfind⟩
  · rintro ⟨hmem, rfl⟩
    cases hfind : (t.scope n).find? x.name with
    | none => exact absurd (List.mem_map_of_mem hmem) (Scope.find?_eq_none_iff.mp hfind)
    | some y =>
      have hy : y.name = x.name := by simpa using List.find?_some hfind
      exact congrArg some
        (List.inj_on_of_nodup_map (h.names n hn) (List.mem_of_find?_eq_some hfind) hmem hy)

end Consistent

/-! ## Walking outward -/

/-- The scopes from a scope outward, up to one that has no scope around it. -/
inductive Chain (t : ScopeTree) : Nat → List Nat → Prop where
  | file {n : Nat} (hp : (t.scope n).parent = none) : Chain t n [n]
  | inner {n p : Nat} {ns : List Nat} (hp : (t.scope n).parent = some p) (h : Chain t p ns) :
      Chain t n (n :: ns)

/-- From scope `m` outward, scope `n` is met before any other scope that binds the name. -/
def Reaches (t : ScopeTree) (m n : Nat) (name : String) : Prop :=
  ∃ nearer outer, t.Chain m (nearer ++ n :: outer) ∧ ∀ k ∈ nearer, (t.scope k).find? name = none

/-- The walk from every scope ends, and a lookup finds the first binding on it. -/
theorem Consistent.chain (h : t.Consistent) (hn : n < t.size) :
    ∃ ns, t.Chain n ns ∧
      ∀ name, t.lookup n name = ns.findSome? fun m => (t.scope m).find? name := by
  induction n using Nat.strongRecOn with
  | ind n ih =>
    cases hparent : (t.scope n).parent with
    | none =>
      refine ⟨[n], .file hparent, fun name => ?_⟩
      rw [lookup, List.findSome?_cons, hparent]
      cases (t.scope n).find? name <;> rfl
    | some p =>
      have hlt := h.parent_lt hn hparent
      obtain ⟨ns, hchain, hlookup⟩ := ih p hlt (Nat.lt_trans hlt hn)
      refine ⟨n :: ns, .inner hparent hchain, fun name => ?_⟩
      rw [lookup, List.findSome?_cons, hparent]
      cases (t.scope n).find? name with
      | some x => rfl
      | none => simpa [hlt] using hlookup name

theorem Consistent.reaches_self (h : t.Consistent) (hn : n < t.size) (name : String) :
    t.Reaches n n name := by
  obtain ⟨ns, hchain, -⟩ := h.chain hn
  refine ⟨[], ns.tail, ?_, fun k hk => absurd hk List.not_mem_nil⟩
  cases hchain with
  | file hp => exact .file hp
  | inner hp hrest => exact .inner hp hrest

theorem Reaches.inner {name : String} (h : t.Reaches p n name) (hp : (t.scope m).parent = some p)
    (hnone : (t.scope m).find? name = none) : t.Reaches m n name := by
  obtain ⟨nearer, outer, hchain, hnearer⟩ := h
  exact ⟨m :: nearer, outer, .inner hp hchain, List.forall_mem_cons.mpr ⟨hnone, hnearer⟩⟩

/-- An added symbol changes what its name stands for, in the scopes that reach its own. -/
theorem Consistent.reaches_of_lookup_ne (h : t.Consistent) (hn : n < t.size) (hm : m < t.size)
    {x : Symbol} {name : String}
    (hne : (t.declare n x).scopes.lookup m name ≠ t.lookup m name) :
    x.name = name ∧ t.Reaches m n name := by
  induction m using Nat.strongRecOn with
  | ind m ih =>
    by_cases hmn : m = n
    · subst hmn
      rw [lookup_declare hm] at hne
      split at hne
      · next hname => exact ⟨hname, h.reaches_self hm name⟩
      · exact absurd rfl hne
    · rw [lookup, lookup, scope_declare t x hn, if_neg hmn] at hne
      cases hfind : (t.scope m).find? name with
      | some y => simp [hfind] at hne
      | none =>
        cases hparent : (t.scope m).parent with
        | none => simp [hfind, hparent] at hne
        | some p =>
          have hlt := h.parent_lt hm hparent
          have hinner : (t.declare n x).scopes.lookup p name ≠ t.lookup p name := by
            simpa [hfind, hparent, hlt] using hne
          obtain ⟨hname, hreaches⟩ := ih p hlt (Nat.lt_trans hlt hm) hinner
          exact ⟨hname, hreaches.inner hparent hfind⟩

/-- Every tree that can be built is consistent, and a lookup in it finds the nearest binding. A new
scope sees what its parent sees and hides nothing. A symbol that conflicts with a binding of its
scope is left out, and any other changes its name at most in the scopes that reach its own. -/
theorem lookup_of_run (h : Run .initial ops t) :
    t.Consistent ∧
    (∀ n < t.size, ∀ name x,
      (t.scope n).find? name = some x ↔ x ∈ (t.scope n).symbols ∧ x.name = name) ∧
    (∀ n < t.size, ∃ ns, t.Chain n ns ∧
      ∀ name, t.lookup n name = ns.findSome? fun m => (t.scope m).find? name) ∧
    (∀ p < t.size, (∀ n < t.size, (t.push p).lookup n = t.lookup n) ∧
      (t.push p).lookup t.size = t.lookup p) ∧
    (∀ n < t.size, ∀ x held, t.add n x = .error held →
      t.perform (.add n x) = t ∧ (t.scope n).find? x.name = some held) ∧
    (∀ n < t.size, ∀ x t', t.add n x = .ok t' → ∀ m < t.size, ∀ name,
      t'.lookup m name ≠ t.lookup m name → x.name = name ∧ t.Reaches m n name) := by
  have hconsistent := Consistent.of_run h
  refine ⟨hconsistent, ?_, ?_, ?_, ?_, ?_⟩
  · intro n hn name x
    exact hconsistent.find?_eq_some hn
  · intro n hn
    exact hconsistent.chain hn
  · intro p hp
    exact ⟨fun n hn => (keeps_push t p).lookup hn, lookup_push hp⟩
  · intro n _ x held herror
    exact ⟨perform_of_error herror, find?_of_error herror⟩
  · intro n hn x t' hok m hm name hne
    rw [← perform_of_ok hok, perform_add] at hne
    exact hconsistent.reaches_of_lookup_ne hn hm hne

/-- An integer in the file and a character of the same name in a block, with a block inside that
one and a block beside it. -/
def shadowing : List Operation :=
  [.add 0 (.var "x" ⟨.int, false, 0, []⟩ false ⟨1, 5⟩), .push 0, .push 0, .push 1,
    .add 1 (.var "x" ⟨.char, false, 0, []⟩ false ⟨2, 8⟩)]

/-- The inner block sees the character, and the block beside it the integer. An array of the same
name conflicts; a variable of another name is seen from the two blocks that reach it. -/
theorem lookup_of_run_shadowing :
    ∃ t, Run .initial shadowing t ∧ t.size = 4 ∧ t.Consistent ∧
      t.lookup 3 "x" = some (.var "x" ⟨.char, false, 0, []⟩ false ⟨2, 8⟩) ∧
      (t.push 3).lookup t.size = t.lookup 3 ∧
      t.lookup 2 "x" = some (.var "x" ⟨.int, false, 0, []⟩ false ⟨1, 5⟩) ∧
      t.perform (.add 1 (.var "x" ⟨.char, false, 0, [4]⟩ false ⟨3, 8⟩)) = t ∧
      ∃ t', t.add 1 (.var "y" ⟨.int, false, 0, []⟩ false ⟨3, 7⟩) = .ok t' ∧
        ∀ m < t.size, ∀ name, t'.lookup m name ≠ t.lookup m name →
          "y" = name ∧ t.Reaches m 1 name := by
  have hrun : Run .initial shadowing (shadowing.foldl perform .initial) :=
    .cons (by decide) (.cons (by decide) (.cons (by decide) (.cons (by decide)
      (.cons (by decide) .nil))))
  obtain ⟨hconsistent, -, -, hpush, hconflict, hadd⟩ := lookup_of_run hrun
  refine ⟨_, hrun, by decide, hconsistent, by decide +kernel, (hpush 3 (by decide)).2,
    by decide +kernel, ?_, _, rfl, ?_⟩
  · exact (hconflict 1 (by decide) _ (.var "x" ⟨.char, false, 0, []⟩ false ⟨2, 8⟩) (by decide)).1
  · exact hadd 1 (by decide) (.var "y" ⟨.int, false, 0, []⟩ false ⟨3, 7⟩) _ rfl

end ScopeTree

end CSubset
