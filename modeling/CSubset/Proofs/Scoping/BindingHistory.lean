-- SUMMARY: What a name is bound to behind any declarations of it in a scope, and which are accepted.
import CSubset.Proofs.Scoping.Operations
import Mathlib.Data.List.Count

/-!
# Histories of a binding

Of all that is done to a tree of scopes, the binding of one name in one scope depends only on the
symbols of that name that are added to that scope (`declared`), and of those on the first and on
the first definition that completes it (`definitive`). So a binding changes at most once, and the
declarations of one signature with at most one definition among them are accepted in every order.
-/

namespace CSubset

/-! ## Agreement -/

namespace Symbol

variable {x y z : Symbol}

theorem agrees_comm (x y : Symbol) : x.agrees y = y.agrees x := by
  cases x <;> cases y <;> simp only [agrees, eq_comm]

theorem agrees_trans (h : x.agrees y) (h' : y.agrees z) : x.agrees z := by
  cases x <;> cases y <;> cases z <;> simp_all [agrees]

/-- Symbols that agree also agree with the same symbols. -/
theorem agrees_congr (h : x.agrees y) (z : Symbol) : x.agrees z = y.agrees z :=
  Bool.eq_iff_iff.mpr ⟨agrees_trans (agrees_comm x y ▸ h), agrees_trans h⟩

/-- One symbol is a definition and completes the other, a forward declaration. -/
def Completes (y x : Symbol) : Prop := x.isForward ∧ ¬ y.isForward ∧ x.agrees y

end Symbol

open CSubset.Symbol

/-- What is left of the declarations of one name in one scope: the first, or in its place the first
definition behind it that it agrees with, if it is a forward declaration. -/
def definitive : List Symbol → Option Symbol
  | [] => none
  | first :: later =>
    if first.isForward then
      some ((later.find? fun x => !x.isForward && first.agrees x).getD first)
    else some first

/-- A name that is bound is settled to what is definitive. -/
theorem foldl_settle (first : Symbol) (later : List Symbol) :
    later.foldl (fun held x => some (settle held x)) (some first) =
      definitive (first :: later) := by
  induction later generalizing first with
  | nil => simp [definitive]
  | cons x rest ih =>
    rw [List.foldl_cons, ih]
    by_cases h : first.agrees x ∧ first.isForward ∧ ¬ x.isForward
    · have hsettle : settle (some first) x = x := if_pos h
      simp [hsettle, definitive, h]
    · have hsettle : settle (some first) x = first := if_neg h
      rw [hsettle, definitive, definitive]
      split
      · next hforward =>
        have hskip : (!x.isForward && first.agrees x) = false := by grind
        rw [List.find?_cons, hskip]
      · rfl

/-- What is definitive is the first declaration or completes it. -/
theorem definitive_cases {first held : Symbol} {later : List Symbol}
    (h : definitive (first :: later) = some held) :
    held = first ∨ held ∈ later ∧ held.Completes first := by
  rw [definitive] at h
  split at h
  · next hforward =>
    cases hfind : later.find? fun x => !x.isForward && first.agrees x with
    | none =>
      rw [hfind] at h
      exact .inl (Option.some.inj h).symm
    | some x =>
      rw [hfind] at h
      cases h
      have hx := List.find?_some hfind
      simp only [Bool.and_eq_true, Bool.not_eq_true'] at hx
      exact .inr ⟨List.mem_of_find?_eq_some hfind, hforward, by simp [hx.1], hx.2⟩
  · exact .inl (Option.some.inj h).symm

theorem definitive_mem {xs : List Symbol} {held : Symbol} (h : definitive xs = some held) :
    held ∈ xs := by
  cases xs with
  | nil => cases h
  | cons first later =>
    rcases definitive_cases h with rfl | ⟨hmem, -⟩
    · exact List.mem_cons_self
    · exact List.mem_cons_of_mem _ hmem

/-! ## Declarations that fit together -/

/-- Any two of the declarations agree, and at most one of them is a definition. -/
structure Compatible (xs : List Symbol) : Prop where
  agree : xs.Pairwise fun x y => x.agrees y
  one : xs.countP (fun x => !x.isForward) ≤ 1

namespace Compatible

variable {xs ys : List Symbol} {x y : Symbol}

/-- The order of the declarations plays no part. -/
theorem perm (h : Compatible xs) (hperm : ys.Perm xs) : Compatible ys := by
  refine ⟨?_, ?_⟩
  · refine (hperm.pairwise_iff fun {x y} hxy => ?_).mpr h.agree
    rwa [agrees_comm]
  · rw [hperm.countP_eq]
    exact h.one

/-- Of two declarations, one behind the other, one is a forward declaration. -/
theorem forward {zs : List Symbol} (h : Compatible (xs ++ y :: zs)) (hx : x ∈ xs) :
    x.isForward ∨ y.isForward := by
  by_contra hboth
  rw [not_or, Bool.not_eq_true, Bool.not_eq_true] at hboth
  have hone := h.one
  have hpos : 0 < xs.countP fun x => !x.isForward :=
    List.countP_pos_iff.mpr ⟨x, hx, by simp [hboth.1]⟩
  rw [List.countP_append, List.countP_cons_of_pos (by simp [hboth.2])] at hone
  omega

theorem agrees {zs : List Symbol} (h : Compatible (xs ++ y :: zs)) (hx : x ∈ xs) : x.agrees y :=
  (List.pairwise_append.mp h.agree).2.2 x hx y List.mem_cons_self

/-- If there is a definition, it is definitive. -/
theorem definitive_eq (h : Compatible xs) (hx : x ∈ xs) (hdefined : ¬ x.isForward) :
    definitive xs = some x := by
  obtain ⟨pre, post, rfl⟩ := List.append_of_mem hx
  cases pre with
  | nil => exact if_neg hdefined
  | cons first later =>
    have hforward : ∀ y ∈ first :: later, y.isForward := fun y hy =>
      (h.forward hy).resolve_right hdefined
    have hlater : later.find? (fun y => !y.isForward && first.agrees y) = none := by
      rw [List.find?_eq_none]
      intro y hy
      simp [hforward y (List.mem_cons_of_mem _ hy)]
    have hfirst : first.agrees x := h.agrees List.mem_cons_self
    simp [definitive, hforward first List.mem_cons_self, List.find?_append, hlater, hdefined,
      hfirst]

end Compatible

/-! ## Histories -/

namespace ScopeTree

variable {t t' t'' s : ScopeTree} {op : Operation} {ops more more' : List Operation} {n m : Nat}
  {name : String} {x y : Symbol}

/-- The symbols of one name that are added to one scope, in order. -/
def declared (n : Nat) (name : String) (ops : List Operation) : List Symbol :=
  ops.filterMap fun op =>
    match op with
    | .push _ => none
    | .add m x => if m = n ∧ x.name = name then some x else none

/-- During a run from `t` the symbol is added to scope `n` of the tree `s`. -/
def Adds (t : ScopeTree) (ops : List Operation) (s : ScopeTree) (n : Nat) (x : Symbol) : Prop :=
  ∃ pre post, ops = pre ++ .add n x :: post ∧ Run t pre s

/-- The symbol may be added to the scope. -/
def Accepts (t : ScopeTree) (n : Nat) (x : Symbol) : Prop := ∃ t', t.add n x = .ok t'

theorem declared_append (n : Nat) (name : String) (ops more : List Operation) :
    declared n name (ops ++ more) = declared n name ops ++ declared n name more :=
  List.filterMap_append

theorem declared_add (ops : List Operation) (hname : x.name = name) :
    declared n name (.add n x :: ops) = x :: declared n name ops := by
  simp [declared, hname]

theorem declared_other (ops : List Operation) (hop : ∀ x : Symbol, x.name = name → op ≠ .add n x) :
    declared n name (op :: ops) = declared n name ops := by
  cases op with
  | push p => rfl
  | add m x =>
    have hne : ¬ (m = n ∧ x.name = name) := by
      rintro ⟨rfl, hname⟩
      exact hop x hname rfl
    simp [declared, hne]

theorem adds_cons (hscope : op.scope < t.size) :
    Adds t (op :: ops) s n x ↔ (op = .add n x ∧ s = t) ∨ Adds (t.perform op) ops s n x := by
  constructor
  · rintro ⟨pre, post, heq, hrun⟩
    cases hrun with
    | nil => exact .inl ⟨(List.cons.inj heq).1, rfl⟩
    | cons _ hrest =>
      obtain ⟨rfl, rfl⟩ := List.cons.inj heq
      exact .inr ⟨_, post, rfl, hrest⟩
  · rintro (⟨rfl, rfl⟩ | ⟨pre, post, rfl, hrun⟩)
    · exact ⟨[], ops, rfl, .nil⟩
    · exact ⟨op :: pre, post, rfl, .cons hscope hrun⟩

/-- A symbol is accepted unless the scope binds its name to something that does not agree with it
or that it would define again. -/
theorem accepts_iff :
    t.Accepts n x ↔
      ∀ held, (t.scope n).find? x.name = some held →
        held.agrees x ∧ (x.isForward ∨ held.isForward) := by
  unfold Accepts add Scope.bind
  cases (t.scope n).find? x.name with
  | none => simp [Except.map]
  | some held =>
    cases hagree : held.agrees x <;> cases hforward : x.isForward <;>
      cases hheld : held.isForward <;> simp [Except.map, hagree, hheld]

/-! ## One operation -/

theorem find?_initial (n : Nat) (name : String) : (initial.scope n).find? name = none := by
  cases n <;> rfl

theorem find?_push (t : ScopeTree) (p n : Nat) (name : String) :
    ((t.push p).scope n).find? name = (t.scope n).find? name := by
  rcases Nat.lt_trichotomy n t.size with hlt | rfl | hgt
  · rw [Scope.find?, Scope.find?, (scope_push_of_lt p hlt).1]
  · rw [scope_push_size]
    simp only [scope, size, List.getElem?_eq_none (Nat.le_refl _)]
    rfl
  · have hsize : t.size + 1 ≤ n := hgt
    have hpush : (t.push p).scopes.length = t.size + 1 := size_push t p
    rw [scope, scope, List.getElem?_eq_none (hpush ▸ hsize),
      List.getElem?_eq_none (Nat.le_of_lt hgt)]

/-- An operation leaves a name alone that it does not declare. -/
theorem find?_perform_other (hscope : op.scope < t.size)
    (hop : ∀ x : Symbol, x.name = name → op ≠ .add n x) :
    ((t.perform op).scope n).find? name = (t.scope n).find? name := by
  cases op with
  | push p => exact find?_push t p n name
  | add m x =>
    have hm : m < t.size := hscope
    rw [perform_add, scope_declare t x hm]
    split
    · next hn =>
      subst hn
      rw [Scope.bound_find?, if_neg fun hname => hop x hname rfl]
    · rfl

theorem find?_perform_add (hn : n < t.size) (hname : x.name = name) :
    ((t.perform (.add n x)).scope n).find? name =
      some (settle ((t.scope n).find? name) x) := by
  rw [perform_add, scope_declare t x hn, if_pos rfl, Scope.bound_find?, if_pos hname]

/-- An operation declares a name in a scope, or it does not. -/
theorem Operation.declares (op : Operation) (n : Nat) (name : String) :
    (∃ x, x.name = name ∧ op = .add n x) ∨ ∀ x : Symbol, x.name = name → op ≠ .add n x := by
  by_cases h : ∃ x : Symbol, x.name = name ∧ op = .add n x
  · exact .inl h
  · exact .inr fun x hname hop => h ⟨x, hname, hop⟩

/-- An operation leaves nothing but a forward declaration behind exactly if it finds nothing else
and adds no definition that is accepted. -/
theorem isForward_perform_iff (hscope : op.scope < t.size) :
    (∀ held ∈ ((t.perform op).scope n).find? name, held.isForward) ↔
      (∀ held ∈ (t.scope n).find? name, held.isForward) ∧
        ∀ y, op = .add n y → y.name = name → t.Accepts n y → y.isForward := by
  rcases op.declares n name with ⟨x, hname, rfl⟩ | hother
  · have hn : n < t.size := hscope
    have haccepts := accepts_iff (t := t) (n := n) (x := x)
    rw [hname] at haccepts
    rw [find?_perform_add hn hname]
    -- What is bound behind the addition depends on what was bound, and so does acceptance.
    cases hfind : (t.scope n).find? name with
    | none => grind [settle]
    | some held => grind [settle]
  · rw [find?_perform_other hscope hother]
    grind

/-! ## Runs -/

namespace Run

/-- Behind a run, a name is bound to what its declarations settle one by one. -/
theorem find? (h : Run t ops t') (n : Nat) (name : String) :
    (t'.scope n).find? name =
      (declared n name ops).foldl (fun held x => some (settle held x))
        ((t.scope n).find? name) := by
  induction h with
  | nil => rfl
  | @cons t t' op ops hscope _ ih =>
    rw [ih]
    rcases op.declares n name with ⟨x, hname, rfl⟩ | hother
    · have hn : n < t.size := hscope
      rw [declared_add ops hname, List.foldl_cons, find?_perform_add hn hname]
    · rw [declared_other ops hother, find?_perform_other hscope hother]

/-- Behind a run that starts with nothing, a name is bound to what is definitive. -/
theorem find?_definitive (h : Run .initial ops t) (n : Nat) (name : String) :
    (t.scope n).find? name = definitive (declared n name ops) := by
  rw [h.find?, find?_initial]
  cases declared n name ops with
  | nil => rfl
  | cons first later =>
    rw [List.foldl_cons, settle]
    exact foldl_settle first later

/-- A binding stays what it is, or is completed. -/
theorem keeps_binding {held : Symbol} (h : Run t ops t')
    (hheld : (t.scope n).find? name = some held) :
    ∃ held', (t'.scope n).find? name = some held' ∧ (held' = held ∨ held'.Completes held) := by
  have hfind := h.find? n name
  rw [hheld, foldl_settle] at hfind
  cases hdefinitive : definitive (held :: declared n name ops) with
  | none => grind [definitive]
  | some held' =>
    refine ⟨held', hfind.trans hdefinitive, ?_⟩
    rcases definitive_cases hdefinitive with rfl | ⟨-, hcompletes⟩
    · exact .inl rfl
    · exact .inr hcompletes

/-- A run leaves nothing but a forward declaration behind exactly if it finds nothing else and
accepts no definition. -/
theorem isForward_iff (h : Run t ops t') (n : Nat) (name : String) :
    (∀ held ∈ (t'.scope n).find? name, held.isForward) ↔
      (∀ held ∈ (t.scope n).find? name, held.isForward) ∧
        ∀ y s, Adds t ops s n y → y.name = name → s.Accepts n y → y.isForward := by
  induction h with
  | @nil t =>
    have hnone : ∀ y s, ¬ Adds t [] s n y := by
      rintro y s ⟨pre, post, heq, -⟩
      exact absurd heq.symm (by simp)
    simp [hnone]
  | @cons t t' op ops hscope _ ih =>
    rw [ih, isForward_perform_iff hscope, and_assoc]
    refine and_congr_right fun _ => ?_
    simp only [adds_cons hscope]
    grind

/-- What a name is bound to agrees with the same symbols as its first declaration. -/
theorem agrees_first (h : Run .initial ops t) {first held : Symbol} {later : List Symbol}
    (hdeclared : declared n name ops = first :: later) (hheld : (t.scope n).find? name = some held)
    (x : Symbol) : held.agrees x = first.agrees x := by
  rw [h.find?_definitive, hdeclared] at hheld
  rcases definitive_cases hheld with rfl | ⟨-, -, -, hagree⟩
  · rfl
  · exact (agrees_congr hagree x).symm

/-- A further declaration is accepted if it agrees with the first, and is no definition where one
has been accepted. -/
theorem accepts_later (h : Run .initial ops t) {first : Symbol} {later : List Symbol}
    (hdeclared : declared n name ops = first :: later) (hname : x.name = name) :
    t.Accepts n x ↔ first.agrees x ∧ (x.isForward ∨
      ∀ y s, Adds .initial ops s n y → y.name = name → s.Accepts n y → y.isForward) := by
  obtain ⟨held, hheld⟩ : ∃ held, (t.scope n).find? name = some held := by
    have hsome : ∃ held, definitive (first :: later) = some held := by
      unfold definitive
      dsimp only
      split <;> exact ⟨_, rfl⟩
    rwa [← hdeclared, ← h.find?_definitive] at hsome
  have hforward := h.isForward_iff n name
  simp only [hheld, find?_initial, Option.mem_def, Option.some.injEq, forall_eq', reduceCtorEq,
    false_implies, implies_true, true_and] at hforward
  rw [accepts_iff, hname, hheld]
  simp only [Option.some.injEq, forall_eq', h.agrees_first hdeclared hheld, hforward]

/-- Compatible declarations are accepted in every order. -/
theorem accepts_compatible (h : Run .initial ops t) (hcompatible : Compatible (declared n name ops))
    (hadds : Adds .initial ops s n x) (hname : x.name = name) : s.Accepts n x := by
  obtain ⟨pre, post, rfl, hrun⟩ := hadds
  rw [declared_append, declared_add post hname] at hcompatible
  rw [accepts_iff, hname]
  intro held hheld
  rw [hrun.find?_definitive] at hheld
  have hmem := definitive_mem hheld
  exact ⟨hcompatible.agrees hmem, (hcompatible.forward hmem).symm⟩

end Run

/-- What a name is bound to in a scope is the first of its declarations there, or the definition
that completes it. A further declaration is accepted if it agrees with the first and is not a
second definition. A binding changes at most once, from a forward declaration to a definition of
the same signature, and compatible declarations come to the same in every order. -/
theorem binding_of_history (h : Run .initial ops t) (n : Nat) (name : String) :
    (t.scope n).find? name = definitive (declared n name ops) ∧
    (∀ first later x, declared n name ops = first :: later → x.name = name →
      (t.Accepts n x ↔ first.agrees x ∧ (x.isForward ∨
        ∀ y s, Adds .initial ops s n y → y.name = name → s.Accepts n y → y.isForward))) ∧
    (∀ more more' t' t'' held, Run t more t' → Run t' more' t'' →
      (t.scope n).find? name = some held →
        ∃ held' held'', (t'.scope n).find? name = some held' ∧
          (t''.scope n).find? name = some held'' ∧
          (held' = held ∨ held'.Completes held) ∧ (held' = held ∨ held'' = held')) ∧
    (∀ xs, (declared n name ops).Perm xs → Compatible xs →
      (∀ s x, Adds .initial ops s n x → x.name = name → s.Accepts n x) ∧
        ∀ x ∈ xs, ¬ x.isForward → (t.scope n).find? name = some x) := by
  refine ⟨h.find?_definitive n name, ?_, ?_, ?_⟩
  · intro first later x hdeclared hname
    exact h.accepts_later hdeclared hname
  · intro more more' t' t'' held hrun hrun' hheld
    obtain ⟨held', hheld', hkept⟩ := hrun.keeps_binding hheld
    obtain ⟨held'', hheld'', hkept'⟩ := hrun'.keeps_binding hheld'
    refine ⟨held', held'', hheld', hheld'', hkept, ?_⟩
    rcases hkept with rfl | hcompletes
    · exact .inl rfl
    -- A definition cannot be completed.
    · exact .inr (hkept'.resolve_right fun hagain => hcompletes.2.1 hagain.1)
  · intro xs hperm hxs
    have hcompatible := hxs.perm hperm
    refine ⟨fun s x hadds hname => h.accepts_compatible hcompatible hadds hname, ?_⟩
    intro x hx hdefined
    rw [h.find?_definitive, hcompatible.definitive_eq (hperm.mem_iff.mpr hx) hdefined]

/-- An integer that is declared twice around its definition, and a character of the same name in a
block in between. -/
def completed : List Operation :=
  [.add 0 (.var "x" ⟨.int, false, 0, []⟩ true ⟨1, 12⟩), .push 0,
    .add 1 (.var "x" ⟨.char, false, 0, []⟩ false ⟨2, 8⟩),
    .add 0 (.var "x" ⟨.int, false, 0, []⟩ false ⟨4, 5⟩),
    .add 0 (.var "x" ⟨.int, false, 0, []⟩ true ⟨5, 12⟩)]

/-- All three declarations of the integer are accepted and leave the definition; it is kept for
good, and may be declared once more, though with no other type. -/
theorem binding_of_history_completed :
    ∃ t, Run .initial completed t ∧
      (t.scope 0).find? "x" = some (.var "x" ⟨.int, false, 0, []⟩ false ⟨4, 5⟩) ∧
      (∀ s x, Adds .initial completed s 0 x → x.name = "x" → s.Accepts 0 x) ∧
      t.Accepts 0 (.var "x" ⟨.int, false, 0, []⟩ true ⟨6, 12⟩) ∧
      ¬ t.Accepts 0 (.var "x" ⟨.char, false, 0, []⟩ true ⟨6, 13⟩) ∧
      ∀ more t', Run t more t' →
        (t'.scope 0).find? "x" = some (.var "x" ⟨.int, false, 0, []⟩ false ⟨4, 5⟩) := by
  have hrun : Run .initial completed (completed.foldl perform .initial) :=
    .cons (by decide) (.cons (by decide) (.cons (by decide) (.cons (by decide)
      (.cons (by decide) .nil))))
  obtain ⟨hbinding, haccepts, hkept, horder⟩ := binding_of_history hrun 0 "x"
  have hcompatible : Compatible (declared 0 "x" completed) := ⟨by decide, by decide⟩
  have hfind := hbinding.trans (by decide : _ =
    some (.var "x" ⟨.int, false, 0, []⟩ false ⟨4, 5⟩))
  refine ⟨_, hrun, hfind, (horder _ (.refl _) hcompatible).1, ?_, ?_, ?_⟩
  · exact (haccepts _ _ _ rfl rfl).mpr ⟨by decide, .inl rfl⟩
  · intro h
    exact absurd ((haccepts _ _ _ rfl rfl).mp h).1 (by decide)
  · intro more t' hmore
    obtain ⟨held', -, hheld', -, hstays, -⟩ := hkept more [] t' t' _ hmore .nil hfind
    rcases hstays with rfl | hcompletes
    · exact hheld'
    · exact absurd hcompletes.1 (by decide)

end ScopeTree

end CSubset
