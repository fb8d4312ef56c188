-- SUMMARY: Tokens that are the rendering of a unit are read as that unit again.
import CSubset.Proofs.Parse.Exactness
import CSubset.Proofs.Printing.Render
import CSubset.Proofs.Syntax.Nodes
import CSubset.Proofs.Syntax.Relabel

/-!
# Reading what is rendered

A rendering fixes the kinds of tokens and not where they stand, so the tokens of a rendering are
any that have these kinds. They are derived by the grammar, for an expression at the level of its
outermost node and at every looser one.
-/

namespace CSubset

open Grammar Render

/-! ## Tokens of given kinds -/

theorem kinds_cons {ts : List Token} {k : Token.Kind} {ks : List Token.Kind}
    (h : ts.map Token.kind = k :: ks) :
    ∃ l us, ts = ⟨k, l⟩ :: us ∧ us.map Token.kind = ks := by
  obtain ⟨⟨k, l⟩, us, rfl, rfl, hus⟩ := List.map_eq_cons_iff.mp h
  exact ⟨l, us, rfl, hus⟩

theorem kinds_append {ts : List Token} {ks ks' : List Token.Kind}
    (h : ts.map Token.kind = ks ++ ks') :
    ∃ us vs, ts = us ++ vs ∧ us.map Token.kind = ks ∧ vs.map Token.kind = ks' :=
  List.map_eq_append_iff.mp h

theorem kinds_single {ts : List Token} {k : Token.Kind} (h : ts.map Token.kind = [k]) :
    ∃ l, ts = [⟨k, l⟩] := by
  obtain ⟨l, us, rfl, hus⟩ := kinds_cons h
  rw [List.map_eq_nil_iff.mp hus]
  exact ⟨l, rfl⟩

theorem kinds_concat {ts : List Token} {ks : List Token.Kind} {k : Token.Kind}
    (h : ts.map Token.kind = ks ++ [k]) :
    ∃ us l, ts = us ++ [⟨k, l⟩] ∧ us.map Token.kind = ks := by
  obtain ⟨us, vs, rfl, hus, hvs⟩ := kinds_append h
  obtain ⟨l, rfl⟩ := kinds_single hvs
  exact ⟨us, l, rfl, hus⟩

/-! ## Levels -/

namespace Grammar

/-- The nonterminal of the expressions that bind at least as tightly as a level. -/
def AtLevel : Nat → Nat → List Token → Expr → Nat → Prop
  | 0 => Assignment
  | 7 => Unary
  | 8 => Suffixed
  | p => Binary p

namespace AtLevel

variable {i j n m : Nat} {ts : List Token} {e : Expr}

theorem eq_binary {p : Nat} (hp : 0 < p) (hp' : p < 7) : AtLevel p = Binary p := by
  unfold AtLevel
  split <;> first | rfl | omega

theorem unary (hn : 7 ≤ n) (hn' : n ≤ 8) (h : AtLevel n i ts e j) : Unary i ts e j := by
  obtain rfl | rfl : n = 7 ∨ n = 8 := by omega
  · exact h
  · exact .operand h

theorem binary {p : Nat} (hp : 0 < p) (hp' : p ≤ 7) (hpn : p ≤ n) (hn : n ≤ 8)
    (h : AtLevel n i ts e j) : Binary p i ts e j := by
  rcases Nat.lt_or_ge n 7 with hlt | hge
  · rw [eq_binary (Nat.lt_of_lt_of_le hp hpn) hlt] at h
    exact h.mono hpn
  · exact (Binary.operand (h.unary hge hn)).mono hp'

theorem assignment (hn : n ≤ 8) (h : AtLevel n i ts e j) : Assignment i ts e j := by
  cases n with
  | zero => exact h
  | succ n => exact .operand (h.binary (Nat.succ_pos 0) (by decide) (Nat.succ_le_succ n.zero_le) hn)

/-- What binds at a level binds at every looser one. -/
theorem loosen (hm : m ≤ n) (hn : n ≤ 8) (h : AtLevel n i ts e j) : AtLevel m i ts e j := by
  rcases Nat.eq_zero_or_pos m with rfl | hpos
  · exact h.assignment hn
  · rcases Nat.lt_or_ge m 7 with hlt | hge
    · rw [eq_binary hpos hlt]
      exact h.binary hpos (Nat.le_of_lt hlt) hm hn
    · obtain rfl | rfl : m = 7 ∨ m = 8 := by omega
      · exact h.unary hm hn
      · obtain rfl : n = 8 := Nat.le_antisymm hn hm
        exact h

end AtLevel

end Grammar

theorem Expr.level_le (e : Expr) : e.level ≤ 8 := by
  cases e with
  | binary _ op _ _ => exact Nat.le_trans op.precedence_le (by decide)
  | _ => simp [Expr.level]

/-! ## Expressions -/

/-- All tokens of these kinds, with nodes numbered from any number on, derive `x` up to numbers and
positions. -/
def Writes {α : Type} (ks : List Token.Kind) (phrase : Nat → List Token → α → Nat → Prop)
    (relabel : α → α) (x : α) : Prop :=
  ∀ i ts, ts.map Token.kind = ks → ∃ y j, phrase i ts y j ∧ relabel y = relabel x

namespace Expr

/-- Tokens of these kinds derive the expression at a level, up to numbers and positions. -/
abbrev WritesAt (n : Nat) (ks : List Token.Kind) (e : Expr) : Prop :=
  Writes ks (AtLevel n) (relabel .bare) e

/-- In parentheses an expression binds as tightly as anything. -/
theorem writes_group {e : Expr} (h : WritesAt e.level e.render e) {n : Nat} (hn : n ≤ 8) :
    WritesAt n (group (e.level < n) e.render) e := by
  intro i ts hts
  unfold group at hts
  split at hts
  · obtain ⟨l, us, rfl, hus⟩ := kinds_cons hts
    obtain ⟨vs, l', rfl, hvs⟩ := kinds_concat hus
    obtain ⟨e', j, he, heq⟩ := h i vs hvs
    have hgroup : AtLevel 8 i (.ofMark .leftParen l :: (vs ++ [.ofMark .rightParen l'])) e' j :=
      Suffixed.primary (.group (he.assignment e.level_le))
    exact ⟨e', j, hgroup.loosen hn (Nat.le_refl _), heq⟩
  · next hlevel =>
    obtain ⟨e', j, he, heq⟩ := h i ts hts
    have hle : n ≤ e.level := by simpa using hlevel
    exact ⟨e', j, he.loosen hle e.level_le, heq⟩

mutual

theorem render_writes : ∀ e : Expr, WritesAt e.level e.render e
  | .literal a value => by
    intro i ts hts
    obtain ⟨l, rfl⟩ := kinds_single hts
    refine ⟨.literal ⟨i, l⟩ value, i + 1, Suffixed.primary ?_, rfl⟩
    cases value with
    | int => exact .int
    | float => exact .float
    | char => exact .char
    | string s =>
      have h := Primary.string (i := i) (s := s) (l := l) .nil
      rwa [String.append_empty] at h
  | .ident a name => by
    intro i ts hts
    obtain ⟨l, rfl⟩ := kinds_single hts
    exact ⟨.ident ⟨i, l⟩ name, i + 1, Suffixed.primary .ident, rfl⟩
  | .unary a op operand => by
    intro i ts hts
    obtain ⟨l, us, rfl, hus⟩ := kinds_cons hts
    obtain ⟨x, j, hx, heq⟩ := writes_group (render_writes operand) (n := 7) (by decide) i us hus
    exact ⟨.unary ⟨j, l⟩ op x, j + 1, Unary.operator hx, by simp only [relabel, heq]; rfl⟩
  | .binary a op left right => by
    intro i ts hts
    have hpos := op.precedence_pos
    have hle := op.precedence_le
    obtain ⟨us, vs, rfl, hus, hvs⟩ := kinds_append hts
    obtain ⟨l, ws, rfl, hws⟩ := kinds_cons hvs
    obtain ⟨x, j, hx, hxeq⟩ := writes_group (render_writes left) (by omega) i us hus
    obtain ⟨y, k, hy, hyeq⟩ := writes_group (render_writes right) (by omega) j ws hws
    refine ⟨.binary ⟨k, l⟩ op x y, k + 1, ?_, by simp only [relabel, hxeq, hyeq]; rfl⟩
    rw [level, AtLevel.eq_binary hpos (by omega)]
    exact .operator (mem_stratum.mpr rfl) (hx.binary hpos (by omega) (Nat.le_refl _) (by omega))
      (hy.binary (Nat.succ_pos _) (by omega) (Nat.le_refl _) (by omega))
  | .assign a op target value => by
    intro i ts hts
    obtain ⟨us, vs, rfl, hus, hvs⟩ := kinds_append hts
    obtain ⟨l, ws, rfl, hws⟩ := kinds_cons hvs
    obtain ⟨x, j, hx, hxeq⟩ := writes_group (render_writes target) (n := 1) (by decide) i us hus
    obtain ⟨y, k, hy, hyeq⟩ := render_writes value j ws hws
    exact ⟨.assign ⟨k, l⟩ op x y, k + 1, Assignment.assign hx (hy.assignment value.level_le),
      by simp only [relabel, hxeq, hyeq]; rfl⟩
  | .call a callee args => by
    intro i ts hts
    obtain ⟨us, vs, rfl, hus, hvs⟩ := kinds_append hts
    obtain ⟨l, ws, rfl, hws⟩ := kinds_cons hvs
    obtain ⟨xs, l', rfl, hxs⟩ := kinds_concat hws
    obtain ⟨f, j, hf, hfeq⟩ := writes_group (render_writes callee) (n := 8) (by decide) i us hus
    obtain ⟨es, k, hes, heseq⟩ := renderAll_writes args j xs hxs
    exact ⟨.call ⟨k, l⟩ f es, k + 1, Suffixed.call hf hes,
      by simp only [relabel, hfeq, heseq]; rfl⟩
  | .index a base subscript => by
    intro i ts hts
    obtain ⟨us, vs, rfl, hus, hvs⟩ := kinds_append hts
    obtain ⟨l, ws, rfl, hws⟩ := kinds_cons hvs
    obtain ⟨xs, l', rfl, hxs⟩ := kinds_concat hws
    obtain ⟨x, j, hx, hxeq⟩ := writes_group (render_writes base) (n := 8) (by decide) i us hus
    obtain ⟨y, k, hy, hyeq⟩ := render_writes subscript j xs hxs
    exact ⟨.index ⟨k, l⟩ x y, k + 1, Suffixed.index hx (hy.assignment subscript.level_le),
      by simp only [relabel, hxeq, hyeq]; rfl⟩

theorem renderAll_writes : ∀ es : List Expr,
    Writes (renderAll es) Arguments (relabelAll .bare) es
  | [] => by
    intro i ts hts
    rw [List.map_eq_nil_iff.mp hts]
    exact ⟨[], i, .none, rfl⟩
  | e :: rest => by
    intro i ts hts
    obtain ⟨us, vs, rfl, hus, hvs⟩ := kinds_append hts
    obtain ⟨x, j, hx, hxeq⟩ := render_writes e i us hus
    obtain ⟨es, k, hes, heseq⟩ := renderMore_writes rest i j us vs x (hx.assignment e.level_le) hvs
    exact ⟨x :: es, k, .some hes, by simp only [relabelAll, hxeq, heseq]⟩

/-- Behind one argument, the rendering of further ones extends the list of arguments. -/
theorem renderMore_writes : ∀ (es : List Expr) (i j : Nat) (us vs : List Token) (x : Expr),
    Assignment i us x j → vs.map Token.kind = renderMore es →
      ∃ ys k, ArgumentList i (us ++ vs) (x :: ys) k ∧ relabelAll .bare ys = relabelAll .bare es
  | [], i, j, us, vs, x, hx, hvs => by
    rw [List.map_eq_nil_iff.mp hvs, List.append_nil]
    exact ⟨[], j, .last hx, rfl⟩
  | e :: rest, i, j, us, vs, x, hx, hvs => by
    obtain ⟨l, ws, rfl, hws⟩ := kinds_cons hvs
    obtain ⟨us', vs', rfl, hus', hvs'⟩ := kinds_append hws
    obtain ⟨y, k, hy, hyeq⟩ := render_writes e j us' hus'
    obtain ⟨ys, m, hys, hyseq⟩ :=
      renderMore_writes rest j k us' vs' y (hy.assignment e.level_le) hvs'
    exact ⟨y :: ys, m, .more hx hys, by simp only [relabelAll, hyeq, hyseq]⟩

end

end Expr

/-! ## Headings -/

theorem stars_of_kinds {n : Nat} {ts : List Token}
    (h : ts.map Token.kind = List.replicate n (.punctuator .star)) : Stars ts n := by
  induction n generalizing ts with
  | zero =>
    rw [List.map_eq_nil_iff.mp h]
    exact .nil
  | succ n ih =>
    obtain ⟨l, us, rfl, hus⟩ := kinds_cons h
    exact .cons (ih hus)

theorem DeclaredType.renderFront_derived {t : DeclaredType} {ts : List Token}
    (h : ts.map Token.kind = t.renderFront) :
    ∃ us ps, ts = us ++ ps ∧ TypeSpecifier us ⟨t.base, t.isConst, 0, []⟩ ∧ Stars ps t.pointers := by
  obtain ⟨us, ps, rfl, hus, hps⟩ := kinds_append h
  refine ⟨us, ps, rfl, ?_, stars_of_kinds hps⟩
  cases hc : t.isConst with
  | true =>
    rw [hc, if_pos rfl] at hus
    obtain ⟨l, vs, rfl, hvs⟩ := kinds_cons hus
    obtain ⟨l', rfl⟩ := kinds_single hvs
    exact .const
  | false =>
    rw [hc, if_neg Bool.false_ne_true] at hus
    obtain ⟨l, rfl⟩ := kinds_single hus
    exact .plain

theorem dimensions_of_kinds {ns : List Nat} {ts : List Token}
    (h : ts.map Token.kind = ns.flatMap fun (n : Nat) =>
      [.punctuator .leftBracket, .intLiteral n, .punctuator .rightBracket]) :
    Dimensions ts ns := by
  induction ns generalizing ts with
  | nil =>
    rw [List.map_eq_nil_iff.mp h]
    exact .nil
  | cons n ns ih =>
    obtain ⟨l, us, rfl, hus⟩ := kinds_cons h
    obtain ⟨l', vs, rfl, hvs⟩ := kinds_cons hus
    obtain ⟨l'', ws, rfl, hws⟩ := kinds_cons hvs
    exact .cons (ih hws)

theorem DeclaredType.renderAround_derived {t : DeclaredType} {name : String} {ts : List Token}
    (h : ts.map Token.kind = t.renderAround name) : ∃ l, Grammar.Typed ts t name l := by
  obtain ⟨us, vs, rfl, hus, hvs⟩ := kinds_append h
  obtain ⟨l, ds, rfl, hds⟩ := kinds_cons hvs
  obtain ⟨us, ps, rfl, ht, hp⟩ := renderFront_derived hus
  rw [List.append_assoc]
  exact ⟨l, .mk ht hp (dimensions_of_kinds hds)⟩

theorem Parameter.render_derived {p : Parameter} {ts : List Token}
    (h : ts.map Token.kind = p.render) :
    ∃ q, Param ts q ∧ q.relabel .bare = p.relabel .bare := by
  obtain ⟨l, ht⟩ := DeclaredType.renderAround_derived h
  exact ⟨⟨p.type, p.name, l⟩, .mk ht, rfl⟩

theorem Parameter.renderAll_derived {variadic : Bool} {ps : List Parameter} {ts : List Token}
    (hps : ps ≠ []) (h : ts.map Token.kind = renderAll variadic ps) :
    ∃ qs, Params ts qs variadic ∧
      qs.map (Parameter.relabel .bare) = ps.map (Parameter.relabel .bare) := by
  induction ps generalizing ts with
  | nil => exact absurd rfl hps
  | cons p rest ih =>
    cases rest with
    | nil =>
      obtain ⟨us, vs, rfl, hus, hvs⟩ := kinds_append h
      obtain ⟨q, hq, heq⟩ := render_derived hus
      refine ⟨[q], ?_, by rw [List.map_singleton, List.map_singleton, heq]⟩
      cases variadic with
      | true =>
        obtain ⟨l, ws, rfl, hws⟩ := kinds_cons hvs
        obtain ⟨l', rfl⟩ := kinds_single hws
        exact .variadic hq
      | false =>
        rw [List.map_eq_nil_iff.mp hvs, List.append_nil]
        exact .last hq
    | cons p' rest =>
      obtain ⟨us, vs, rfl, hus, hvs⟩ := kinds_append h
      obtain ⟨l, ws, rfl, hws⟩ := kinds_cons hvs
      obtain ⟨q, hq, heq⟩ := render_derived hus
      obtain ⟨qs, hqs, hseq⟩ := ih (List.cons_ne_nil _ _) hws
      exact ⟨q :: qs, .more hq hqs, by rw [List.map_cons, hseq, heq]; rfl⟩

theorem Storage.render_derived {storage : Storage} {ts : List Token}
    (h : ts.map Token.kind = storage.render) : StorageClass ts storage := by
  cases storage with
  | none =>
    rw [List.map_eq_nil_iff.mp h]
    exact .none
  | static =>
    obtain ⟨l, rfl⟩ := kinds_single h
    exact .static
  | external =>
    obtain ⟨l, rfl⟩ := kinds_single h
    exact .external

/-- A function that can be rendered is read from its heading. -/
theorem Prototype.render_derived {p : Prototype} {body : Option Block} {ts : List Token}
    (hp : (Node.function p body).Renderable) (h : ts.map Token.kind = p.render) :
    ∃ q, FunHeading ts q ∧ q.relabel .bare = p.relabel .bare := by
  obtain ⟨hdims, hvariadic, -⟩ := hp
  obtain ⟨ss, vs, rfl, hss, hvs⟩ := kinds_append h
  obtain ⟨us, ws, rfl, hus, hws⟩ := kinds_append hvs
  obtain ⟨l, xs, rfl, hxs⟩ := kinds_cons hws
  obtain ⟨l', ys, rfl, hys⟩ := kinds_cons hxs
  obtain ⟨qs, l'', rfl, hqs⟩ := kinds_concat hys
  obtain ⟨us, stars, rfl, ht, hstars⟩ := DeclaredType.renderFront_derived hus
  have hlist : ∃ params, ParamList qs params p.variadic ∧
      params.map (Parameter.relabel .bare) = p.parameters.map (Parameter.relabel .bare) := by
    by_cases hparams : p.parameters = []
    · rw [hparams] at hqs
      have hfixed : p.variadic = false := Bool.eq_false_iff.mpr fun hv => hvariadic hv hparams
      rw [List.map_eq_nil_iff.mp hqs, hfixed, hparams]
      exact ⟨[], .nothing, rfl⟩
    · obtain ⟨params, hparams, heq⟩ := Parameter.renderAll_derived hparams hqs
      exact ⟨params, .params hparams, heq⟩
  obtain ⟨params, hparams, heq⟩ := hlist
  rw [List.append_assoc]
  refine ⟨_, .mk (Storage.render_derived hss) ht hstars hparams, ?_⟩
  obtain ⟨⟨base, isConst, pointers, dims⟩, name, parameters, variadic, storage, location⟩ := p
  obtain rfl : dims = [] := hdims
  simp only [relabel, heq]
  rfl

/-! ## Declarations and statements -/

/-- Functions among the nodes can be rendered. -/
abbrev AllRenderable (ns : List Node) : Prop := ∀ n ∈ ns, n.Renderable

theorem Expr.renderOptional_writes (e : Option Expr) :
    Writes (renderOptional e) Clause (Option.map (relabel .bare)) e := by
  intro i ts hts
  cases e with
  | none =>
    rw [List.map_eq_nil_iff.mp hts]
    exact ⟨none, i, .none, rfl⟩
  | some e =>
    obtain ⟨x, j, hx, heq⟩ := render_writes e i ts hts
    exact ⟨some x, j, .some (hx.assignment e.level_le), congrArg some heq⟩

theorem Decl.render_writes {d : Decl} (h : AllRenderable (Walk.decl (fun _ => true) d)) :
    Writes d.render LocalDecl (relabel .bare) d := by
  intro i ts hts
  cases d with
  | function p =>
    obtain ⟨us, l, rfl, hus⟩ := kinds_concat hts
    have hp : (Node.function p none).Renderable :=
      h _ (by simp [Walk.decl, Walk.function, Walk.enter])
    obtain ⟨q, hq, heq⟩ := Prototype.render_derived hp hus
    exact ⟨.function q, i, .prototype hq, congrArg Decl.function heq⟩
  | var v =>
    obtain ⟨type, name, initializer, storage, location⟩ := v
    obtain ⟨ss, vs, rfl, hss, hvs⟩ := kinds_append hts
    obtain ⟨us, ws, rfl, hus, hws⟩ := kinds_append hvs
    obtain ⟨l, ht⟩ := DeclaredType.renderAround_derived hus
    have hv : VarHeading (ss ++ us) ⟨type, name, none, storage, l⟩ :=
      .mk (Storage.render_derived hss) ht
    rw [← List.append_assoc]
    cases initializer with
    | none =>
      obtain ⟨l', rfl⟩ := kinds_single hws
      exact ⟨.var _, i, .var hv, rfl⟩
    | some e =>
      obtain ⟨l', xs, rfl, hxs⟩ := kinds_cons hws
      obtain ⟨ys, l'', rfl, hys⟩ := kinds_concat hxs
      obtain ⟨x, j, hx, heq⟩ := e.render_writes i ys hys
      refine ⟨.var _, j, .initialized hv (hx.assignment e.level_le), ?_⟩
      simp only [relabel, Variable.relabel, Option.map_some, heq]
      rfl

theorem Writes.many {α : Type} {phrase : Nat → List Token → α → Nat → Prop}
    {render : α → List Token.Kind} {relabel : α → α} {xs : List α}
    (h : ∀ x ∈ xs, Writes (render x) phrase relabel x) :
    Writes (xs.flatMap render) (Many phrase) (List.map relabel) xs := by
  induction xs with
  | nil =>
    intro i ts hts
    rw [List.map_eq_nil_iff.mp hts]
    exact ⟨[], i, .nil, rfl⟩
  | cons x rest ih =>
    intro i ts hts
    obtain ⟨us, vs, rfl, hus, hvs⟩ := kinds_append hts
    obtain ⟨y, j, hy, heq⟩ := h x List.mem_cons_self i us hus
    obtain ⟨ys, k, hys, hseq⟩ := ih (fun x hx => h x (List.mem_cons_of_mem _ hx)) j vs hvs
    exact ⟨y :: ys, k, .cons hy hys, by rw [List.map_cons, heq, hseq]; rfl⟩

/-- What can be rendered below a node that has been entered. -/
theorem AllRenderable.below {n : Node} {ns : List Node}
    (h : AllRenderable (Walk.enter (fun _ => true) n ns)) : AllRenderable ns :=
  fun m hm => h m (List.mem_cons_of_mem _ hm)

theorem AllRenderable.of_append {ns ms : List Node} (h : AllRenderable (ns ++ ms)) :
    AllRenderable ns ∧ AllRenderable ms := List.forall_mem_append.mp h

theorem AllRenderable.of_flatMap {α : Type} {walk : α → List Node} {xs : List α}
    (h : AllRenderable (xs.flatMap walk)) : ∀ x ∈ xs, AllRenderable (walk x) :=
  fun x hx n hn => h n (List.mem_flatMap.mpr ⟨x, hx, hn⟩)

mutual

theorem Stmt.render_writes : ∀ {s : Stmt}, AllRenderable (Walk.stmt (fun _ => true) s) →
    Writes s.render Statement (Stmt.relabel .bare) s
  | .block body, h, i, ts, hts => by
    obtain ⟨b, j, hb, heq⟩ := Block.render_writes h.below i ts hts
    exact ⟨.block b, j, .block hb, by simp only [Stmt.relabel, heq]⟩
  | .ifThen condition body l, h, i, ts, hts => by
    obtain ⟨-, hbody⟩ := h.below.of_append
    obtain ⟨l, us, rfl, hus⟩ := kinds_cons hts
    obtain ⟨l₁, vs, rfl, hvs⟩ := kinds_cons hus
    obtain ⟨ws, xs, rfl, hws, hxs⟩ := kinds_append hvs
    obtain ⟨l₂, ys, rfl, hys⟩ := kinds_cons hxs
    obtain ⟨e, j, he, heq⟩ := condition.render_writes i ws hws
    obtain ⟨b, k, hb, hbeq⟩ := Block.render_writes hbody j ys hys
    exact ⟨.ifThen e b l, k, .ifThen (he.assignment condition.level_le) hb,
      by simp only [Stmt.relabel, heq, hbeq]; rfl⟩
  | .ifElse condition body alternative l, h, i, ts, hts => by
    obtain ⟨-, hrest⟩ := h.below.of_append
    obtain ⟨hbody, halternative⟩ := hrest.of_append
    obtain ⟨l, us, rfl, hus⟩ := kinds_cons hts
    obtain ⟨l₁, vs, rfl, hvs⟩ := kinds_cons hus
    obtain ⟨ws, xs, rfl, hws, hxs⟩ := kinds_append hvs
    obtain ⟨l₂, ys, rfl, hys⟩ := kinds_cons hxs
    obtain ⟨zs, as, rfl, hzs, has⟩ := kinds_append hys
    obtain ⟨l₃, bs, rfl, hbs⟩ := kinds_cons has
    obtain ⟨e, j, he, heq⟩ := condition.render_writes i ws hws
    obtain ⟨b, k, hb, hbeq⟩ := Block.render_writes hbody j zs hzs
    obtain ⟨a, m, ha, haeq⟩ := Block.render_writes halternative k bs hbs
    exact ⟨.ifElse e b a l, m, .ifElse (he.assignment condition.level_le) hb ha,
      by simp only [Stmt.relabel, heq, hbeq, haeq]; rfl⟩
  | .whileLoop condition body l, h, i, ts, hts => by
    obtain ⟨-, hbody⟩ := h.below.of_append
    obtain ⟨l, us, rfl, hus⟩ := kinds_cons hts
    obtain ⟨l₁, vs, rfl, hvs⟩ := kinds_cons hus
    obtain ⟨ws, xs, rfl, hws, hxs⟩ := kinds_append hvs
    obtain ⟨l₂, ys, rfl, hys⟩ := kinds_cons hxs
    obtain ⟨e, j, he, heq⟩ := condition.render_writes i ws hws
    obtain ⟨b, k, hb, hbeq⟩ := Block.render_writes hbody j ys hys
    exact ⟨.whileLoop e b l, k, .whileLoop (he.assignment condition.level_le) hb,
      by simp only [Stmt.relabel, heq, hbeq]; rfl⟩
  | .forLoop first condition step body l, h, i, ts, hts => by
    obtain ⟨-, hbody⟩ := h.below.of_append
    obtain ⟨l, us, rfl, hus⟩ := kinds_cons hts
    obtain ⟨l₁, vs, rfl, hvs⟩ := kinds_cons hus
    obtain ⟨fs, xs, rfl, hfs, hxs⟩ := kinds_append hvs
    obtain ⟨l₂, ys, rfl, hys⟩ := kinds_cons hxs
    obtain ⟨cs, zs, rfl, hcs, hzs⟩ := kinds_append hys
    obtain ⟨l₃, as, rfl, has⟩ := kinds_cons hzs
    obtain ⟨ss, bs, rfl, hss, hbs⟩ := kinds_append has
    obtain ⟨l₄, ds, rfl, hds⟩ := kinds_cons hbs
    obtain ⟨f, j, hf, hfeq⟩ := Expr.renderOptional_writes first i fs hfs
    obtain ⟨c, k, hc, hceq⟩ := Expr.renderOptional_writes condition j cs hcs
    obtain ⟨x, m, hx, hxeq⟩ := Expr.renderOptional_writes step k ss hss
    obtain ⟨b, n, hb, hbeq⟩ := Block.render_writes hbody m ds hds
    exact ⟨.forLoop f c x b l, n, .forLoop hf hc hx hb,
      by simp only [Stmt.relabel, hfeq, hceq, hxeq, hbeq]; rfl⟩
  | .jump kind l, _, i, ts, hts => by
    obtain ⟨l, us, rfl, hus⟩ := kinds_cons hts
    obtain ⟨l', rfl⟩ := kinds_single hus
    exact ⟨.jump kind l, i, .jump, rfl⟩
  | .returnStmt value l, _, i, ts, hts => by
    obtain ⟨l, us, rfl, hus⟩ := kinds_cons hts
    obtain ⟨vs, l', rfl, hvs⟩ := kinds_concat hus
    obtain ⟨e, j, he, heq⟩ := Expr.renderOptional_writes value i vs hvs
    exact ⟨.returnStmt e l, j, .returnStmt he, by simp only [Stmt.relabel, heq]; rfl⟩
  | .expr value l, _, i, ts, hts => by
    obtain ⟨us, l', rfl, hus⟩ := kinds_concat hts
    obtain ⟨e, j, he, heq⟩ := value.render_writes i us hus
    have ha := he.assignment value.level_le
    obtain ⟨t, vs, rfl, -⟩ := ha.begins
    exact ⟨.expr e t.location, j, .expr ha, by simp only [Stmt.relabel, heq]; rfl⟩

theorem Stmt.renderAll_writes : ∀ {ss : List Stmt}, AllRenderable (Walk.stmts (fun _ => true) ss) →
    Writes (Stmt.renderAll ss) Statements (Stmt.relabelAll .bare) ss
  | [], _, i, ts, hts => by
    rw [List.map_eq_nil_iff.mp hts]
    exact ⟨[], i, .nil, rfl⟩
  | s :: rest, h, i, ts, hts => by
    obtain ⟨hs, hrest⟩ := h.of_append
    obtain ⟨us, vs, rfl, hus, hvs⟩ := kinds_append hts
    obtain ⟨x, j, hx, heq⟩ := Stmt.render_writes hs i us hus
    obtain ⟨xs, k, hxs, hseq⟩ := Stmt.renderAll_writes hrest j vs hvs
    exact ⟨x :: xs, k, .cons hx hxs, by simp only [Stmt.relabelAll, heq, hseq]⟩

theorem Block.render_writes : ∀ {b : Block}, AllRenderable (Walk.block (fun _ => true) b) →
    Writes b.render Compound (Block.relabel .bare) b
  | .mk decls stmts l, h, i, ts, hts => by
    obtain ⟨hd, hs⟩ := h.below.of_append
    obtain ⟨l, us, rfl, hus⟩ := kinds_cons hts
    obtain ⟨vs, ws, rfl, hvs, hws⟩ := kinds_append hus
    obtain ⟨xs, l', rfl, hxs⟩ := kinds_concat hws
    have hdecls := Writes.many fun d hmem => Decl.render_writes (hd.of_flatMap d hmem)
    obtain ⟨ds, j, hds, hdeq⟩ := hdecls i vs hvs
    obtain ⟨ss, k, hss, hseq⟩ := Stmt.renderAll_writes hs j xs hxs
    exact ⟨.mk ds ss l, k, .mk hds hss, by simp only [Block.relabel, hdeq, hseq]; rfl⟩

end

/-! ## Units -/

theorem External.render_writes {d : External}
    (h : AllRenderable (Walk.external (fun _ => true) d)) :
    Writes d.render FileDecl (relabel .bare) d := by
  intro i ts hts
  cases d with
  | decl d =>
    obtain ⟨x, j, hx, heq⟩ := Decl.render_writes h i ts hts
    exact ⟨.decl x, j, .decl hx, congrArg External.decl heq⟩
  | definition p body =>
    have hp : (Node.function p (some body)).Renderable :=
      h _ (by simp [Walk.external, Walk.function, Walk.enter])
    obtain ⟨-, hbody⟩ := h.below.below.of_append
    obtain ⟨us, vs, rfl, hus, hvs⟩ := kinds_append hts
    obtain ⟨q, hq, heq⟩ := Prototype.render_derived hp hus
    obtain ⟨b, j, hb, hbeq⟩ := Block.render_writes hbody i vs hvs
    have hstorage : (q.relabel .bare).storage = (p.relabel .bare).storage :=
      congrArg Prototype.storage heq
    exact ⟨.definition q b, j, .definition hq (fun hq => hp.2.2 rfl (hstorage.symm.trans hq)) hb,
      by simp only [relabel, heq, hbeq]⟩

/-- Tokens of the kinds that a rendering lists are read as the unit that was rendered. -/
theorem CompilationUnit.render_read {u : CompilationUnit} (h : u.Renderable) {ts : List Token}
    (hts : ts.map Token.kind = u.render) :
    ∃ v, CompilationUnit.ofTokens? ts = .ok v ∧ v.relabel .bare = u.relabel .bare := by
  have hdecls := Writes.many fun d hmem =>
    External.render_writes ((AllRenderable.below h).of_flatMap d hmem)
  obtain ⟨ds, j, hds, heq⟩ := hdecls 0 ts hts
  refine ⟨⟨ds⟩, Parse.ofTokens?_of_translationUnit ⟨j, hds⟩, ?_⟩
  rw [relabel, relabel, heq]

end CSubset
