-- SUMMARY: Declarations that clash with earlier ones of their scope, and where declarations stand.
import CSubset.Check.Diagnostic
import CSubset.Compile
import CSubset.Proofs.Grammar.Positions
import CSubset.Proofs.Parse.Exactness
import CSubset.Proofs.Scoping.BlockNodes
import CSubset.Proofs.Token.Partition
import Mathlib.Data.List.Induction
import Mathlib.Tactic.ByContra

/-!
# Repeated declarations

A name may be declared again in its scope as long as the signatures agree and not both
declarations define it. `Symbol.Clashes` says that a declaration breaks this rule against what the
name is bound to. A `Declaration` is taken together with the earlier ones of its scope, which
alone settle that binding.

The declarations of a unit stand at different positions, and those of one scope in their order.
-/

namespace CSubset

/-! ## Signatures -/

namespace Symbol

/-- The signatures of two declarations of a name differ. A parameter agrees with nothing. -/
inductive Differ : Symbol → Symbol → Prop where
  | returned {p q : Prototype} {a b : Bool} (h : p.returnType ≠ q.returnType) :
      Differ (.function p a) (.function q b)
  | ellipsis {p q : Prototype} {a b : Bool} (h : p.variadic ≠ q.variadic) :
      Differ (.function p a) (.function q b)
  | count {p q : Prototype} {a b : Bool} (h : p.parameters.length ≠ q.parameters.length) :
      Differ (.function p a) (.function q b)
  | passed {p q : Prototype} {a b : Bool} {i : Nat} {x y : Parameter}
      (hx : p.parameters[i]? = some x) (hy : q.parameters[i]? = some y)
      (h : ValueType.ofDeclared x.type ≠ .ofDeclared y.type) :
      Differ (.function p a) (.function q b)
  | type {m n : String} {t u : DeclaredType} {f g : Bool} {k l : Location} (h : t ≠ u) :
      Differ (.var m t f k) (.var n u g l)
  | functionVar {p : Prototype} {a : Bool} {n : String} {t : DeclaredType} {f : Bool}
      {l : Location} : Differ (.function p a) (.var n t f l)
  | varFunction {p : Prototype} {a : Bool} {n : String} {t : DeclaredType} {f : Bool}
      {l : Location} : Differ (.var n t f l) (.function p a)
  | parameterLeft {p : Parameter} {x : Symbol} : Differ (.parameter p) x
  | parameterRight {p : Parameter} {x : Symbol} : Differ x (.parameter p)

/-- Parameter lists of one length with different types differ at some parameter. -/
theorem exists_parameter_ne {ps qs : List Parameter} (hlength : ps.length = qs.length)
    (h : ps.map (fun x => ValueType.ofDeclared x.type) ≠
      qs.map fun x => ValueType.ofDeclared x.type) :
    ∃ i : Nat, ∃ x y : Parameter, ps[i]? = some x ∧ qs[i]? = some y ∧
      ValueType.ofDeclared x.type ≠ .ofDeclared y.type := by
  by_contra hsame
  refine h (List.ext_getElem (by simpa using hlength) fun i hi hi' => ?_)
  rw [List.length_map] at hi hi'
  rw [List.getElem_map, List.getElem_map]
  by_contra hne
  exact hsame ⟨i, ps[i], qs[i], List.getElem?_eq_getElem hi, List.getElem?_eq_getElem hi', hne⟩

theorem Differ.not_agrees {x y : Symbol} (h : Differ x y) : x.agrees y = false := by
  cases h with
  | returned h => simp [agrees, h]
  | ellipsis h => simp [agrees, h]
  | @count p q _ _ h =>
    have hmap : p.parameters.map (fun x => ValueType.ofDeclared x.type) ≠
        q.parameters.map fun x => ValueType.ofDeclared x.type :=
      fun heq => h (by simpa using congrArg List.length heq)
    simp [agrees, hmap]
  | @passed p q _ _ i x y hx hy h =>
    have hmap : p.parameters.map (fun x => ValueType.ofDeclared x.type) ≠
        q.parameters.map fun x => ValueType.ofDeclared x.type := by
      intro heq
      have hi := congrArg (fun ts => ts[i]?) heq
      simp only [List.getElem?_map, hx, hy, Option.map_some, Option.some.injEq] at hi
      exact h hi
    simp [agrees, hmap]
  | type h => simp [agrees, h]
  | functionVar => rfl
  | varFunction => rfl
  | parameterLeft => rfl
  | @parameterRight p x => cases x <;> rfl

/-- Declarations agree exactly if nothing in their signatures differs. -/
theorem agrees_eq_false_iff {x y : Symbol} : x.agrees y = false ↔ Differ x y := by
  refine ⟨fun h => ?_, Differ.not_agrees⟩
  cases x with
  | parameter p => exact .parameterLeft
  | var n t f l =>
    cases y with
    | parameter q => exact .parameterRight
    | function q b => exact .varFunction
    | var m u g k => exact .type (by simpa [agrees] using h)
  | function p a =>
    cases y with
    | parameter q => exact .parameterRight
    | var m u g k => exact .functionVar
    | function q b =>
      by_cases hreturned : p.returnType = q.returnType
      · by_cases hellipsis : p.variadic = q.variadic
        · by_cases hcount : p.parameters.length = q.parameters.length
          · obtain ⟨i, x, y, hx, hy, hne⟩ := exists_parameter_ne hcount
              (by simpa [agrees, hreturned, hellipsis] using h)
            exact .passed hx hy hne
          · exact .count hcount
        · exact .ellipsis hellipsis
      · exact .returned hreturned

/-- A declaration `d` clashes with what its name is bound to, `b`: the signatures differ, or
both define the name. -/
def Clashes (b d : Symbol) : Prop := Differ b d ∨ b.isForward = false ∧ d.isForward = false

theorem clashes_iff {b d : Symbol} :
    b.Clashes d ↔ ¬ (b.agrees d = true ∧ (b.isForward = true ∨ d.isForward = true)) := by
  rw [Clashes, ← agrees_eq_false_iff]
  grind

end Symbol

/-! ## What a name is bound to -/

/-- Behind declarations of a name, it is bound to one of them. -/
theorem mem_of_binding {passed : Passed} {name : String} {b : Symbol}
    (h : binding passed name = some b) : b ∈ passed ∧ b.name = name := by
  induction passed using List.reverseRecOn generalizing b with
  | nil => cases h
  | append_singleton passed x ih =>
    rw [binding_concat] at h
    have hearlier {y : Symbol} (hy : binding passed name = some y) :
        y ∈ passed ++ [x] ∧ y.name = name :=
      ⟨List.mem_append_left _ (ih hy).1, (ih hy).2⟩
    split at h
    · next hname =>
      have hx : x ∈ passed ++ [x] ∧ x.name = name :=
        ⟨List.mem_append_right _ List.mem_cons_self, hname⟩
      cases hb : binding passed name with
      | none =>
        rw [hb] at h
        cases h
        exact hx
      | some held =>
        rw [hb, settle] at h
        split at h
        · cases h
          exact hx
        · cases h
          exact hearlier hb
    · exact hearlier h

/-- A name is bound exactly if it has been declared. -/
theorem binding_isSome_iff {passed : Passed} {name : String} :
    (∃ b, binding passed name = some b) ↔ ∃ x ∈ passed, x.name = name := by
  refine ⟨fun ⟨b, hb⟩ => ⟨b, mem_of_binding hb⟩, ?_⟩
  rintro ⟨x, hx, hname⟩
  induction passed using List.reverseRecOn with
  | nil => cases hx
  | append_singleton passed y ih =>
    rw [binding_concat]
    split
    · exact ⟨_, rfl⟩
    · next hne =>
      rcases List.mem_append.mp hx with hx | hx
      · exact ih hx
      · cases List.mem_singleton.mp hx
        exact absurd hname hne

/-! ## Declarations of a scope -/

/-- A declaration, and what its scope has declared before it. -/
structure Declaration where
  earlier : Passed
  symbol : Symbol

namespace Declaration

/-- The declarations of a scope behind those already passed. -/
def behind (passed : Passed) : List Symbol → List Declaration
  | [] => []
  | x :: rest => ⟨passed, x⟩ :: behind (passed ++ [x]) rest

/-- What is reported of a declaration for its name. -/
def reports (d : Declaration) : List Diagnostic :=
  match binding d.earlier d.symbol.name with
  | none => []
  | some b =>
    if b.agrees d.symbol ∧ (b.isForward ∨ d.symbol.isForward) then []
    else [.duplicateSymbol d.symbol.name b.location d.symbol.location]

variable {d : Declaration} {b : Symbol} {x : Diagnostic}

theorem reports_of_clash (hb : binding d.earlier d.symbol.name = some b)
    (hclash : b.Clashes d.symbol) :
    d.reports = [.duplicateSymbol d.symbol.name b.location d.symbol.location] := by
  rw [reports, hb]
  exact if_neg (Symbol.clashes_iff.mp hclash)

theorem mem_reports_iff :
    x ∈ d.reports ↔ ∃ b, binding d.earlier d.symbol.name = some b ∧ b.Clashes d.symbol ∧
      x = .duplicateSymbol d.symbol.name b.location d.symbol.location := by
  constructor
  · intro hx
    rw [reports] at hx
    split at hx
    · cases hx
    · next b hb =>
      split at hx
      · cases hx
      · next hclash =>
        exact ⟨b, hb, Symbol.clashes_iff.mpr hclash, List.mem_singleton.mp hx⟩
  · rintro ⟨b, hb, hclash, rfl⟩
    rw [reports_of_clash hb hclash]
    exact List.mem_cons_self

theorem reports_le_one (d : Declaration) : d.reports = [] ∨ ∃ x, d.reports = [x] := by
  unfold reports
  split
  · exact .inl rfl
  · split
    · exact .inl rfl
    · exact .inr ⟨_, rfl⟩

theorem location_of_mem_reports (h : x ∈ d.reports) : x.location? = some d.symbol.location := by
  obtain ⟨b, -, -, rfl⟩ := mem_reports_iff.mp h
  rfl

/-- Where declarations stand at different positions, what is reported at the position of one is
what is reported of it. -/
theorem filter_reports {ds : List Declaration}
    (hnd : (ds.map fun d => d.symbol.location).Nodup) (hd : d ∈ ds) :
    (ds.flatMap reports).filter (fun x => x.location? = some d.symbol.location) = d.reports := by
  have hnone {y : Declaration} (hy : y.symbol.location ≠ d.symbol.location) :
      y.reports.filter (fun x => x.location? = some d.symbol.location) = [] := by
    refine List.filter_eq_nil_iff.mpr fun x hx hx' => hy ?_
    exact Option.some.inj ((location_of_mem_reports hx).symm.trans (of_decide_eq_true hx'))
  have hself : d.reports.filter (fun x => x.location? = some d.symbol.location) = d.reports :=
    List.filter_eq_self.mpr fun x hx => decide_eq_true (location_of_mem_reports hx)
  induction ds with
  | nil => cases hd
  | cons y rest ih =>
    obtain ⟨hy, hrest⟩ := List.nodup_cons.mp hnd
    rw [List.flatMap_cons, List.filter_append]
    rcases List.mem_cons.mp hd with rfl | hd
    · have hothers : (rest.flatMap reports).filter
          (fun x => x.location? = some d.symbol.location) = [] := by
        rw [List.filter_flatMap, List.flatMap_eq_nil_iff]
        exact fun z hz => hnone fun heq => hy (List.mem_map.mpr ⟨z, hz, heq⟩)
      rw [hself, hothers, List.append_nil]
    · rw [hnone fun heq => hy (List.mem_map.mpr ⟨d, hd, heq.symm⟩), ih hrest hd, List.nil_append]

theorem behind_append (passed xs ys : Passed) :
    behind passed (xs ++ ys) = behind passed xs ++ behind (passed ++ xs) ys := by
  induction xs generalizing passed with
  | nil => rw [List.nil_append, List.append_nil]; rfl
  | cons x rest ih =>
    rw [List.cons_append, behind, ih, behind, List.append_assoc, List.singleton_append,
      List.cons_append]

theorem behind_locations (passed xs : Passed) :
    (behind passed xs).map (fun d => d.symbol.location) = xs.map Symbol.location := by
  induction xs generalizing passed with
  | nil => rfl
  | cons x rest ih => rw [behind, List.map_cons, ih, List.map_cons]

/-- The declarations of a scope are the ways to cut its list at one of them. -/
theorem mem_behind_iff {xs : Passed} {d : Declaration} :
    d ∈ behind [] xs ↔ ∃ later, xs = d.earlier ++ d.symbol :: later := by
  constructor
  · intro h
    -- the induction is over what is left, and the declarations already passed change with it
    have hcut : ∀ passed, d ∈ behind passed xs →
        ∃ later, passed ++ xs = d.earlier ++ d.symbol :: later := by
      clear h
      induction xs with
      | nil => exact fun _ h => nomatch h
      | cons x rest ih =>
        intro passed h
        rcases List.mem_cons.mp h with rfl | h
        · exact ⟨rest, rfl⟩
        · obtain ⟨later, hlater⟩ := ih _ h
          exact ⟨later, by rwa [List.append_assoc, List.singleton_append] at hlater⟩
    exact hcut [] h
  · rintro ⟨later, rfl⟩
    rw [behind_append]
    exact List.mem_append_right _ List.mem_cons_self

end Declaration

namespace Nest

/-- The declarations of all scopes of some blocks. -/
def declarations (bs : List Nest) : List Declaration :=
  (preorderAll bs).flatMap fun b => Declaration.behind [] b.declared

/-- Where all these declarations stand. -/
def declaredAt (bs : List Nest) : List Location :=
  (declarations bs).map fun d => d.symbol.location

theorem declarations_append (bs cs : List Nest) :
    declarations (bs ++ cs) = declarations bs ++ declarations cs := by
  rw [declarations, preorderAll_append, List.flatMap_append]
  rfl

theorem declarations_mk (node : Node) (declared : Passed) (inner : List Nest) :
    declarations [mk node declared inner] =
      Declaration.behind [] declared ++ declarations inner := by
  rw [declarations, preorderAll_singleton, preorder, List.flatMap_cons]
  rfl

theorem declaredAt_append (bs cs : List Nest) :
    declaredAt (bs ++ cs) = declaredAt bs ++ declaredAt cs := by
  rw [declaredAt, declarations_append, List.map_append]
  rfl

theorem declaredAt_mk (node : Node) (declared : Passed) (inner : List Nest) :
    declaredAt [mk node declared inner] = declared.map Symbol.location ++ declaredAt inner := by
  rw [declaredAt, declarations_mk, List.map_append, Declaration.behind_locations]
  rfl

theorem declaredAt_eq (bs : List Nest) :
    declaredAt bs = (preorderAll bs).flatMap fun b => b.declared.map Symbol.location := by
  rw [declaredAt, declarations, List.map_flatMap]
  exact List.flatMap_congr fun b _ => Declaration.behind_locations [] b.declared

end Nest

/-! ## Positions of declarations -/

open Nest

theorem Decl.location_sublist (d : Decl) : [d.symbol.location].Sublist d.positions := by
  cases d <;> exact List.singleton_sublist.mpr List.mem_cons_self

theorem Decl.locations_sublist (ds : List Decl) :
    ((ds.map Decl.symbol).map Symbol.location).Sublist (ds.flatMap Decl.positions) := by
  induction ds with
  | nil => exact List.nil_sublist _
  | cons d rest ih => exact d.location_sublist.append ih

mutual

theorem Stmt.declaredAt_sublist : ∀ s : Stmt, (declaredAt s.nests).Sublist s.positions
  | .block body => body.declaredAt_sublist
  | .ifThen _ body _ => body.declaredAt_sublist.trans (List.sublist_append_right _ _)
  | .ifElse _ body alternative _ => by
    have h : declaredAt [body.nest, alternative.nest] =
        declaredAt [body.nest] ++ declaredAt [alternative.nest] :=
      declaredAt_append [body.nest] [alternative.nest]
    rw [Stmt.nests, h]
    exact (body.declaredAt_sublist.append alternative.declaredAt_sublist).trans
      (List.sublist_append_right _ _)
  | .whileLoop _ body _ => body.declaredAt_sublist.trans (List.sublist_append_right _ _)
  | .forLoop _ _ _ body _ =>
    ((body.declaredAt_sublist.trans (List.sublist_append_right _ _)).trans
      (List.sublist_append_right _ _)).trans (List.sublist_append_right _ _)
  | .jump _ _ => List.nil_sublist _
  | .returnStmt _ _ => List.nil_sublist _
  | .expr _ _ => List.nil_sublist _

theorem Stmt.declaredAtAll_sublist : ∀ ss : List Stmt,
    (declaredAt (Stmt.nestsAll ss)).Sublist (Stmt.positionsAll ss)
  | [] => List.nil_sublist _
  | s :: rest => by
    rw [Stmt.nestsAll, declaredAt_append]
    exact s.declaredAt_sublist.append (Stmt.declaredAtAll_sublist rest)

/-- Declarations inside a block stand at positions of the block, in the order of these. -/
theorem Block.declaredAt_sublist : ∀ b : Block, (declaredAt [b.nest]).Sublist b.positions
  | .mk decls stmts _ => by
    rw [Block.nest, declaredAt_mk]
    exact (Decl.locations_sublist decls).append (Stmt.declaredAtAll_sublist stmts)

end

/-- A declaration at file level stands in front of those inside it. -/
theorem External.declaredAt_sublist (d : External) :
    (d.symbol.location :: declaredAt d.nests).Sublist d.positions := by
  cases d with
  | decl d => exact d.location_sublist
  | definition p body =>
    obtain ⟨decls, stmts, l⟩ := body
    have hbody := (Decl.locations_sublist decls).append (Stmt.declaredAtAll_sublist stmts)
    rw [External.nests, Prototype.bodyNest, declaredAt_mk, List.map_append, List.map_map,
      List.append_assoc]
    exact ((List.Sublist.refl (p.parameters.map Parameter.location)).append hbody).cons_cons _

namespace CompilationUnit

variable (u : CompilationUnit)

theorem positions_sublist :
    (u.decls.flatMap fun d => d.symbol.location :: declaredAt d.nests).Sublist u.positions := by
  rw [positions]
  induction u.decls with
  | nil => exact List.nil_sublist _
  | cons d rest ih => exact d.declaredAt_sublist.append ih

/-- The declarations of one scope stand at positions of the unit, in the order of these. -/
theorem scope_sublist {b : Nest} (hb : b ∈ u.nest.preorder) :
    (b.declared.map Symbol.location).Sublist u.positions := by
  refine List.Sublist.trans ?_ u.positions_sublist
  rw [preorder_eq] at hb
  rcases List.mem_cons.mp hb with rfl | hb
  · rw [nest, declared]
    induction u.decls with
    | nil => exact List.nil_sublist _
    | cons d rest ih => exact ((List.nil_sublist _).append ih).cons_cons _
  · rw [nest, Nest.inner, preorderAll_eq_flatMap, List.flatMap_assoc] at hb
    obtain ⟨d, hd, hb⟩ := List.mem_flatMap.mp hb
    rw [← preorderAll_eq_flatMap] at hb
    have hscope : (b.declared.map Symbol.location).Sublist (declaredAt d.nests) := by
      rw [declaredAt_eq, List.flatMap_def]
      exact List.sublist_flatten_of_mem (List.mem_map_of_mem hb)
    rw [List.flatMap_def]
    exact (hscope.cons _).trans (List.sublist_flatten_of_mem (List.mem_map_of_mem hd))

/-- The declarations of a unit stand at different positions if its nodes do. -/
theorem declaredAt_nodup (h : u.positions.Nodup) : (declaredAt [u.nest]).Nodup := by
  have hperm : ∀ ds : List External,
      (ds.flatMap fun d => d.symbol.location :: declaredAt d.nests).Perm
        ((ds.map External.symbol).map Symbol.location ++
          declaredAt (ds.flatMap External.nests)) := by
    intro ds
    induction ds with
    | nil => exact .refl _
    | cons d rest ih =>
      rw [List.flatMap_cons, List.flatMap_cons, declaredAt_append]
      exact ((ih.append_left _).trans (List.perm_append_comm_assoc _ _ _)).cons _
  rw [nest, declaredAt_mk]
  exact (hperm u.decls).nodup_iff.mp (u.positions_sublist.nodup h)

end CompilationUnit

/-- The positions of a compiled unit are in the order of the text. -/
theorem positions_pairwise_of_compile {source : String} {c : Compilation}
    (h : compile source = .ok c) : c.unit.positions.Pairwise Location.Before := by
  have hmarks := (Parse.translationUnit_of_ofTokens? (ofTokens?_of_compile h)).marks
  exact (List.pairwise_map.mpr (scan_pairwise source)).sublist hmarks

end CSubset
