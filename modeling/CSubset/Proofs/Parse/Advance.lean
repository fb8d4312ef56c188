-- SUMMARY: Parsers go forward: no parser is entered again before a token has been taken, so parsing ends and nodes are no more than tokens.
import CSubset.Proofs.Errors.Lookahead
import CSubset.Proofs.Grammar.Anchors
import CSubset.Proofs.Parse.Exactness
import CSubset.Proofs.Parse.Routines
import Mathlib.Tactic

/-!
# Parsers go forward

Where a routine calls another at the place at which it has been entered itself, the other one is of
a lower rank; all other calls are behind a token that has been taken (`Call.Below`). This is read
off the scripts, one by one, and carries over to calls of calls. So no routine is entered twice at
one place, a loop takes a token in each pass, and calls are nested to a depth that the number of
tokens bounds.
-/

namespace CSubset

/-- A cursor stands behind another, with at least `n` tokens between them. -/
structure Cursor.Passes (c : Cursor) (n : Nat) (c' : Cursor) : Prop where
  suffix : c'.rest <:+ c.rest
  far : c'.rest.length + n ≤ c.rest.length

namespace Cursor.Passes

variable {β : Type} {c c' c'' : Cursor} {m n : Nat}

theorem refl (c : Cursor) : c.Passes 0 c := ⟨List.suffix_refl _, Nat.le_refl _⟩

theorem trans (h : c.Passes m c') (h' : c'.Passes n c'') : c.Passes (m + n) c'' := by
  refine ⟨h'.suffix.trans h.suffix, ?_⟩
  have := h.far
  have := h'.far
  omega

theorem weaken (h : c.Passes n c') (hn : m ≤ n) : c.Passes m c' :=
  ⟨h.suffix, Nat.le_trans (Nat.add_le_add_left hn _) h.far⟩

theorem next {pick : Token.Kind → Option β} {x : β × Location} (h : c.next? pick = some (x, c')) :
    c.Passes 1 c' := by
  obtain ⟨k, hrest, -⟩ := next?_eq_some.mp h
  exact ⟨hrest ▸ List.suffix_cons _ _, length_of_next? h⟩

/-- A node takes no token. -/
theorem bump (h : c.Passes n c') : c.Passes n c'.bump := ⟨h.suffix, h.far⟩

end Cursor.Passes

namespace Parse

open Cursor

/-! ## What routines take -/

namespace Routine

/-- How many tokens a routine takes at least. -/
def least : Routine → Nat
  | binaryLoop | suffixLoop | strings | dimensions => 0
  | parameterList | blockDecls | stmts | externals => 0
  | _ => 1

/-- Routines of a higher rank call those of a lower one before they have taken a token. -/
def rank : Routine → Nat
  | suffixed | parameters | heading => 1
  | unary | parameterList | blockDecl | external => 2
  | binary | blockDecls | externals => 3
  | expr => 4
  | argumentList | clause | stmt => 5
  | arguments | stmts => 6
  | block => 7
  | ledStmt => 8
  | _ => 0

theorem rank_le (r : Routine) : r.rank ≤ 8 := by
  cases r <;> decide

end Routine

theorem joinStrings_suffix (ts : List Token) : (joinStrings ts).2 <:+ ts := by
  induction ts with
  | nil => exact List.suffix_refl _
  | cons t rest ih =>
    rw [joinStrings]
    split
    · exact ih.trans (List.suffix_cons _ _)
    · exact List.suffix_refl _

theorem stop_outcome (r : Reading) : stop r.outcome = r.cursor := by
  unfold Reading.outcome
  split <;> rfl

/-- Where a called parser stops, be it with a failure, is not before where it has been called. -/
theorem Call.forward : ∀ e : Call, (stop e.run).rest <:+ e.cursor.rest
  | ⟨.expr, _, c⟩ => (expr_local c).forward
  | ⟨.binary, least, c⟩ => (binary_local least c).forward
  | ⟨.binaryLoop, (least, left), c⟩ => (binaryLoop_local least left c).forward
  | ⟨.unary, _, c⟩ => (unary_local c).forward
  | ⟨.suffixed, _, c⟩ => (suffixed_local c).forward
  | ⟨.suffixLoop, base, c⟩ => (suffixLoop_local base c).forward
  | ⟨.arguments, _, c⟩ => (arguments_local c).forward
  | ⟨.argumentList, _, c⟩ => (argumentList_local c).forward
  | ⟨.primary, _, c⟩ => (primary_local c).forward
  | ⟨.strings, _, c⟩ => joinStrings_suffix c.rest
  | ⟨.dimensions, _, c⟩ => (dimensions_local c).forward
  | ⟨.declarator, _, c⟩ => (declarator_local c).forward
  | ⟨.parameterList, _, c⟩ => (parameterList_local c).forward
  | ⟨.parameters, first, c⟩ => (parameters_local first c).forward
  | ⟨.parameter, _, c⟩ => (parameter_local c).forward
  | ⟨.typedHeading, storage, c⟩ => (typedHeading_local storage c).forward
  | ⟨.heading, _, c⟩ => (heading_local c).forward
  | ⟨.variableEnd, v, c⟩ => (variableEnd_local v c).forward
  | ⟨.blockDecl, _, c⟩ => (blockDecl_local c).forward
  | ⟨.blockDecls, _, c⟩ => (blockDecls_local c).forward
  | ⟨.clause, (stop, place), c⟩ => (clause_local stop place c).forward
  | ⟨.condition, word, c⟩ => (condition_local word c).forward
  | ⟨.forClauses, _, c⟩ => (forClauses_local c).forward
  | ⟨.stmt, _, c⟩ => (stmt_local c).forward
  | ⟨.ledStmt, (lead, l), c⟩ => (ledStmt_local lead l c).forward
  | ⟨.body, owner, c⟩ => (body_local owner c).forward
  | ⟨.block, l, c⟩ => (block_local l c).forward
  | ⟨.stmts, _, c⟩ => (stmts_local c).forward
  | ⟨.external, _, c⟩ => (external_local c).forward
  | ⟨.externals, _, c⟩ => stop_outcome (Reading.from c) ▸ reading_forward c

theorem Call.passes {e : Call} {y : e.routine.Output} {c' : Cursor} (h : e.run = .ok (y, c')) :
    e.cursor.Passes e.routine.least c' := by
  have hsuffix := e.forward
  rw [h] at hsuffix
  refine ⟨hsuffix, ?_⟩
  have hle : c'.rest.length ≤ e.cursor.rest.length := hsuffix.length_le
  obtain ⟨r, x, c⟩ := e
  cases r
  case binaryLoop | suffixLoop | strings | dimensions | parameterList | blockDecls | stmts
    | externals => exact hle
  all_goals exact length_of_plain h

/-- A step that takes tokens. -/
theorem passes_of_parse {α : Type} {p : (c : Cursor) → Parse α c} {c c' : Cursor} {a : α}
    (hlocal : LocalAt (fun c => plain (p c)) c) (h : plain (p c) = .ok (a, c')) :
    c.Passes 1 c' := by
  have hsuffix := hlocal.forward
  rw [h] at hsuffix
  exact ⟨hsuffix, length_of_plain h⟩

/-! ## Calls -/

/-- A call is below another: it is made behind a token that has been taken there, or it is of a
routine of a lower rank. -/
def Call.Below (d e : Call) : Prop :=
  e.cursor.Passes (if d.routine.rank < e.routine.rank then 0 else 1) d.cursor

namespace Call.Below

variable {d e f : Call} {r : Routine} {x : r.Input} {c : Cursor} {n : Nat}

theorem later (h : e.cursor.Passes (n + 1) c) : Below ⟨r, x, c⟩ e := by
  refine h.weaken ?_
  split
  · exact Nat.zero_le _
  · exact Nat.le_add_left 1 n

theorem lower {r' : Routine} {x' : r'.Input} {c' : Cursor} (hr : r.rank < r'.rank)
    (h : c'.Passes n c) : Below ⟨r, x, c⟩ ⟨r', x', c'⟩ := by
  refine h.weaken ?_
  rw [if_pos hr]
  exact Nat.zero_le _

theorem trans (h : d.Below e) (h' : e.Below f) : d.Below f := by
  refine (Passes.trans h' h).weaken ?_
  -- if no token is taken on either way, then the rank falls on both
  split
  · exact Nat.zero_le _
  · split <;> split <;> omega

/-- No routine is at one place below itself or another one of its rank. -/
theorem passes (h : d.Below e) (hrank : ¬ d.routine.rank < e.routine.rank) :
    e.cursor.Passes 1 d.cursor := by
  rw [Below, if_neg hrank] at h
  exact h

end Call.Below

namespace Script

variable {α β : Type} {e : Call}

/-- All calls that a script makes are below the call that it belongs to. -/
def Descends (e : Call) (s : Script β) : Prop := ∀ d ∈ s.calls Call.run, d.Below e

namespace Descends

theorem done {b : β} : Descends e (done b) := fun _ hd => absurd hd List.not_mem_nil

theorem fail {f : Failure} : Descends e (fail f : Script β) :=
  fun _ hd => absurd hd List.not_mem_nil

theorem call {b : Call} {next : b.routine.Output × Cursor → Script β} (h : b.Below e)
    (hnext : ∀ y c', b.cursor.Passes b.routine.least c' → Descends e (next (y, c'))) :
    Descends e (.call b next) := by
  intro d hd
  rw [calls] at hd
  rcases List.mem_cons.mp hd with rfl | hd
  · exact h
  · split at hd
    · next out hrun => exact hnext out.1 out.2 (Call.passes hrun) d hd
    · cases hd

theorem ask {r : Routine} {x : r.Input} {c : Cursor} (h : Call.Below ⟨r, x, c⟩ e) :
    Descends e (ask r x c) := call h fun _ _ _ => done

theorem ask_bind {r : Routine} {x : r.Input} {c : Cursor} {f : r.Output × Cursor → Script β}
    (h : Call.Below ⟨r, x, c⟩ e) (hf : ∀ y c', c.Passes r.least c' → Descends e (f (y, c'))) :
    Descends e (Script.ask r x c >>= f) := call h hf

theorem step_bind {p : (c : Cursor) → Parse α c} {c : Cursor} {f : α × Cursor → Script β}
    (hlocal : LocalAt (fun c => plain (p c)) c)
    (hf : ∀ a c', c.Passes 1 c' → Descends e (f (a, c'))) :
    Descends e (step (plain (p c)) >>= f) := by
  rcases h : plain (p c) with failure | ⟨a, c'⟩
  · exact fail
  · exact hf a c' (passes_of_parse hlocal h)

end Descends

/-! ### Expressions -/

theorem expr_descends (c : Cursor) : Descends ⟨.expr, (), c⟩ (expr c) := by
  refine .ask_bind (.lower (by decide) (.refl c)) fun target c₁ h₁ => ?_
  dsimp only
  split
  · exact .done
  · next h => exact .ask_bind (.later (h₁.trans (.next h))) fun _ _ _ => .done

theorem binary_descends (least : Nat) (c : Cursor) :
    Descends ⟨.binary, least, c⟩ (binary least c) :=
  .ask_bind (.lower (by decide) (.refl c)) fun _ _ h₁ => .ask (.later h₁)

theorem binaryLoop_descends (least : Nat) (left : Expr) (c : Cursor) :
    Descends ⟨.binaryLoop, (least, left), c⟩ (binaryLoop least left c) := by
  unfold binaryLoop
  split
  · exact .done
  · next h =>
    have h₁ := Passes.next h
    exact .ask_bind (.later h₁) fun right c₂ h₂ => .ask (.later (h₁.trans h₂).bump)

theorem unary_descends (c : Cursor) : Descends ⟨.unary, (), c⟩ (unary c) := by
  unfold unary
  split
  · exact .ask (.lower (by decide) (.refl c))
  · next h => exact .ask_bind (.later (.next h)) fun _ _ _ => .done

theorem suffixed_descends (c : Cursor) : Descends ⟨.suffixed, (), c⟩ (suffixed c) :=
  .ask_bind (.lower (by decide) (.refl c)) fun _ _ h₁ => .ask (.later h₁)

theorem suffixLoop_descends (base : Expr) (c : Cursor) :
    Descends ⟨.suffixLoop, base, c⟩ (suffixLoop base c) := by
  unfold suffixLoop
  split
  · next h =>
    have h₁ := Passes.next h
    exact .ask_bind (.later h₁) fun args c₂ h₂ => .ask (.later (h₁.trans h₂).bump)
  · split
    · exact .done
    · next h =>
      have h₁ := Passes.next h
      refine .ask_bind (.later h₁) fun subscript c₂ h₂ => ?_
      exact .step_bind (expect_local _ _ c₂) fun _ c₃ h₃ =>
        .ask (.later ((h₁.trans h₂).trans h₃).bump)

theorem arguments_descends (c : Cursor) : Descends ⟨.arguments, (), c⟩ (arguments c) := by
  unfold arguments
  split
  · exact .done
  · exact .ask_bind (.lower (by decide) (.refl c)) fun list c₁ _ =>
      .step_bind (expect_local _ _ c₁) fun _ _ _ => .done

theorem argumentList_descends (c : Cursor) :
    Descends ⟨.argumentList, (), c⟩ (argumentList c) := by
  refine .ask_bind (.lower (by decide) (.refl c)) fun first c₁ h₁ => ?_
  dsimp only
  split
  · exact .done
  · next h => exact .ask_bind (.later (h₁.trans (.next h))) fun _ _ _ => .done

theorem primary_descends (c : Cursor) : Descends ⟨.primary, (), c⟩ (primary c) := by
  unfold primary
  split
  · exact .done
  · split
    · next h => exact .ask_bind (.later (.next h)) fun _ _ _ => .done
    · split
      · exact .fail
      · next h =>
        refine .ask_bind (.later (.next h)) fun inner c₂ _ => ?_
        exact .step_bind (expect_local _ _ c₂) fun _ _ _ => .done

theorem strings_descends (c : Cursor) : Descends ⟨.strings, (), c⟩ (strings c) := by
  unfold strings
  split
  · exact .done
  · next h => exact .ask_bind (.later (.next h)) fun _ _ _ => .done

/-! ### Declarations -/

theorem dimensions_descends (c : Cursor) : Descends ⟨.dimensions, (), c⟩ (dimensions c) := by
  unfold dimensions
  split
  · exact .done
  · next h =>
    split
    · exact .fail
    · next size _ c₂ h' =>
      have h₂ := (Passes.next h).trans (.next h')
      exact .step_bind (expect_local _ _ c₂) fun _ c₃ h₃ =>
        .ask_bind (.later (h₂.trans h₃)) fun _ _ _ => .done

theorem declarator_descends (c : Cursor) : Descends ⟨.declarator, (), c⟩ (declarator c) := by
  unfold declarator
  split
  · next h => exact .ask_bind (.later (.next h)) fun _ _ _ => .done
  · split
    · exact .fail
    · next h =>
      split
      · next h' =>
        refine .ask_bind (.later ((Passes.next h).trans (.next h'))) fun list c₃ _ => ?_
        exact .step_bind (expect_local _ _ c₃) fun _ _ _ => .done
      · exact .ask_bind (.later (.next h)) fun _ _ _ => .done

theorem parameterList_descends (c : Cursor) :
    Descends ⟨.parameterList, (), c⟩ (parameterList c) := by
  unfold parameterList
  split
  · exact .done
  · split
    · exact .done
    · exact .ask (.lower (by decide) (.refl c))

theorem parameters_descends (first : Bool) (c : Cursor) :
    Descends ⟨.parameters, first, c⟩ (parameters first c) := by
  unfold parameters
  split
  · split
    · exact .fail
    · exact .done
  · refine .ask_bind (.lower (by decide) (.refl c)) fun p c₁ h₁ => ?_
    dsimp only
    split
    · exact .done
    · next h => exact .ask_bind (.later (h₁.trans (.next h))) fun _ _ _ => .done

theorem parameter_descends (c : Cursor) : Descends ⟨.parameter, (), c⟩ (parameter c) := by
  refine .step_bind (typeSpecifier_local c) fun type c₁ h₁ => ?_
  refine .ask_bind (.later h₁) fun d c₂ _ => ?_
  dsimp only
  split
  · exact .fail
  · exact .done

theorem typedHeading_descends (storage : Storage) (c : Cursor) :
    Descends ⟨.typedHeading, storage, c⟩ (typedHeading storage c) :=
  .step_bind (typeSpecifier_local c) fun _ _ h₁ => .ask_bind (.later h₁) fun _ _ _ => .done

theorem heading_descends (c : Cursor) : Descends ⟨.heading, (), c⟩ (heading c) := by
  unfold heading
  split
  · next h => exact .ask (.later (.next h))
  · exact .ask (.lower (by decide) (.refl c))

theorem variableEnd_descends (v : Variable) (c : Cursor) :
    Descends ⟨.variableEnd, v, c⟩ (variableEnd v c) := by
  unfold variableEnd
  split
  · next h =>
    refine .ask_bind (.later (.next h)) fun value c₂ _ => ?_
    exact .step_bind (expect_local _ _ c₂) fun _ _ _ => .done
  · exact .step_bind (expect_local _ _ c) fun _ _ _ => .done

theorem blockDecl_descends (c : Cursor) : Descends ⟨.blockDecl, (), c⟩ (blockDecl c) := by
  refine .ask_bind (.lower (by decide) (.refl c)) fun h c₁ h₁ => ?_
  dsimp only
  split
  · exact .ask_bind (.later h₁) fun _ _ _ => .done
  · split
    · exact .fail
    · next p _ => exact .step_bind (prototypeEnd_local p c₁) fun _ _ _ => .done

/-! ### Statements -/

theorem blockDecls_descends (c : Cursor) : Descends ⟨.blockDecls, (), c⟩ (blockDecls c) := by
  unfold blockDecls
  split
  · exact .ask_bind (.lower (by decide) (.refl c)) fun _ _ h₁ =>
      .ask_bind (.later h₁) fun _ _ _ => .done
  · exact .done

theorem clause_descends (stop : Punctuator) (place : Place) (c : Cursor) :
    Descends ⟨.clause, (stop, place), c⟩ (clause stop place c) := by
  unfold clause
  split
  · exact .done
  · exact .ask_bind (.lower (by decide) (.refl c)) fun e c₁ _ =>
      .step_bind (expect_local _ _ c₁) fun _ _ _ => .done

theorem condition_descends (word : Keyword) (c : Cursor) :
    Descends ⟨.condition, word, c⟩ (condition word c) := by
  refine .step_bind (expect_local _ _ c) fun _ c₁ h₁ => ?_
  exact .ask_bind (.later h₁) fun e c₂ _ =>
    .step_bind (expect_local _ _ c₂) fun _ _ _ => .done

theorem forClauses_descends (c : Cursor) : Descends ⟨.forClauses, (), c⟩ (forClauses c) := by
  refine .step_bind (expect_local _ _ c) fun _ c₁ h₁ => ?_
  refine .ask_bind (.later h₁) fun first c₂ h₂ => ?_
  refine .ask_bind (.later (h₁.trans h₂)) fun middle c₃ h₃ => ?_
  exact .ask_bind (.later ((h₁.trans h₂).trans h₃)) fun _ _ _ => .done

theorem stmt_descends (c : Cursor) : Descends ⟨.stmt, (), c⟩ (stmt c) := by
  unfold stmt
  split
  · exact .ask_bind (.lower (by decide) (.refl c)) fun e c₁ _ =>
      .step_bind (expect_local _ _ c₁) fun _ _ _ => .done
  · next h => exact .ask (.later (.next h))

theorem ledStmt_descends (lead : Leader) (l : Location) (c : Cursor) :
    Descends ⟨.ledStmt, (lead, l), c⟩ (ledStmt lead l c) := by
  cases lead with
  | block => exact .ask_bind (.lower (by decide) (.refl c)) fun _ _ _ => .done
  | branch =>
    refine .ask_bind (.lower (by decide) (.refl c)) fun e c₁ h₁ => ?_
    refine .ask_bind (.later h₁) fun b c₂ h₂ => ?_
    dsimp only
    split
    · exact .done
    · next h => exact .ask_bind (.later ((h₁.trans h₂).trans (.next h))) fun _ _ _ => .done
  | whileLoop =>
    exact .ask_bind (.lower (by decide) (.refl c)) fun _ _ h₁ =>
      .ask_bind (.later h₁) fun _ _ _ => .done
  | forLoop =>
    exact .ask_bind (.lower (by decide) (.refl c)) fun _ _ h₁ =>
      .ask_bind (.later h₁) fun _ _ _ => .done
  | returnStmt => exact .ask_bind (.lower (by decide) (.refl c)) fun _ _ _ => .done
  | jump kind => exact .step_bind (expect_local _ _ c) fun _ _ _ => .done

theorem body_descends (owner : Keyword) (c : Cursor) :
    Descends ⟨.body, owner, c⟩ (body owner c) := by
  unfold body
  split
  · exact .fail
  · next h => exact .ask (.later (.next h))

theorem block_descends (l : Location) (c : Cursor) : Descends ⟨.block, l, c⟩ (block l c) := by
  refine .ask_bind (.lower (by decide) (.refl c)) fun ds c₁ h₁ => ?_
  -- there may be no declarations, so the statements may begin where the block does
  refine .ask_bind (.lower (by decide) h₁) fun ss c₂ _ => ?_
  exact .step_bind (expect_local _ _ c₂) fun _ _ _ => .done

theorem stmts_descends (c : Cursor) : Descends ⟨.stmts, (), c⟩ (stmts c) := by
  unfold stmts
  split
  · exact .done
  · split
    · exact .done
    · split
      · exact .fail
      · exact .ask_bind (.lower (by decide) (.refl c)) fun _ _ h₁ =>
          .ask_bind (.later h₁) fun _ _ _ => .done

/-! ### Units -/

theorem external_descends (c : Cursor) : Descends ⟨.external, (), c⟩ (external c) := by
  refine .ask_bind (.lower (by decide) (.refl c)) fun h c₁ h₁ => ?_
  dsimp only
  split
  · exact .ask_bind (.later h₁) fun _ _ _ => .done
  · next p =>
    split
    · exact .step_bind (prototypeEnd_local p c₁) fun _ _ _ => .done
    · next h =>
      split
      · exact .fail
      · exact .ask_bind (.later (h₁.trans (.next h))) fun _ _ _ => .done

theorem externals_descends (c : Cursor) : Descends ⟨.externals, (), c⟩ (externals c) := by
  unfold externals
  split
  · exact .done
  · exact .ask_bind (.lower (by decide) (.refl c)) fun _ _ h₁ =>
      .ask_bind (.later h₁) fun _ _ _ => .done

end Script

/-- The calls that are made in a call are below it. -/
theorem Call.descends : ∀ e : Call, e.script.Descends e
  | ⟨.expr, _, c⟩ => Script.expr_descends c
  | ⟨.binary, least, c⟩ => Script.binary_descends least c
  | ⟨.binaryLoop, (least, left), c⟩ => Script.binaryLoop_descends least left c
  | ⟨.unary, _, c⟩ => Script.unary_descends c
  | ⟨.suffixed, _, c⟩ => Script.suffixed_descends c
  | ⟨.suffixLoop, base, c⟩ => Script.suffixLoop_descends base c
  | ⟨.arguments, _, c⟩ => Script.arguments_descends c
  | ⟨.argumentList, _, c⟩ => Script.argumentList_descends c
  | ⟨.primary, _, c⟩ => Script.primary_descends c
  | ⟨.strings, _, c⟩ => Script.strings_descends c
  | ⟨.dimensions, _, c⟩ => Script.dimensions_descends c
  | ⟨.declarator, _, c⟩ => Script.declarator_descends c
  | ⟨.parameterList, _, c⟩ => Script.parameterList_descends c
  | ⟨.parameters, first, c⟩ => Script.parameters_descends first c
  | ⟨.parameter, _, c⟩ => Script.parameter_descends c
  | ⟨.typedHeading, storage, c⟩ => Script.typedHeading_descends storage c
  | ⟨.heading, _, c⟩ => Script.heading_descends c
  | ⟨.variableEnd, v, c⟩ => Script.variableEnd_descends v c
  | ⟨.blockDecl, _, c⟩ => Script.blockDecl_descends c
  | ⟨.blockDecls, _, c⟩ => Script.blockDecls_descends c
  | ⟨.clause, (stop, place), c⟩ => Script.clause_descends stop place c
  | ⟨.condition, word, c⟩ => Script.condition_descends word c
  | ⟨.forClauses, _, c⟩ => Script.forClauses_descends c
  | ⟨.stmt, _, c⟩ => Script.stmt_descends c
  | ⟨.ledStmt, (lead, l), c⟩ => Script.ledStmt_descends lead l c
  | ⟨.body, owner, c⟩ => Script.body_descends owner c
  | ⟨.block, l, c⟩ => Script.block_descends l c
  | ⟨.stmts, _, c⟩ => Script.stmts_descends c
  | ⟨.external, _, c⟩ => Script.external_descends c
  | ⟨.externals, _, c⟩ => Script.externals_descends c

/-! ## Calls of calls -/

/-- The first call makes the second. -/
def Calls (e d : Call) : Prop := d ∈ e.script.calls Call.run

/-- A script that begins with a call makes it. -/
theorem Calls.first {e d : Call}
    {next : d.routine.Output × Cursor → Script (e.routine.Output × Cursor)}
    (h : e.script = .call d next) : Calls e d := by
  rw [Calls, h, Script.calls]
  exact List.mem_cons_self

/-- A script whose first call succeeds and which then makes another one makes that one too. -/
theorem Calls.second {e d b : Call} {out : d.routine.Output × Cursor}
    {next : d.routine.Output × Cursor → Script (e.routine.Output × Cursor)}
    {later : b.routine.Output × Cursor → Script (e.routine.Output × Cursor)}
    (h : e.script = .call d next) (hrun : d.run = .ok out) (hnext : next out = .call b later) :
    Calls e b := by
  rw [Calls, h, Script.calls, hrun]
  dsimp only
  rw [hnext, Script.calls]
  exact List.mem_cons_of_mem _ List.mem_cons_self

/-- Whatever comes of a call on the way is below it. -/
theorem below_of_calls {e d : Call} (h : Relation.TransGen Calls e d) : d.Below e := by
  induction h with
  | single h => exact Call.descends e _ h
  | tail _ h ih => exact (Call.descends _ _ h).trans ih

/-! ## Parsing ends -/

/-- A bound on the number of calls inside each other. -/
def Call.depth (e : Call) : Nat := 9 * e.cursor.rest.length + e.routine.rank

theorem Call.Below.depth_lt {d e : Call} (h : d.Below e) : d.depth < e.depth := by
  have hfar := h.far
  have hd := d.routine.rank_le
  unfold depth
  split at hfar <;> omega

/-- What comes of a call if no more than `n` calls may be inside each other. All that is known of
the parsers are their scripts. -/
def within : Nat → (e : Call) → Option e.Result
  | 0, _ => none
  | n + 1, e => e.script.attempt (within n)

theorem Script.attempt_eq {β : Type} {answer : (e : Call) → Option e.Result} {s : Script β}
    (h : ∀ d ∈ s.calls Call.run, answer d = some d.run) :
    s.attempt answer = some (s.eval Call.run) := by
  induction s with
  | done | fail => rfl
  | call e next ih =>
    rw [calls, List.forall_mem_cons] at h
    obtain ⟨he, hnext⟩ := h
    rw [attempt, he, eval]
    rcases hrun : e.run with f | out
    · rfl
    · rw [hrun] at hnext
      exact ih out hnext

/-- Calls that may be deep enough inside each other come to what the parser finds. -/
theorem within_eq {n : Nat} {e : Call} (h : e.depth < n) : within n e = some e.run := by
  induction n generalizing e with
  | zero => cases h
  | succ n ih =>
    rw [within, ← e.run_eq]
    refine Script.attempt_eq fun d hd => ih ?_
    have := (e.descends d hd).depth_lt
    omega

/-! ## Whole token lists -/

/-- The call that reads a unit. -/
def Call.unit (ts : List Token) : Call := ⟨.externals, (), .ofTokens ts⟩

/-- The unit that declarations make up, or the report of the failure among all tokens. -/
def report (ts : List Token) :
    Except Failure (List External × Cursor) → Except SyntaxError CompilationUnit
  | .ok (ds, _) => .ok ⟨ds⟩
  | .error f => .error (f.complaint.report f.cursor.rest ts)

theorem ofTokens?_eq_report (ts : List Token) :
    CompilationUnit.ofTokens? ts = report ts (Call.unit ts).run := by
  change (Reading.from (.ofTokens ts)).result ts = report ts (Reading.from (.ofTokens ts)).outcome
  unfold Reading.result Reading.outcome
  cases (Reading.from (.ofTokens ts)).failure <;> rfl

end Parse

/-- A cursor stands at a position in a list of tokens, at its end at most. -/
def Cursor.At (c : Cursor) (ts : List Token) (p : Nat) : Prop :=
  p ≤ ts.length ∧ c.rest = ts.drop p

theorem Cursor.At.length_rest {c : Cursor} {ts : List Token} {p : Nat} (h : c.At ts p) :
    c.rest.length = ts.length - p := h.2 ▸ List.length_drop

theorem Cursor.Passes.at {c c' : Cursor} {ts : List Token} {n p : Nat} (h : c.Passes n c')
    (hc : c.At ts p) : ∃ q, c'.At ts q ∧ p + n ≤ q := by
  have hsuffix : c'.rest <:+ ts := h.suffix.trans (hc.2 ▸ List.drop_suffix p ts)
  refine ⟨ts.length - c'.rest.length, ⟨Nat.sub_le _ _, List.suffix_iff_eq_drop.mp hsuffix⟩, ?_⟩
  have hfar := h.far
  have hrest := hc.length_rest
  have hp := hc.1
  omega

theorem length_nodes_le {ts : List Token} {u : CompilationUnit}
    (h : CompilationUnit.ofTokens? ts = .ok u) :
    (((Node.unit u).walk fun _ => true).filterMap Node.expr?).length ≤ ts.length := by
  have hanchors := (Parse.translationUnit_of_ofTokens? h).anchors
  have hlocations := (u.exprs_locations_sublist.trans hanchors.locations).length_le
  rw [List.length_map, List.length_map] at hlocations
  have hinorder : (u.exprs.flatMap Expr.inorder).Perm (u.exprs.flatMap Expr.nodes) :=
    List.Perm.flatMap_left _ fun e _ => e.inorder_perm_nodes
  have hlength := ((Walk.found_unit_perm u).trans hinorder.symm).length_eq
  exact hlength ▸ hlocations

open Parse in
/-- Wherever in a list of tokens a parser is called, it stops at the same place or behind it, at the
end at most; if it succeeds, then it has taken the tokens that it has to take, at least one for all
parsers but those that read any number of parts. No parser is called again on the way, be it for the
next pass of a loop or from deep inside, before a token has been taken; nor is a declaration in a
block read at the place of the declaration around it. So no more calls can be inside each other than
the tokens ahead allow, and their scripts alone come to what the parsers find: each list of tokens
forms a unit or has a first error. A unit has no more expression nodes than tokens. -/
theorem parsing_advances (ts : List Token) :
    (∀ (e : Call) (p : Nat), e.cursor.At ts p →
      (∃ q, (stop e.run).At ts q ∧ p ≤ q ∧ (e.run.isOk = true → p + e.routine.least ≤ q)) ∧
      (∀ d, Relation.TransGen Calls e d →
        ∃ q, d.cursor.At ts q ∧ p ≤ q ∧
          (d.routine = e.routine ∨ d.routine = .blockDecl ∧ e.routine = .external → p < q)) ∧
      within (9 * (ts.length - p) + 9) e = some e.run) ∧
    (within (9 * ts.length + 9) (.unit ts)).map (report ts) =
      some (CompilationUnit.ofTokens? ts) ∧
    ∀ u, CompilationUnit.ofTokens? ts = .ok u →
      (((Node.unit u).walk fun _ => true).filterMap Node.expr?).length ≤ ts.length := by
  have hdepth (e : Call) : e.depth < 9 * e.cursor.rest.length + 9 :=
    Nat.add_lt_add_left (Nat.lt_succ_of_le e.routine.rank_le) _
  refine ⟨fun e p he => ⟨?_, fun d hd => ?_, ?_⟩, ?_, fun u => length_nodes_le⟩
  · rcases hrun : e.run with f | ⟨y, c⟩
    · have hforward := e.forward
      rw [hrun] at hforward
      have hpasses : e.cursor.Passes 0 f.cursor := ⟨hforward, hforward.length_le⟩
      obtain ⟨q, hq, hle⟩ := hpasses.at he
      exact ⟨q, hq, hle, nofun⟩
    · obtain ⟨q, hq, hle⟩ := (Call.passes hrun).at he
      exact ⟨q, hq, Nat.le_of_add_right_le hle, fun _ => hle⟩
  · have hbelow := below_of_calls hd
    by_cases hagain : d.routine = e.routine ∨ d.routine = .blockDecl ∧ e.routine = .external
    · have hrank : ¬ d.routine.rank < e.routine.rank := by
        rcases hagain with heq | ⟨hd, he⟩
        · exact heq ▸ Nat.lt_irrefl _
        · rw [hd, he]
          exact Nat.lt_irrefl _
      obtain ⟨q, hq, hlt⟩ := (hbelow.passes hrank).at he
      exact ⟨q, hq, Nat.le_of_lt hlt, fun _ => hlt⟩
    · obtain ⟨q, hq, hle⟩ := (Cursor.Passes.weaken hbelow (Nat.zero_le _)).at he
      exact ⟨q, hq, hle, fun h => absurd h hagain⟩
  · exact he.length_rest ▸ within_eq (hdepth e)
  · rw [ofTokens?_eq_report]
    exact congrArg (Option.map (report ts)) (within_eq (hdepth (.unit ts)))

/-- The tokens of `int f() { int a = (1); }`. -/
def groupedLiteralTokens : List Token :=
  [.ofWord .intKw ⟨1, 1⟩, ⟨.identifier "f", ⟨1, 5⟩⟩, .ofMark .leftParen ⟨1, 6⟩,
    .ofMark .rightParen ⟨1, 7⟩, .ofMark .leftBrace ⟨1, 9⟩, .ofWord .intKw ⟨1, 11⟩,
    ⟨.identifier "a", ⟨1, 15⟩⟩, .ofMark .assign ⟨1, 17⟩, .ofMark .leftParen ⟨1, 19⟩,
    ⟨.intLiteral 1, ⟨1, 20⟩⟩, .ofMark .rightParen ⟨1, 21⟩, .ofMark .semicolon ⟨1, 22⟩,
    .ofMark .rightBrace ⟨1, 24⟩]

/-- The head of the function that these tokens define. -/
def groupedLiteralPrototype : Prototype :=
  ⟨⟨.int, false, 0, []⟩, "f", [], false, .none, ⟨1, 5⟩⟩

/-- The unit that these tokens form. -/
def groupedLiteralUnit : CompilationUnit :=
  ⟨[.definition groupedLiteralPrototype
    (.mk
      [.var ⟨⟨.int, false, 0, []⟩, "a", some (.literal ⟨0, ⟨1, 20⟩⟩ (.int 1)), .none, ⟨1, 15⟩⟩] []
      ⟨1, 9⟩)]⟩

/-- The declaration in the block is read inside that of the function, and the expression in
parentheses inside the one that begins with the parenthesis. -/
theorem parsing_advances_groupedLiteral :
    let function : Parse.Call := ⟨.external, (), ⟨groupedLiteralTokens, 0⟩⟩
    let decl : Parse.Call := ⟨.blockDecl, (), ⟨groupedLiteralTokens.drop 5, 0⟩⟩
    let outer : Parse.Call := ⟨.expr, (), ⟨groupedLiteralTokens.drop 8, 0⟩⟩
    let inner : Parse.Call := ⟨.expr, (), ⟨groupedLiteralTokens.drop 9, 0⟩⟩
    Relation.TransGen Parse.Calls function decl ∧
      (∃ q, decl.cursor.At groupedLiteralTokens q ∧ 0 < q) ∧
      outer.cursor.At groupedLiteralTokens 8 ∧ Relation.TransGen Parse.Calls outer inner ∧
      (∃ q, inner.cursor.At groupedLiteralTokens q ∧ 8 < q) ∧
      Parse.within 54 outer = some outer.run ∧
      CompilationUnit.ofTokens? groupedLiteralTokens = .ok groupedLiteralUnit ∧
      (((Node.unit groupedLiteralUnit).walk fun _ => true).filterMap Node.expr?).length ≤ 13 := by
  intro function decl outer inner
  have hat : outer.cursor.At groupedLiteralTokens 8 := ⟨by decide, rfl⟩
  have hparse : CompilationUnit.ofTokens? groupedLiteralTokens = .ok groupedLiteralUnit := by cbv
  have hdeclares : Relation.TransGen Parse.Calls function decl := by
    have hheading : Parse.Call.run ⟨.heading, (), function.cursor⟩ =
        .ok (.function groupedLiteralPrototype, ⟨groupedLiteralTokens.drop 4, 0⟩) := by cbv
    have hblock : Parse.Calls function ⟨.block, ⟨1, 9⟩, decl.cursor⟩ :=
      .second rfl hheading rfl
    have hdecls : Parse.Calls ⟨.block, ⟨1, 9⟩, decl.cursor⟩
        ⟨.blockDecls, (), decl.cursor⟩ := .first rfl
    have hlast : Parse.Calls ⟨.blockDecls, (), decl.cursor⟩ decl := .first rfl
    exact .head hblock (.head hdecls (.single hlast))
  have hcalls : Relation.TransGen Parse.Calls outer inner := by
    have hbinary : Parse.Calls outer ⟨.binary, 1, outer.cursor⟩ := .first rfl
    have hunary : Parse.Calls ⟨.binary, 1, outer.cursor⟩ ⟨.unary, (), outer.cursor⟩ := .first rfl
    have hsuffixed : Parse.Calls ⟨.unary, (), outer.cursor⟩ ⟨.suffixed, (), outer.cursor⟩ :=
      .first rfl
    have hprimary : Parse.Calls ⟨.suffixed, (), outer.cursor⟩ ⟨.primary, (), outer.cursor⟩ :=
      .first rfl
    have hinner : Parse.Calls ⟨.primary, (), outer.cursor⟩ inner := .first rfl
    exact .head hbinary (.head hunary (.head hsuffixed (.head hprimary (.single hinner))))
  obtain ⟨hrun, -, hnodes⟩ := parsing_advances groupedLiteralTokens
  obtain ⟨-, hbelow, -⟩ := hrun function 0 ⟨Nat.zero_le _, rfl⟩
  obtain ⟨k, hk, -, hpos⟩ := hbelow decl hdeclares
  obtain ⟨-, hbelow, hwithin⟩ := hrun outer 8 hat
  obtain ⟨q, hq, -, hlt⟩ := hbelow inner hcalls
  exact ⟨hdeclares, ⟨k, hk, hpos (.inr ⟨rfl, rfl⟩)⟩, hat, hcalls, ⟨q, hq, hlt (.inl rfl)⟩, hwithin,
    hparse, hnodes _ hparse⟩

end CSubset
