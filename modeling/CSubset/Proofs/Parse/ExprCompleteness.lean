-- SUMMARY: Expressions that the grammar derives are read by the parser, and no token more.
import CSubset.Proofs.Parse.FirstTokens

/-!
# Completeness for expressions

A derivation covers some tokens and the parser goes on as long as it can, so the parser
stops at the end of the derivation only if what follows cannot extend the phrase.
`EndsSuffixed`, `EndsBinary` and `EndsExpr` say so for the strata. For the strata with loops
the statement is that reading a derived phrase comes down to entering the loop behind it.
-/

namespace CSubset

open Grammar

namespace Parse

/-! ## What ends an expression -/

/-- The tokens ahead do not go on with a string literal, a call or a subscript. -/
structure EndsSuffixed (ts : List Token) : Prop where
  string : NextNot string? ts
  call : NextNot (mark? .leftParen) ts
  index : NextNot (mark? .leftBracket) ts

/-- The tokens ahead do not go on with a binary operator of stratum `p` or tighter, either. -/
structure EndsBinary (p : Nat) (ts : List Token) : Prop extends EndsSuffixed ts where
  operator : NextNot (binaryOpFrom? p) ts

/-- The tokens ahead cannot extend an expression. -/
structure EndsExpr (ts : List Token) : Prop extends EndsBinary 1 ts where
  assign : NextNot assignOp? ts

theorem EndsBinary.mono {p q : Nat} {ts : List Token} (hpq : p ≤ q) (h : EndsBinary p ts) :
    EndsBinary q ts :=
  ⟨h.toEndsSuffixed, nextNot_binary_mono hpq h.operator⟩

theorem endsBinary_assign (p : Nat) (op : AssignOp) (l : Location) (ts : List Token) :
    EndsBinary p (.ofMark op.mark l :: ts) := by
  rcases op with _ | _ | _ | _ | _ | _ <;>
    exact ⟨⟨nextNot_cons.mpr rfl, nextNot_cons.mpr rfl, nextNot_cons.mpr rfl⟩,
      nextNot_cons.mpr rfl⟩

theorem endsBinary_operator {p : Nat} {op : BinaryOp} (h : op.precedence < p) (l : Location)
    (ts : List Token) : EndsBinary p (.ofMark op.mark l :: ts) := by
  refine ⟨?_, ?_⟩
  · rcases op with (_ | _ | _ | _ | _) | (_ | _ | _ | _) | _ | _ | _ | _ <;>
      exact ⟨nextNot_cons.mpr rfl, nextNot_cons.mpr rfl, nextNot_cons.mpr rfl⟩
  · rw [nextNot_cons]
    refine Option.eq_none_iff_forall_ne_some.mpr fun op' hop => ?_
    obtain ⟨hk, hle⟩ := binaryOpFrom?_eq_some.mp hop
    have hop' : binaryOp? (.punctuator op.mark) = some op' := binaryOp?_eq_some.mpr hk
    rw [binaryOp?_eq_some.mpr rfl] at hop'
    cases hop'
    omega

/-- Closing marks, separators and semicolons end an expression. -/
theorem endsExpr_of_mark {m : Punctuator}
    (hm : m = .rightParen ∨ m = .rightBracket ∨ m = .comma ∨ m = .semicolon) (l : Location)
    (ts : List Token) : EndsExpr (.ofMark m l :: ts) := by
  rcases hm with rfl | rfl | rfl | rfl <;>
    exact ⟨⟨⟨nextNot_cons.mpr rfl, nextNot_cons.mpr rfl, nextNot_cons.mpr rfl⟩,
      nextNot_cons.mpr rfl⟩, nextNot_cons.mpr rfl⟩

/-! ## Loops that end at once -/

theorem binaryLoop_done {least : Nat} {e : Expr} {c : Cursor}
    (h : NextNot (binaryOpFrom? least) c.rest) : binaryLoop least e c = .ok (e, c) := by
  rw [binaryLoop_eq, Cursor.next?_eq_none.mpr h]

theorem suffixLoop_done {e : Expr} {c : Cursor} (h : EndsSuffixed c.rest) :
    suffixLoop e c = .ok (e, c) := by
  rw [suffixLoop_eq, Cursor.next?_eq_none.mpr h.call, Cursor.next?_eq_none.mpr h.index]

theorem joinStrings_append {ts : List Token} {s : String} (h : Strings ts s) {rest : List Token}
    (hr : NextNot string? rest) : joinStrings (ts ++ rest) = (s, rest) := by
  induction h with
  | nil =>
    cases rest with
    | nil => rfl
    | cons t rest =>
      rw [List.nil_append, joinStrings, nextNot_cons.mp hr]
  | cons h ih =>
    rw [List.cons_append, joinStrings, ih]
    rfl

/-! ## Reading what is derived -/

mutual

theorem expr_complete {i j : Nat} {ts rest : List Token} {e : Expr} (hr : EndsExpr rest) :
    Assignment i ts e j → plain (expr ⟨ts ++ rest, i⟩) = .ok (e, ⟨rest, j⟩)
  | .operand h => by
    have h₁ := binary_complete (Nat.le_refl 1) (hr.toEndsBinary.mono (by decide)) h
    have h₂ := Cursor.next?_eq_none (c := ⟨rest, j⟩).mpr hr.assign
    rw [plain_expr, h₁, binaryLoop_done hr.operator]
    simp only [ok_bind, h₂]
  | @Assignment.assign _ j _ _ us op l _ _ ht hv => by
    have h₁ := binary_complete (Nat.le_refl 1) (endsBinary_assign _ op l (us ++ rest)) ht
    have h₂ := expr_complete hr hv
    rw [plain_expr, List.append_assoc, List.cons_append, h₁,
      binaryLoop_done (endsBinary_assign 1 op l _).operator]
    simp only [ok_bind, Cursor.next?_cons, assignOp?_mark, Option.map_some, h₂, Cursor.bump_mk]

theorem binary_complete {least p i j : Nat} {ts rest : List Token} {e : Expr} (hle : least ≤ p)
    (hr : EndsBinary (p + 1) rest) :
    Binary p i ts e j → plain (binary least ⟨ts ++ rest, i⟩) = binaryLoop least e ⟨rest, j⟩
  | .operand h => by
    rw [plain_binary, unary_complete hr.toEndsSuffixed h, ok_bind]
  | .tighter h => binary_complete (Nat.le_succ_of_le hle) (hr.mono (Nat.le_succ _)) h
  | @Binary.operator _ _ j k _ us op l _ _ hop hl hr' => by
    have hp : op.precedence = p := mem_stratum.mp hop
    have hends := endsBinary_operator (Nat.lt_succ_of_le (Nat.le_of_eq hp)) l (us ++ rest)
    have h₁ := binary_complete hle hends hl
    have h₂ := binary_complete (Nat.le_refl _) (hr.mono (Nat.le_succ _)) hr'
    have h₃ := fun e => binaryLoop_done (e := e) (c := ⟨rest, k⟩) hr.operator
    rw [List.append_assoc, List.cons_append, h₁, binaryLoop_eq]
    simp only [Cursor.next?_cons, binaryOpFrom?_mark (hp ▸ hle), Option.map_some, hp, h₂, h₃,
      ok_bind, Cursor.bump_mk]

theorem unary_complete {i j : Nat} {ts rest : List Token} {e : Expr} (hr : EndsSuffixed rest) :
    Unary i ts e j → plain (unary ⟨ts ++ rest, i⟩) = .ok (e, ⟨rest, j⟩)
  | .operand h => by
    have h₁ := Cursor.next?_eq_none (c := ⟨ts ++ rest, i⟩).mpr (h.nextNot_unaryOp rest)
    have h₂ := suffixed_complete hr.string h
    rw [plain_unary, h₁, h₂, suffixLoop_done hr]
  | .operator h => by
    have h₁ := unary_complete hr h
    rw [plain_unary, List.cons_append]
    simp only [Cursor.next?_cons, unaryOp?_mark, Option.map_some, h₁, ok_bind, Cursor.bump_mk]

theorem suffixed_complete {i j : Nat} {ts rest : List Token} {e : Expr}
    (hr : NextNot string? rest) :
    Suffixed i ts e j → plain (suffixed ⟨ts ++ rest, i⟩) = suffixLoop e ⟨rest, j⟩
  | .primary h => by
    rw [plain_suffixed, primary_complete hr h, ok_bind]
  | @Suffixed.call _ _ _ _ us l l' _ _ hc ha => by
    have hnext : NextNot string? (.ofMark .leftParen l :: (us ++ .ofMark .rightParen l' :: rest)) :=
      nextNot_cons.mpr rfl
    have h₁ := suffixed_complete hnext hc
    have h₂ := arguments_complete rest l' ha
    rw [List.append_assoc, List.cons_append, List.append_assoc, List.singleton_append, h₁,
      suffixLoop_eq]
    simp only [Cursor.next?_cons, mark?_self, Option.map_some, h₂, ok_bind, Cursor.bump_mk]
  | @Suffixed.index _ _ _ _ us l l' _ _ hb hs => by
    have hnext : NextNot string?
        (.ofMark .leftBracket l :: (us ++ .ofMark .rightBracket l' :: rest)) :=
      nextNot_cons.mpr rfl
    have hcall : mark? .leftParen (.punctuator .leftBracket) = none := rfl
    have h₁ := suffixed_complete hnext hb
    have h₂ := expr_complete (endsExpr_of_mark (m := .rightBracket) (by simp) l' rest) hs
    rw [List.append_assoc, List.cons_append, List.append_assoc, List.singleton_append, h₁,
      suffixLoop_eq]
    simp only [Cursor.next?_cons, hcall, mark?_self, Option.map_some, Option.map_none, h₂,
      plain_expect_cons, ok_bind, Cursor.bump_mk]

theorem arguments_complete {i j : Nat} {ts : List Token} {es : List Expr} (rest : List Token)
    (l : Location) :
    Arguments i ts es j →
      plain (arguments ⟨ts ++ .ofMark .rightParen l :: rest, i⟩) = .ok (es, ⟨rest, j⟩)
  | .none => by
    rw [plain_arguments, List.nil_append]
    simp only [Cursor.next?_cons, mark?_self, Option.map_some]
  | .some h => by
    have h₁ := Cursor.next?_eq_none (c := ⟨ts ++ .ofMark .rightParen l :: rest, i⟩).mpr
      (h.begins.nextNot_mark (m := .rightParen) rfl _)
    have h₂ := argumentList_complete rest l h
    rw [plain_arguments, h₁, h₂]
    simp only [ok_bind, plain_expect_cons]

theorem argumentList_complete {i j : Nat} {ts : List Token} {es : List Expr} (rest : List Token)
    (l : Location) :
    ArgumentList i ts es j →
      plain (argumentList ⟨ts ++ .ofMark .rightParen l :: rest, i⟩) =
        .ok (es, ⟨.ofMark .rightParen l :: rest, j⟩)
  | .last h => by
    have hcomma : mark? .comma (.punctuator .rightParen) = none := rfl
    have h₁ := expr_complete (endsExpr_of_mark (m := .rightParen) (by simp) l rest) h
    rw [plain_argumentList, h₁]
    simp only [ok_bind, Cursor.next?_cons, hcomma, Option.map_none]
  | @ArgumentList.more _ _ _ _ us l' _ _ h hs => by
    have hends := endsExpr_of_mark (m := .comma) (by simp) l' (us ++ .ofMark .rightParen l :: rest)
    have h₁ := expr_complete hends h
    have h₂ := argumentList_complete rest l hs
    rw [plain_argumentList, List.append_assoc, List.cons_append, h₁]
    simp only [ok_bind, Cursor.next?_cons, mark?_self, Option.map_some, h₂]

theorem primary_complete {i j : Nat} {ts rest : List Token} {e : Expr}
    (hr : NextNot string? rest) :
    Primary i ts e j → plain (primary ⟨ts ++ rest, i⟩) = .ok (e, ⟨rest, j⟩)
  | .int => by
    rw [plain_primary]
    rfl
  | .float => by
    rw [plain_primary]
    rfl
  | .char => by
    rw [plain_primary]
    rfl
  | .string h => by
    rw [plain_primary, List.cons_append]
    simp only [Cursor.next?_cons, leaf?, string?, Option.map_none, Option.map_some,
      joinStrings_append h hr]
  | .ident => by
    rw [plain_primary]
    rfl
  | @Primary.group _ _ us _ l' _ h => by
    have hleaf : leaf? (.punctuator .leftParen) = none := rfl
    have hstring : string? (.punctuator .leftParen) = none := rfl
    have h₁ := expr_complete (endsExpr_of_mark (m := .rightParen) (by simp) l' rest) h
    rw [plain_primary, List.cons_append, List.append_assoc, List.singleton_append]
    simp only [Cursor.next?_cons, hleaf, hstring, mark?_self, Option.map_none, Option.map_some,
      h₁, plain_expect_cons, ok_bind]

end

end Parse

end CSubset
