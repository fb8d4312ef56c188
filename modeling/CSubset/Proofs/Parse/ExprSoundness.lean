-- SUMMARY: Expressions that the parser reads are derived by the grammar.
import CSubset.Proofs.Parse.Terminal

/-!
# Soundness for expressions

What the parser of a nonterminal hands on is derived from the tokens between the two
cursors. For the loop over binary operators this takes an invariant: the left operand
belongs to a stratum that holds every operator still to come, because its own right operand
has already taken all that bind more tightly.
-/

namespace CSubset

open Grammar

variable {α : Type}

/-- Between two cursors stands a phrase, which accounts for all tokens and node numbers there. -/
def Cursor.Spans (phrase : Nat → List Token → α → Nat → Prop) (c : Cursor) (a : α)
    (c' : Cursor) : Prop :=
  ∃ ts, c.rest = ts ++ c'.rest ∧ phrase c.nextId ts a c'.nextId

namespace Parse

theorem strings_joinStrings (ts : List Token) :
    ∃ us, ts = us ++ (joinStrings ts).2 ∧ Strings us (joinStrings ts).1 := by
  induction ts with
  | nil => exact ⟨[], rfl, .nil⟩
  | cons t rest ih =>
    unfold joinStrings
    split
    · next s hs =>
      obtain ⟨us, hus, hd⟩ := ih
      refine ⟨t :: us, by rw [List.cons_append, ← hus], ?_⟩
      rcases t with ⟨k, l⟩
      obtain rfl := string?_eq_some.mp hs
      exact .cons hd
    · exact ⟨[], rfl, .nil⟩

/-- A single token that is an expression by itself is a primary expression. -/
theorem leaf_sound {c c' : Cursor} {build : Anchor → Expr} {l : Location}
    (h : c.next? leaf? = some ((build, l), c')) :
    c.Spans Primary (build ⟨c'.nextId, l⟩) c'.bump := by
  obtain ⟨k, hk, hb, hi⟩ := Cursor.next?_eq_some.mp h
  refine ⟨[⟨k, l⟩], hk, ?_⟩
  rw [Cursor.bump_nextId, hi]
  unfold leaf? at hb
  split at hb <;> cases hb
  · exact .int
  · exact .float
  · exact .char
  · exact .ident

mutual

theorem expr_sound {c c' : Cursor} {e : Expr} (h : plain (expr c) = .ok (e, c')) :
    c.Spans Assignment e c' := by
  rw [plain_expr] at h
  obtain ⟨⟨target, c₁⟩, ht, h⟩ := bind_eq_ok.mp h
  obtain ⟨⟨ts, hts, dt⟩, -⟩ := binary_sound (by decide) ht
  dsimp only at h
  split at h
  · cases h
    exact ⟨ts, hts, .operand dt⟩
  · next op l c₂ hop =>
    obtain ⟨⟨value, c₃⟩, hv, h⟩ := bind_eq_ok.mp h
    cases h
    have h₁ := length_of_plain ht
    have h₂ := Cursor.length_of_next? hop
    obtain ⟨us, hus, dv⟩ := expr_sound hv
    obtain rfl := next?_assignOp.mp hop
    exact ⟨ts ++ .ofMark op.mark l :: us, by simp [hts, hus], .assign dt dv⟩
termination_by 8 * c.rest.length + 5

theorem binary_sound {least : Nat} {c c' : Cursor} {e : Expr} (hl : least ≤ 7)
    (h : plain (binary least c) = .ok (e, c')) :
    c.Spans (Binary least) e c' ∧ NextNot (binaryOpFrom? least) c'.rest := by
  rw [plain_binary] at h
  obtain ⟨⟨left, c₁⟩, hu, h⟩ := bind_eq_ok.mp h
  have h₁ := length_of_plain hu
  obtain ⟨ts, hts, du⟩ := unary_sound hu
  have hnone : NextNot (binaryOpFrom? 8) c₁.rest := nextNot_binary_of_six_lt (by decide) _
  obtain ⟨us, hus, db, hno⟩ := binaryLoop_sound hl (.operand du) hnone h
  exact ⟨⟨ts ++ us, by rw [hts, hus, List.append_assoc], db⟩, hno⟩
termination_by 8 * c.rest.length + 4

/-- The left operand is of stratum `p`, and no operator that binds more tightly comes next. -/
theorem binaryLoop_sound {least p i : Nat} {c c' : Cursor} {ts : List Token} {left e : Expr}
    (hle : least ≤ p) (dl : Binary p i ts left c.nextId)
    (hno : NextNot (binaryOpFrom? (p + 1)) c.rest)
    (h : binaryLoop least left c = .ok (e, c')) :
    ∃ us, c.rest = us ++ c'.rest ∧ Binary least i (ts ++ us) e c'.nextId ∧
      NextNot (binaryOpFrom? least) c'.rest := by
  rw [binaryLoop_eq] at h
  split at h
  · next hop =>
    cases h
    exact ⟨[], rfl, by rw [List.append_nil]; exact dl.mono hle, Cursor.next?_eq_none.mp hop⟩
  · next op l c₁ hop =>
    obtain ⟨⟨right, c₂⟩, hr, h⟩ := bind_eq_ok.mp h
    have h₁ := Cursor.length_of_next? hop
    have h₂ := length_of_plain hr
    obtain ⟨hc, hleast⟩ := next?_binaryOp.mp hop
    -- The operator cannot bind more tightly than the stratum of the left operand.
    have hp : op.precedence ≤ p := by
      refine Nat.le_of_not_lt fun hlt => ?_
      rw [← Cursor.next?_eq_none, next?_binaryOp.mpr ⟨hc, hlt⟩] at hno
      cases hno
    obtain ⟨⟨us, hus, dr⟩, hno'⟩ := binary_sound (Nat.succ_le_succ op.precedence_le) hr
    have dr' : Binary (op.precedence + 1) c.nextId us right c₂.nextId := by rwa [hc]
    have d := Binary.operator (l := l) (mem_stratum.mpr rfl) (dl.mono hp) dr'
    obtain ⟨vs, hvs, de, hno''⟩ := binaryLoop_sound (c := c₂.bump) hleast d hno' h
    refine ⟨.ofMark op.mark l :: (us ++ vs), ?_, ?_, hno''⟩
    · rw [hc]
      simp [hus, ← hvs]
    · simpa using de
termination_by 8 * c.rest.length + 7

theorem unary_sound {c c' : Cursor} {e : Expr} (h : plain (unary c) = .ok (e, c')) :
    c.Spans Unary e c' := by
  rw [plain_unary] at h
  split at h
  · obtain ⟨ts, hts, ds⟩ := suffixed_sound h
    exact ⟨ts, hts, .operand ds⟩
  · next op l c₁ hop =>
    obtain ⟨⟨operand, c₂⟩, ho, h⟩ := bind_eq_ok.mp h
    cases h
    have h₁ := Cursor.length_of_next? hop
    obtain ⟨ts, hts, du⟩ := unary_sound ho
    obtain rfl := next?_unaryOp.mp hop
    exact ⟨.ofMark op.mark l :: ts, by simp [hts], .operator du⟩
termination_by 8 * c.rest.length + 3

theorem suffixed_sound {c c' : Cursor} {e : Expr} (h : plain (suffixed c) = .ok (e, c')) :
    c.Spans Suffixed e c' := by
  rw [plain_suffixed] at h
  obtain ⟨⟨base, c₁⟩, hb, h⟩ := bind_eq_ok.mp h
  have h₁ := length_of_plain hb
  obtain ⟨ts, hts, db⟩ := primary_sound hb
  obtain ⟨us, hus, ds⟩ := suffixLoop_sound (.primary db) h
  exact ⟨ts ++ us, by rw [hts, hus, List.append_assoc], ds⟩
termination_by 8 * c.rest.length + 2

theorem suffixLoop_sound {i : Nat} {c c' : Cursor} {ts : List Token} {base e : Expr}
    (db : Suffixed i ts base c.nextId) (h : suffixLoop base c = .ok (e, c')) :
    ∃ us, c.rest = us ++ c'.rest ∧ Suffixed i (ts ++ us) e c'.nextId := by
  rw [suffixLoop_eq] at h
  split at h
  · next l c₁ hop =>
    obtain ⟨⟨args, c₂⟩, ha, h⟩ := bind_eq_ok.mp h
    have h₁ := Cursor.length_of_next? hop
    have h₂ := length_of_plain ha
    obtain ⟨us, l', hus, da⟩ := arguments_sound ha
    have hc := next?_mark.mp hop
    have da' : Arguments c.nextId us args c₂.nextId := by rwa [hc]
    have d : Suffixed i (ts ++ .ofMark .leftParen l :: (us ++ [.ofMark .rightParen l']))
        (.call ⟨c₂.nextId, l⟩ base args) (c₂.nextId + 1) := .call db da'
    obtain ⟨vs, hvs, de⟩ := suffixLoop_sound (c := c₂.bump) d h
    refine ⟨.ofMark .leftParen l :: (us ++ .ofMark .rightParen l' :: vs), ?_, ?_⟩
    · rw [hc]
      simp [hus, ← hvs]
    · simpa using de
  · split at h
    · cases h
      exact ⟨[], rfl, by rwa [List.append_nil]⟩
    · next l c₁ hop =>
      obtain ⟨⟨subscript, c₂⟩, hs, h⟩ := bind_eq_ok.mp h
      obtain ⟨⟨_, c₃⟩, hx, h⟩ := bind_eq_ok.mp h
      have h₁ := Cursor.length_of_next? hop
      have h₂ := length_of_plain hs
      have h₃ := length_of_plain hx
      obtain ⟨us, hus, ds⟩ := expr_sound hs
      obtain ⟨l', rfl⟩ := plain_expect_eq_ok.mp hx
      have hc := next?_mark.mp hop
      have ds' : Assignment c.nextId us subscript c₃.nextId := by rwa [hc]
      have d : Suffixed i (ts ++ .ofMark .leftBracket l :: (us ++ [.ofMark .rightBracket l']))
          (.index ⟨c₃.nextId, l⟩ base subscript) (c₃.nextId + 1) := .index db ds'
      obtain ⟨vs, hvs, de⟩ := suffixLoop_sound (c := c₃.bump) d h
      refine ⟨.ofMark .leftBracket l :: (us ++ .ofMark .rightBracket l' :: vs), ?_, ?_⟩
      · rw [hc]
        simp [hus, ← hvs]
      · simpa using de
termination_by 8 * c.rest.length + 7

theorem arguments_sound {c c' : Cursor} {es : List Expr}
    (h : plain (arguments c) = .ok (es, c')) :
    ∃ ts l, c.rest = ts ++ .ofMark .rightParen l :: c'.rest ∧
      Arguments c.nextId ts es c'.nextId := by
  rw [plain_arguments] at h
  split at h
  · next x c₁ hop =>
    cases h
    obtain rfl := next?_mark.mp hop
    exact ⟨[], x.2, rfl, .none⟩
  · obtain ⟨⟨list, c₁⟩, ha, h⟩ := bind_eq_ok.mp h
    obtain ⟨⟨_, c₂⟩, hx, h⟩ := bind_eq_ok.mp h
    cases h
    obtain ⟨ts, hts, da⟩ := argumentList_sound ha
    obtain ⟨l, rfl⟩ := plain_expect_eq_ok.mp hx
    exact ⟨ts, l, hts, .some da⟩
termination_by 8 * c.rest.length + 7

theorem argumentList_sound {c c' : Cursor} {es : List Expr}
    (h : plain (argumentList c) = .ok (es, c')) : c.Spans ArgumentList es c' := by
  rw [plain_argumentList] at h
  obtain ⟨⟨first, c₁⟩, hf, h⟩ := bind_eq_ok.mp h
  obtain ⟨ts, hts, df⟩ := expr_sound hf
  dsimp only at h
  split at h
  · cases h
    exact ⟨ts, hts, .last df⟩
  · next l c₂ hop =>
    obtain ⟨⟨more, c₃⟩, hm, h⟩ := bind_eq_ok.mp h
    cases h
    have h₁ := length_of_plain hf
    have h₂ := Cursor.length_of_next? hop
    obtain ⟨us, hus, dm⟩ := argumentList_sound hm
    obtain rfl := next?_mark.mp hop
    exact ⟨ts ++ .ofMark .comma l.2 :: us, by simp [hts, hus], .more df dm⟩
termination_by 8 * c.rest.length + 6

theorem primary_sound {c c' : Cursor} {e : Expr} (h : plain (primary c) = .ok (e, c')) :
    c.Spans Primary e c' := by
  rw [plain_primary] at h
  split at h
  · next build l c₁ hleaf =>
    cases h
    exact leaf_sound hleaf
  · split at h
    · next first l c₁ hstr =>
      cases h
      obtain rfl := next?_string.mp hstr
      obtain ⟨us, hus, ds⟩ := strings_joinStrings c₁.rest
      exact ⟨⟨.stringLiteral first, l⟩ :: us, by simp [← hus], .string ds⟩
    · split at h
      · cases h
      · next l c₁ hop =>
        obtain ⟨⟨inner, c₂⟩, hi, h⟩ := bind_eq_ok.mp h
        obtain ⟨⟨_, c₃⟩, hx, h⟩ := bind_eq_ok.mp h
        cases h
        have h₁ := Cursor.length_of_next? hop
        obtain ⟨ts, hts, di⟩ := expr_sound hi
        obtain rfl := next?_mark.mp hop
        obtain ⟨l', rfl⟩ := plain_expect_eq_ok.mp hx
        exact ⟨.ofMark .leftParen l.2 :: (ts ++ [.ofMark .rightParen l']), by simp [hts],
          .group di⟩
termination_by 8 * c.rest.length + 1

end

end Parse

end CSubset
