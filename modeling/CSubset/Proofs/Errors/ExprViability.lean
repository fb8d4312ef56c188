-- SUMMARY: Where the parser fails in an expression, what it has read is the beginning of one.
import CSubset.Proofs.Parse.ExprSoundness

/-!
# Viability in expressions

A failure names a cursor. The tokens before it are those that were read, and they can be
continued to a phrase of the kind that the parser was after: by the mark that it missed, by a
name where it wanted an expression, and by what closes the phrases around. The lemmas follow the
parsers as those of soundness do, on which they rest for what was read before the failure.
-/

namespace CSubset

open Grammar

/-- The failure arose behind tokens with which `phrase` can begin. -/
def Cursor.Stuck (phrase : List Token → Prop) (c : Cursor) (f : Failure) : Prop :=
  ∃ ts us, c.rest = ts ++ f.cursor.rest ∧ phrase (ts ++ us)

namespace Cursor.Stuck

variable {phrase phrase' : List Token → Prop} {c c₁ : Cursor} {f : Failure}

theorem imp (h : c.Stuck phrase f) (hp : ∀ us, phrase us → phrase' us) : c.Stuck phrase' f := by
  obtain ⟨ts, us, hc, d⟩ := h
  exact ⟨ts, us, hc, hp _ d⟩

/-- A phrase that can be completed may be the beginning of another one. -/
theorem before (h : c.Stuck phrase f) (hp : ∀ us, phrase us → ∃ vs, phrase' (us ++ vs)) :
    c.Stuck phrase' f := by
  obtain ⟨ts, us, hc, d⟩ := h
  obtain ⟨vs, d'⟩ := hp _ d
  exact ⟨ts, us ++ vs, hc, by simpa using d'⟩

/-- A phrase that can be completed may stand in another one, behind what has been read and before
what completes that one. -/
theorem within (h : c₁.Stuck phrase f) (ts : List Token) (hc : c.rest = ts ++ c₁.rest)
    (hp : ∀ us, phrase us → ∃ vs, phrase' (ts ++ (us ++ vs))) : c.Stuck phrase' f := by
  obtain ⟨us, vs, hus, d⟩ := h
  obtain ⟨ws, d'⟩ := hp _ d
  exact ⟨ts ++ us, vs ++ ws, by rw [hc, hus, List.append_assoc], by simpa using d'⟩

/-- A phrase that can be completed may be the end of another one. -/
theorem behind (h : c₁.Stuck phrase f) (ts : List Token) (hc : c.rest = ts ++ c₁.rest)
    (hp : ∀ us, phrase us → phrase' (ts ++ us)) : c.Stuck phrase' f :=
  h.within ts hc fun us d => ⟨[], by simpa using hp us d⟩

end Cursor.Stuck

namespace Parse

variable {α β : Type}

/-- A sequence fails in its first part or in what follows. -/
theorem bind_eq_error {r : Except Failure α} {g : α → Except Failure β} {f : Failure} :
    (r >>= g) = .error f ↔ r = .error f ∨ ∃ a, r = .ok a ∧ g a = .error f := by
  cases r with
  | error e =>
    constructor
    · intro h
      cases h
      exact .inl rfl
    · rintro (h | ⟨a, h, -⟩) <;> cases h
      rfl
  | ok a =>
    constructor
    · exact fun h => .inr ⟨a, rfl, h⟩
    · rintro (h | ⟨a, h, h'⟩) <;> cases h
      exact h'

/-- A phrase may be completed by the mark that is missing and what belongs behind it. -/
theorem expect_stuck {m : Punctuator} {place : Place} {c c₁ : Cursor} {f : Failure}
    {phrase : List Token → Prop} (h : plain (expect m place c₁) = .error f) (ts us : List Token)
    (hc : c.rest = ts ++ c₁.rest) (hp : phrase (ts ++ .ofMark m .start :: us)) :
    c.Stuck phrase f := by
  rw [plain_expect] at h
  split at h <;> cases h
  exact ⟨ts, .ofMark m .start :: us, hc, hp⟩

-- The recursion is that of the parsers: a call behind a token has fewer tokens ahead, and the
-- summands order the calls that are made before any token is read.
mutual

theorem expr_stuck {c : Cursor} {f : Failure} (h : plain (expr c) = .error f) :
    c.Stuck (fun ts => ∃ e j, Assignment c.nextId ts e j) f := by
  rw [plain_expr, bind_eq_error] at h
  rcases h with h | ⟨⟨target, c₁⟩, ht, h⟩
  · exact (binary_stuck (by decide) h).imp fun us ⟨e, j, d⟩ => ⟨e, j, .operand d⟩
  · obtain ⟨⟨ts, hts, dt⟩, -⟩ := binary_sound (by decide) ht
    dsimp only at h
    split at h
    · cases h
    · next op l c₂ hop =>
      rw [bind_eq_error] at h
      rcases h with h | ⟨_, _, h⟩
      · have h₁ := length_of_plain ht
        have h₂ := Cursor.length_of_next? hop
        have hv := expr_stuck h
        obtain rfl := next?_assignOp.mp hop
        refine hv.behind (ts ++ [.ofMark op.mark l]) (by simp [hts]) fun us ⟨e, j, d⟩ => ?_
        exact ⟨_, _, by simpa using Assignment.assign (l := l) dt d⟩
      · cases h
termination_by 8 * c.rest.length + 5

theorem binary_stuck {least : Nat} {c : Cursor} {f : Failure} (hl : least ≤ 7)
    (h : plain (binary least c) = .error f) :
    c.Stuck (fun ts => ∃ e j, Binary least c.nextId ts e j) f := by
  rw [plain_binary, bind_eq_error] at h
  rcases h with h | ⟨⟨left, c₁⟩, hu, h⟩
  · exact (unary_stuck h).imp fun us ⟨e, j, d⟩ => ⟨e, j, (Binary.operand d).mono hl⟩
  · have h₁ := length_of_plain hu
    obtain ⟨ts, hts, du⟩ := unary_sound hu
    have hnone : NextNot (binaryOpFrom? 8) c₁.rest := nextNot_binary_of_six_lt (by decide) _
    exact (binaryLoop_stuck (.operand du) hnone h).behind _ hts fun us d => d
termination_by 8 * c.rest.length + 4

/-- The loop fails behind the tokens `ts` of its left operand, with which the completed phrase has
to begin. -/
theorem binaryLoop_stuck {least p i : Nat} {c : Cursor} {ts : List Token} {left : Expr}
    {f : Failure} (dl : Binary p i ts left c.nextId)
    (hno : NextNot (binaryOpFrom? (p + 1)) c.rest) (h : binaryLoop least left c = .error f) :
    c.Stuck (fun us => ∃ e j, Binary least i (ts ++ us) e j) f := by
  rw [binaryLoop_eq] at h
  split at h
  · cases h
  · next op l c₁ hop =>
    have h₁ := Cursor.length_of_next? hop
    obtain ⟨hc, hleast⟩ := next?_binaryOp.mp hop
    -- The operator cannot bind more tightly than the stratum of the left operand.
    have hp : op.precedence ≤ p := by
      refine Nat.le_of_not_lt fun hlt => ?_
      rw [← Cursor.next?_eq_none, next?_binaryOp.mpr ⟨hc, hlt⟩] at hno
      cases hno
    have hprec : op.precedence + 1 ≤ 7 := Nat.succ_le_succ op.precedence_le
    rw [bind_eq_error] at h
    rcases h with h | ⟨⟨right, c₂⟩, hr, h⟩
    · refine (binary_stuck hprec h).behind [.ofMark op.mark l] (by simp [hc])
        fun us ⟨e, j, d⟩ => ?_
      have d' : Binary (op.precedence + 1) c.nextId us e j := by rwa [hc]
      have := Binary.operator (l := l) (mem_stratum.mpr rfl) (dl.mono hp) d'
      exact ⟨_, _, by simpa using this.mono hleast⟩
    · have h₂ := length_of_plain hr
      obtain ⟨⟨us, hus, dr⟩, hno'⟩ := binary_sound hprec hr
      have dr' : Binary (op.precedence + 1) c.nextId us right c₂.nextId := by rwa [hc]
      have d := Binary.operator (l := l) (mem_stratum.mpr rfl) (dl.mono hp) dr'
      refine (binaryLoop_stuck (c := c₂.bump) d hno' h).behind
        (.ofMark op.mark l :: us) (by simp [hc, hus]) fun vs ⟨e, j, d⟩ => ?_
      exact ⟨_, _, by simpa using d⟩
termination_by 8 * c.rest.length + 7

theorem unary_stuck {c : Cursor} {f : Failure} (h : plain (unary c) = .error f) :
    c.Stuck (fun ts => ∃ e j, Unary c.nextId ts e j) f := by
  rw [plain_unary] at h
  split at h
  · exact (suffixed_stuck h).imp fun us ⟨e, j, d⟩ => ⟨e, j, .operand d⟩
  · next op l c₁ hop =>
    rw [bind_eq_error] at h
    rcases h with h | ⟨_, _, h⟩
    · have h₁ := Cursor.length_of_next? hop
      have ho := unary_stuck h
      obtain rfl := next?_unaryOp.mp hop
      exact ho.behind [.ofMark op.mark l] rfl fun us ⟨e, j, d⟩ => ⟨_, _, .operator d⟩
    · cases h
termination_by 8 * c.rest.length + 3

theorem suffixed_stuck {c : Cursor} {f : Failure} (h : plain (suffixed c) = .error f) :
    c.Stuck (fun ts => ∃ e j, Suffixed c.nextId ts e j) f := by
  rw [plain_suffixed, bind_eq_error] at h
  rcases h with h | ⟨⟨base, c₁⟩, hb, h⟩
  · exact (primary_stuck h).imp fun us ⟨e, j, d⟩ => ⟨e, j, .primary d⟩
  · have h₁ := length_of_plain hb
    obtain ⟨ts, hts, db⟩ := primary_sound hb
    exact (suffixLoop_stuck (.primary db) h).behind _ hts fun us d => d
termination_by 8 * c.rest.length + 2

/-- The loop fails behind the tokens `ts` of what is called or subscripted. -/
theorem suffixLoop_stuck {i : Nat} {c : Cursor} {ts : List Token} {base : Expr} {f : Failure}
    (db : Suffixed i ts base c.nextId) (h : suffixLoop base c = .error f) :
    c.Stuck (fun us => ∃ e j, Suffixed i (ts ++ us) e j) f := by
  rw [suffixLoop_eq] at h
  split at h
  · next l c₁ hop =>
    have h₁ := Cursor.length_of_next? hop
    have hc := next?_mark.mp hop
    rw [bind_eq_error] at h
    rcases h with h | ⟨⟨args, c₂⟩, ha, h⟩
    · refine (arguments_stuck h).behind [.ofMark .leftParen l] (by simp [hc])
        fun us ⟨vs, l', es, j, hus, d⟩ => ?_
      have d' : Arguments c.nextId vs es j := by rwa [hc]
      subst hus
      exact ⟨_, _, by simpa using Suffixed.call (l := l) db d'⟩
    · have h₂ := length_of_plain ha
      obtain ⟨us, l', hus, da⟩ := arguments_sound ha
      have da' : Arguments c.nextId us args c₂.nextId := by rwa [hc]
      have d : Suffixed i (ts ++ .ofMark .leftParen l :: (us ++ [.ofMark .rightParen l']))
          (.call ⟨c₂.nextId, l⟩ base args) (c₂.nextId + 1) := .call db da'
      refine (suffixLoop_stuck (c := c₂.bump) d h).behind
        (.ofMark .leftParen l :: (us ++ [.ofMark .rightParen l'])) (by simp [hc, hus])
        fun vs ⟨e, j, d⟩ => ?_
      exact ⟨_, _, by simpa using d⟩
  · split at h
    · cases h
    · next l c₁ hop =>
      have h₁ := Cursor.length_of_next? hop
      have hc := next?_mark.mp hop
      rw [bind_eq_error] at h
      rcases h with h | ⟨⟨subscript, c₂⟩, hs, h⟩
      · refine (expr_stuck h).within [.ofMark .leftBracket l] (by simp [hc])
          fun us ⟨e, j, d⟩ => ⟨[.ofMark .rightBracket .start], ?_⟩
        have d' : Assignment c.nextId us e j := by rwa [hc]
        exact ⟨_, _, by simpa using Suffixed.index (l := l) db d'⟩
      · have h₂ := length_of_plain hs
        obtain ⟨us, hus, ds⟩ := expr_sound hs
        have ds' : Assignment c.nextId us subscript c₂.nextId := by rwa [hc]
        rw [bind_eq_error] at h
        rcases h with h | ⟨⟨_, c₃⟩, hx, h⟩
        · exact expect_stuck h (.ofMark .leftBracket l :: us) [] (by simp [hc, hus])
            ⟨_, _, .index db ds'⟩
        · have h₃ := length_of_plain hx
          obtain ⟨l', rfl⟩ := plain_expect_eq_ok.mp hx
          have d : Suffixed i (ts ++ .ofMark .leftBracket l :: (us ++ [.ofMark .rightBracket l']))
              (.index ⟨c₃.nextId, l⟩ base subscript) (c₃.nextId + 1) := .index db ds'
          refine (suffixLoop_stuck (c := c₃.bump) d h).behind
            (.ofMark .leftBracket l :: (us ++ [.ofMark .rightBracket l']))
            (by simp [hc, hus]) fun vs ⟨e, j, d⟩ => ?_
          exact ⟨_, _, by simpa using d⟩
termination_by 8 * c.rest.length + 7

theorem arguments_stuck {c : Cursor} {f : Failure} (h : plain (arguments c) = .error f) :
    c.Stuck (fun us => ∃ ts l es j, us = ts ++ [.ofMark .rightParen l] ∧
      Arguments c.nextId ts es j) f := by
  rw [plain_arguments] at h
  split at h
  · cases h
  · rw [bind_eq_error] at h
    rcases h with h | ⟨⟨list, c₁⟩, ha, h⟩
    · refine (argumentList_stuck h).before fun us ⟨es, j, d⟩ => ?_
      exact ⟨[.ofMark .rightParen .start], us, .start, es, j, rfl, .some d⟩
    · obtain ⟨ts, hts, da⟩ := argumentList_sound ha
      rw [bind_eq_error] at h
      rcases h with h | ⟨_, _, h⟩
      · exact expect_stuck h ts [] hts ⟨ts, .start, list, c₁.nextId, rfl, .some da⟩
      · cases h
termination_by 8 * c.rest.length + 7

theorem argumentList_stuck {c : Cursor} {f : Failure} (h : plain (argumentList c) = .error f) :
    c.Stuck (fun ts => ∃ es j, ArgumentList c.nextId ts es j) f := by
  rw [plain_argumentList, bind_eq_error] at h
  rcases h with h | ⟨⟨first, c₁⟩, hf, h⟩
  · exact (expr_stuck h).imp fun us ⟨e, j, d⟩ => ⟨[e], j, .last d⟩
  · obtain ⟨ts, hts, df⟩ := expr_sound hf
    dsimp only at h
    split at h
    · cases h
    · next l c₂ hop =>
      rw [bind_eq_error] at h
      rcases h with h | ⟨_, _, h⟩
      · have h₁ := length_of_plain hf
        have h₂ := Cursor.length_of_next? hop
        have hm := argumentList_stuck h
        obtain rfl := next?_mark.mp hop
        refine hm.behind (ts ++ [.ofMark .comma l.2]) (by simp [hts]) fun us ⟨es, j, d⟩ => ?_
        exact ⟨_, _, by simpa using ArgumentList.more (l := l.2) df d⟩
      · cases h
termination_by 8 * c.rest.length + 6

theorem primary_stuck {c : Cursor} {f : Failure} (h : plain (primary c) = .error f) :
    c.Stuck (fun ts => ∃ e j, Primary c.nextId ts e j) f := by
  rw [plain_primary] at h
  split at h
  · cases h
  · split at h
    · cases h
    · split at h
      · cases h
        exact ⟨[], [⟨.identifier "", .start⟩], rfl, _, _, .ident⟩
      · next l c₁ hop =>
        rw [bind_eq_error] at h
        rcases h with h | ⟨⟨inner, c₂⟩, hi, h⟩
        · have h₁ := Cursor.length_of_next? hop
          have hi := expr_stuck h
          obtain rfl := next?_mark.mp hop
          exact hi.within [.ofMark .leftParen l.2] rfl
            fun us ⟨e, j, d⟩ => ⟨[.ofMark .rightParen .start], _, _, .group d⟩
        · obtain ⟨ts, hts, di⟩ := expr_sound hi
          obtain rfl := next?_mark.mp hop
          rw [bind_eq_error] at h
          rcases h with h | ⟨_, _, h⟩
          · exact expect_stuck h (.ofMark .leftParen l.2 :: ts) [] (by simp [hts])
              ⟨_, _, .group di⟩
          · cases h
termination_by 8 * c.rest.length + 1

end

end Parse

end CSubset
