-- SUMMARY: Where the parser fails in a unit, what it has read is the beginning of one, if parameters can be functions.
import CSubset.Proofs.Errors.ExprViability
import CSubset.Proofs.Grammar.Shape
import CSubset.Proofs.Parse.UnitSoundness

/-!
# Viability in units

The parser reads the declarator of a parameter to its end before it objects to a function there.
What comes before any other failure therefore begins a unit in which parameters can be functions,
and perhaps no other one: the failure may lie inside the parameter list of a parameter.
-/

namespace CSubset

open Grammar

/-- The complaint is about a parameter that is declared as a function. -/
def Complaint.isFunctionParameter : Complaint → Bool
  | .functionParameter _ _ => true
  | _ => false

/-! ## Short phrases -/

namespace Grammar.Shape

variable {nested : Prop}

theorem expression_name : Expression [⟨.identifier "", .start⟩] :=
  ⟨0, _, _, .operand (Binary.mono (.operand (.operand (.primary .ident))) (by decide))⟩

theorem param_int : Param nested [.ofWord .intKw .start, ⟨.identifier "", .start⟩] :=
  .mk (.plain (b := .int)) (.object .nil) nofun

theorem compound_empty (l : Location) :
    Compound nested [.ofMark .leftBrace l, .ofMark .rightBrace .start] :=
  .mk .nil .nil

end Grammar.Shape

namespace Parse

variable {c : Cursor} {f : Failure}

/-! ## Declarators -/

/-- A phrase may be completed by the base type that is missing. -/
theorem baseType_stuck {c₁ : Cursor} {phrase : List Token → Prop}
    (h : plain (baseType c₁) = .error f) (ts : List Token) (hc : c.rest = ts ++ c₁.rest)
    (hp : phrase (ts ++ [.ofWord .intKw .start])) : c.Stuck phrase f := by
  rw [plain_baseType] at h
  split at h <;> cases h
  exact ⟨ts, _, hc, hp⟩

theorem typeSpecifier_stuck (h : plain (typeSpecifier c) = .error f) :
    c.Stuck (fun ts => ∃ t, TypeSpecifier ts t) f := by
  rw [plain_typeSpecifier] at h
  split at h
  · next l c₁ hc =>
    rw [bind_eq_error] at h
    rcases h with h | ⟨_, _, h⟩
    · obtain rfl := next?_keyword.mp hc
      exact baseType_stuck h [.ofWord .constKw l.2] rfl ⟨_, .const (b := .int)⟩
    · cases h
  · rw [bind_eq_error] at h
    rcases h with h | ⟨_, _, h⟩
    · exact baseType_stuck h [] rfl ⟨_, .plain (b := .int)⟩
    · cases h

theorem dimensions_stuck {c : Cursor} (h : plain (dimensions c) = .error f) :
    c.Stuck (fun ts => ∃ ns, Dimensions ts ns) f := by
  rw [plain_dimensions] at h
  split at h
  · cases h
  · next l c₁ hop =>
    have h₁ := Cursor.length_of_next? hop
    obtain rfl := next?_mark.mp hop
    split at h
    · cases h
      exact ⟨[.ofMark .leftBracket l.2], [⟨.intLiteral 0, .start⟩, .ofMark .rightBracket .start],
        rfl, [0], .cons .nil⟩
    · next n l' c₂ hn =>
      have h₂ := Cursor.length_of_next? hn
      obtain rfl := next?_arraySize.mp hn
      rw [bind_eq_error] at h
      rcases h with h | ⟨⟨_, c₃⟩, hx, h⟩
      · exact expect_stuck h [.ofMark .leftBracket l.2, ⟨.intLiteral n, l'⟩] [] rfl
          ⟨[n], .cons .nil⟩
      · have h₃ := length_of_plain hx
        obtain ⟨l'', rfl⟩ := plain_expect_eq_ok.mp hx
        rw [bind_eq_error] at h
        rcases h with h | ⟨_, _, h⟩
        · refine (dimensions_stuck h).behind
            [.ofMark .leftBracket l.2, ⟨.intLiteral n, l'⟩, .ofMark .rightBracket l''] rfl ?_
          rintro us ⟨ns, d⟩
          exact ⟨n :: ns, .cons d⟩
        · cases h
termination_by c.rest.length

-- What is completed here may have functions among its parameters, so the shapes allow them: the
-- failure may lie in the parameter list of a parameter, which the parser has not yet objected to.
mutual

theorem declarator_stuck {c : Cursor} (hf : f.complaint.isFunctionParameter = false)
    (h : plain (declarator c) = .error f) :
    c.Stuck (fun ts => ∃ declared, Shape.Declarator True declared ts) f := by
  rw [plain_declarator] at h
  split at h
  · next l c₁ hop =>
    rw [bind_eq_error] at h
    rcases h with h | ⟨_, _, h⟩
    · have h₁ := Cursor.length_of_next? hop
      have hd := declarator_stuck hf h
      obtain rfl := next?_mark.mp hop
      exact hd.behind [.ofMark .star l.2] rfl fun us ⟨declared, d⟩ => ⟨declared, .pointer d⟩
    · cases h
  · split at h
    · cases h
      exact ⟨[], [⟨.identifier "", .start⟩], rfl, _, .object .nil⟩
    · next name l c₁ hname =>
      have h₁ := Cursor.length_of_next? hname
      obtain rfl := next?_identifier.mp hname
      split at h
      · next l' c₂ hop =>
        have h₂ := Cursor.length_of_next? hop
        have hc := next?_mark.mp hop
        rw [bind_eq_error] at h
        rcases h with h | ⟨⟨list, c₃⟩, hl, h⟩
        · exact (parameterList_stuck hf h).within
            [⟨.identifier name, l⟩, .ofMark .leftParen l'.2] (by simp [hc])
            fun us d => ⟨[.ofMark .rightParen .start], .function, .function d⟩
        · obtain ⟨ts, rfl, dl⟩ := parameterList_sound hl
          rw [bind_eq_error] at h
          rcases h with h | ⟨_, _, h⟩
          · exact expect_stuck h (⟨.identifier name, l⟩ :: .ofMark .leftParen l'.2 :: ts) []
              (by simp [hc]) ⟨.function, .function dl.shape⟩
          · cases h
      · rw [bind_eq_error] at h
        rcases h with h | ⟨_, _, h⟩
        · exact (dimensions_stuck h).behind [⟨.identifier name, l⟩] rfl
            fun us ⟨ns, d⟩ => ⟨.object, .object d⟩
        · cases h
termination_by 4 * c.rest.length

theorem parameterList_stuck {c : Cursor} (hf : f.complaint.isFunctionParameter = false)
    (h : plain (parameterList c) = .error f) : c.Stuck (Shape.ParamList True) f := by
  rw [plain_parameterList] at h
  split at h
  · cases h
  · split at h
    · cases h
    · exact (parameters_stuck hf h).imp fun us => .params
termination_by 4 * c.rest.length + 3

theorem parameters_stuck {first : Bool} {c : Cursor}
    (hf : f.complaint.isFunctionParameter = false)
    (h : plain (parameters first c) = .error f) : c.Stuck (Shape.Params True) f := by
  rw [plain_parameters] at h
  split at h
  · cases first with
    | true =>
      cases h
      exact ⟨[], _, rfl, .last Shape.param_int⟩
    | false => cases h
  · rw [bind_eq_error] at h
    rcases h with h | ⟨⟨p, c₁⟩, hp, h⟩
    · exact (parameter_stuck hf h).imp fun us => .last
    · have h₁ := length_of_plain hp
      obtain ⟨ts, rfl, dp⟩ := parameter_sound hp
      dsimp only at h
      split at h
      · cases h
      · next l c₂ hcomma =>
        rw [bind_eq_error] at h
        rcases h with h | ⟨_, _, h⟩
        · have h₂ := Cursor.length_of_next? hcomma
          have hm := parameters_stuck hf h
          obtain rfl := next?_mark.mp hcomma
          refine hm.behind (ts ++ [.ofMark .comma l.2]) (by simp) fun us d => ?_
          simpa using Shape.Params.more (l := l.2) dp.shape d
        · cases h
termination_by 4 * c.rest.length + 2

theorem parameter_stuck {c : Cursor} (hf : f.complaint.isFunctionParameter = false)
    (h : plain (parameter c) = .error f) : c.Stuck (Shape.Param True) f := by
  rw [plain_parameter, bind_eq_error] at h
  rcases h with h | ⟨⟨type, c₁⟩, ht, h⟩
  · exact (typeSpecifier_stuck h).before
      fun us ⟨t, d⟩ => ⟨[⟨.identifier "", .start⟩], .mk d (.object .nil) nofun⟩
  · have h₁ := length_of_plain ht
    obtain ⟨ts, rfl, dt⟩ := typeSpecifier_sound ht
    rw [bind_eq_error] at h
    rcases h with h | ⟨⟨d, c₂⟩, _, h⟩
    · exact (declarator_stuck hf h).behind ts rfl
        fun us ⟨declared, d⟩ => .mk dt d fun _ => trivial
    · dsimp only at h
      split at h <;> cases h
      cases hf
termination_by 4 * c.rest.length + 1

end

/-! ## Declarations -/

theorem typedHeading_stuck {ss : List Token} {storage : Storage}
    (hf : f.complaint.isFunctionParameter = false) (hs : StorageClass ss storage)
    (h : plain (typedHeading storage c) = .error f) :
    c.Stuck (fun us => ∃ declared, Shape.Heading True storage declared (ss ++ us)) f := by
  rw [plain_typedHeading, bind_eq_error] at h
  rcases h with h | ⟨⟨type, c₁⟩, ht, h⟩
  · refine (typeSpecifier_stuck h).before ?_
    rintro us ⟨t, d⟩
    exact ⟨[⟨.identifier "", .start⟩], .object, .mk hs d (.object .nil)⟩
  · obtain ⟨ts, rfl, dt⟩ := typeSpecifier_sound ht
    rw [bind_eq_error] at h
    rcases h with h | ⟨_, _, h⟩
    · refine (declarator_stuck hf h).behind ts rfl ?_
      rintro us ⟨declared, d⟩
      exact ⟨declared, .mk hs dt d⟩
    · cases h

theorem heading_stuck (hf : f.complaint.isFunctionParameter = false)
    (h : plain (heading c) = .error f) :
    c.Stuck (fun ts => ∃ storage declared, Shape.Heading True storage declared ts) f := by
  rw [plain_heading] at h
  split at h
  · next storage l c₁ hs =>
    obtain ⟨k, hc, hk, -⟩ := Cursor.next?_eq_some.mp hs
    have dstorage : StorageClass [⟨k, l⟩] storage := by
      rcases storage?_eq_some.mp hk with ⟨rfl, rfl⟩ | ⟨rfl, rfl⟩
      · exact .static
      · exact .external
    refine (typedHeading_stuck hf dstorage h).behind [⟨k, l⟩] hc ?_
    rintro us ⟨declared, d⟩
    exact ⟨storage, declared, d⟩
  · refine (typedHeading_stuck hf .none h).imp ?_
    rintro us ⟨declared, d⟩
    exact ⟨.none, declared, d⟩

theorem variableEnd_stuck {ts : List Token} {v : Variable} {storage : Storage}
    (dv : Shape.Heading True storage .object ts) (h : plain (variableEnd v c) = .error f) :
    c.Stuck (fun us => Shape.LocalDecl True (ts ++ us)) f := by
  rw [plain_variableEnd] at h
  split at h
  · next l c₁ hop =>
    rw [bind_eq_error] at h
    rcases h with h | ⟨⟨e, c₂⟩, he, h⟩
    · have he := expr_stuck h
      obtain rfl := next?_mark.mp hop
      refine he.within [.ofMark .assign l.2] rfl ?_
      rintro us ⟨e, j, d⟩
      exact ⟨[.ofMark .semicolon .start], .initialized dv d.shape⟩
    · obtain ⟨us, hus, de⟩ := expr_sound he
      obtain rfl := next?_mark.mp hop
      rw [bind_eq_error] at h
      rcases h with h | ⟨_, _, h⟩
      · exact expect_stuck h (.ofMark .assign l.2 :: us) [] (by simp [hus])
          (.initialized dv de.shape)
      · cases h
  · rw [bind_eq_error] at h
    rcases h with h | ⟨_, _, h⟩
    · exact expect_stuck h [] [] rfl (.plain dv)
    · cases h

theorem prototypeEnd_stuck {ts : List Token} {p : Prototype} {storage : Storage}
    {declared : Shape.Declared} (dp : Shape.Heading True storage declared ts)
    (h : plain (prototypeEnd p c) = .error f) :
    c.Stuck (fun us => Shape.LocalDecl True (ts ++ us)) f := by
  rw [plain_prototypeEnd, bind_eq_error] at h
  rcases h with h | ⟨_, _, h⟩
  · exact expect_stuck h [] [] rfl (.plain dp)
  · cases h

theorem blockDecl_stuck (hf : f.complaint.isFunctionParameter = false)
    (h : plain (blockDecl c) = .error f) : c.Stuck (Shape.LocalDecl True) f := by
  rw [plain_blockDecl, bind_eq_error] at h
  rcases h with h | ⟨⟨hd, c₁⟩, hh, h⟩
  · refine (heading_stuck hf h).before ?_
    rintro us ⟨_, _, d⟩
    exact ⟨[.ofMark .semicolon .start], .plain d⟩
  · obtain ⟨ts, rfl, dh⟩ := heading_sound hh
    cases dh with
    | var dv =>
      rw [bind_eq_error] at h
      rcases h with h | ⟨_, _, h⟩
      · exact (variableEnd_stuck dv.shape h).behind ts rfl fun us d => d
      · cases h
    | function dp =>
      dsimp only at h
      split at h
      · cases h
        exact ⟨ts, [.ofMark .semicolon .start], rfl, .plain dp.shape⟩
      · rw [bind_eq_error] at h
        rcases h with h | ⟨_, _, h⟩
        · exact (prototypeEnd_stuck dp.shape h).behind ts rfl fun us d => d
        · cases h

theorem blockDecls_stuck {c : Cursor} (hf : f.complaint.isFunctionParameter = false)
    (h : plain (blockDecls c) = .error f) :
    c.Stuck (Shape.Sequence (Shape.LocalDecl True)) f := by
  rw [plain_blockDecls] at h
  split at h
  · rw [bind_eq_error] at h
    rcases h with h | ⟨⟨d, c₁⟩, hd, h⟩
    · exact (blockDecl_stuck hf h).before fun us d => ⟨[], .cons d .nil⟩
    · have h₁ := length_of_plain hd
      obtain ⟨ts, hts, dd⟩ := blockDecl_sound hd
      rw [bind_eq_error] at h
      rcases h with h | ⟨_, _, h⟩
      · exact (blockDecls_stuck hf h).behind ts hts fun us d => .cons dd.shape d
      · cases h
  · cases h
termination_by c.rest.length

/-! ## Statements -/

theorem clause_stuck {stop : Punctuator} {place : Place}
    (h : plain (clause stop place c) = .error f) :
    c.Stuck (fun us => ∃ ts, us = ts ++ [.ofMark stop .start] ∧ Shape.Clause ts) f := by
  rw [plain_clause] at h
  split at h
  · cases h
  · rw [bind_eq_error] at h
    rcases h with h | ⟨⟨e, c₁⟩, he, h⟩
    · refine (expr_stuck h).before ?_
      rintro us ⟨e, j, d⟩
      exact ⟨[.ofMark stop .start], us, rfl, .some d.shape⟩
    · obtain ⟨ts, hts, de⟩ := expr_sound he
      rw [bind_eq_error] at h
      rcases h with h | ⟨_, _, h⟩
      · exact expect_stuck h ts [] hts ⟨ts, rfl, .some de.shape⟩
      · cases h

theorem condition_stuck {word : Keyword} (h : plain (condition word c) = .error f) :
    c.Stuck (fun us => ∃ l ts, us = .ofMark .leftParen l :: (ts ++ [.ofMark .rightParen .start]) ∧
      Shape.Expression ts) f := by
  rw [plain_condition, bind_eq_error] at h
  rcases h with h | ⟨⟨_, c₁⟩, hx, h⟩
  · exact expect_stuck h [] [⟨.identifier "", .start⟩, .ofMark .rightParen .start] rfl
      ⟨.start, _, rfl, Shape.expression_name⟩
  · obtain ⟨l, rfl⟩ := plain_expect_eq_ok.mp hx
    rw [bind_eq_error] at h
    rcases h with h | ⟨⟨e, c₂⟩, he, h⟩
    · refine (expr_stuck h).within [.ofMark .leftParen l] rfl ?_
      rintro us ⟨e, j, d⟩
      exact ⟨[.ofMark .rightParen .start], l, us, rfl, d.shape⟩
    · obtain ⟨ts, hts, de⟩ := expr_sound he
      rw [bind_eq_error] at h
      rcases h with h | ⟨_, _, h⟩
      · exact expect_stuck h (.ofMark .leftParen l :: ts) [] (by simp [hts])
          ⟨l, ts, rfl, de.shape⟩
      · cases h

theorem forClauses_stuck (h : plain (forClauses c) = .error f) :
    c.Stuck (fun ws => ∃ l₁ ts l₂ us l₃ vs,
      ws = .ofMark .leftParen l₁ :: (ts ++ .ofMark .semicolon l₂ ::
        (us ++ .ofMark .semicolon l₃ :: (vs ++ [.ofMark .rightParen .start]))) ∧
      Shape.Clause ts ∧ Shape.Clause us ∧ Shape.Clause vs) f := by
  rw [plain_forClauses, bind_eq_error] at h
  rcases h with h | ⟨⟨_, c₁⟩, hx, h⟩
  · exact expect_stuck h [] [.ofMark .semicolon .start, .ofMark .semicolon .start,
      .ofMark .rightParen .start] rfl
      ⟨.start, [], .start, [], .start, [], rfl, .none, .none, .none⟩
  · obtain ⟨l₁, rfl⟩ := plain_expect_eq_ok.mp hx
    rw [bind_eq_error] at h
    rcases h with h | ⟨⟨first, c₂⟩, h₁, h⟩
    · refine (clause_stuck h).within [.ofMark .leftParen l₁] rfl ?_
      rintro _ ⟨ts, rfl, d₁⟩
      exact ⟨[.ofMark .semicolon .start, .ofMark .rightParen .start],
        l₁, ts, .start, [], .start, [], by simp, d₁, .none, .none⟩
    · obtain ⟨ts, l₂, hts, d₁⟩ := clause_sound h₁
      rw [bind_eq_error] at h
      rcases h with h | ⟨⟨middle, c₃⟩, h₂, h⟩
      · refine (clause_stuck h).within (.ofMark .leftParen l₁ :: (ts ++ [.ofMark .semicolon l₂]))
          (by simp [hts]) ?_
        rintro _ ⟨us, rfl, d₂⟩
        exact ⟨[.ofMark .rightParen .start],
          l₁, ts, l₂, us, .start, [], by simp, d₁.shape, d₂, .none⟩
      · obtain ⟨us, l₃, hus, d₂⟩ := clause_sound h₂
        rw [bind_eq_error] at h
        rcases h with h | ⟨_, _, h⟩
        · refine (clause_stuck h).behind (.ofMark .leftParen l₁ :: (ts ++ .ofMark .semicolon l₂ ::
            (us ++ [.ofMark .semicolon l₃]))) (by simp [hts, hus]) ?_
          rintro _ ⟨vs, rfl, d₃⟩
          exact ⟨l₁, ts, l₂, us, l₃, vs, by simp, d₁.shape, d₂.shape, d₃⟩
        · cases h

/-- Behind a condition that is missing or complete goes a body. -/
theorem guarded_stuck {word : Keyword}
    (h : plain (condition word c) = .error f ∨ ∃ e c₁, plain (condition word c) = .ok (e, c₁) ∧
      c₁.Stuck (Shape.Compound True) f) :
    c.Stuck (fun us => ∃ l₁ ts l₂ vs, us = .ofMark .leftParen l₁ :: (ts ++
      .ofMark .rightParen l₂ :: vs) ∧ Shape.Expression ts ∧ Shape.Compound True vs) f := by
  rcases h with h | ⟨e, c₁, he, hb⟩
  · refine (condition_stuck h).before ?_
    rintro _ ⟨l₁, ts, rfl, d⟩
    exact ⟨[.ofMark .leftBrace .start, .ofMark .rightBrace .start],
      l₁, ts, .start, _, by simp, d, Shape.compound_empty .start⟩
  · obtain ⟨l₁, ts, l₂, hts, de⟩ := condition_sound he
    refine hb.behind (.ofMark .leftParen l₁ :: (ts ++ [.ofMark .rightParen l₂])) (by simp [hts])
      fun vs d => ?_
    exact ⟨l₁, ts, l₂, vs, by simp, de.shape, d⟩

mutual

theorem stmt_stuck {c : Cursor} (hf : f.complaint.isFunctionParameter = false)
    (h : plain (stmt c) = .error f) : c.Stuck (Shape.Statement True) f := by
  rw [plain_stmt] at h
  split at h
  · rw [bind_eq_error] at h
    rcases h with h | ⟨⟨e, c₁⟩, he, h⟩
    · exact (expr_stuck h).before fun us ⟨e, j, d⟩ => ⟨[.ofMark .semicolon .start], .expr d.shape⟩
    · obtain ⟨ts, hts, de⟩ := expr_sound he
      rw [bind_eq_error] at h
      rcases h with h | ⟨_, _, h⟩
      · exact expect_stuck h ts [] hts (.expr de.shape)
      · cases h
  · next lead l c₁ hlead =>
    have h₁ := Cursor.length_of_next? hlead
    have hs := ledStmt_stuck (l := l) hf h
    obtain rfl := next?_leader.mp hlead
    exact hs.behind [⟨lead.kind, l⟩] rfl fun us d => d
termination_by 8 * c.rest.length

theorem ledStmt_stuck {lead : Leader} {l : Location} {c : Cursor}
    (hf : f.complaint.isFunctionParameter = false)
    (h : plain (ledStmt lead l c) = .error f) :
    c.Stuck (fun ts => Shape.Statement True (⟨lead.kind, l⟩ :: ts)) f := by
  cases lead with
  | block =>
    rw [plain_ledStmt_block, bind_eq_error] at h
    rcases h with h | ⟨_, _, h⟩
    · exact (block_stuck hf h).imp fun us d => .block d
    · cases h
  | branch =>
    rw [plain_ledStmt_branch, bind_eq_error] at h
    rcases h with h | ⟨⟨e, c₁⟩, he, h⟩
    · refine (guarded_stuck (.inl h)).imp fun us ⟨l₁, ts, l₂, vs, hus, d, db⟩ => ?_
      exact hus ▸ .ifThen d db
    · have h₁ := length_of_plain he
      rw [bind_eq_error] at h
      rcases h with h | ⟨⟨b, c₂⟩, hb, h⟩
      · refine (guarded_stuck (.inr ⟨e, c₁, he, body_stuck hf h⟩)).imp
          fun us ⟨l₁, ts, l₂, vs, hus, d, db⟩ => ?_
        exact hus ▸ .ifThen d db
      · obtain ⟨l₁, ts, l₂, hts, de⟩ := condition_sound he
        obtain ⟨us, hus, db⟩ := body_sound hb
        have h₂ := length_of_plain hb
        dsimp only at h
        split at h
        · cases h
        · next l₃ c₃ helse =>
          rw [bind_eq_error] at h
          rcases h with h | ⟨_, _, h⟩
          · have h₃ := Cursor.length_of_next? helse
            have ha := body_stuck hf h
            obtain rfl := next?_keyword.mp helse
            refine ha.behind (.ofMark .leftParen l₁ :: (ts ++ .ofMark .rightParen l₂ ::
              (us ++ [.ofWord .elseKw l₃.2]))) (by simp [hts, hus]) fun vs d => ?_
            simpa [Leader.kind] using Shape.Statement.ifElse (l := l) de.shape db.shape d
          · cases h
  | whileLoop =>
    rw [plain_ledStmt_whileLoop, bind_eq_error] at h
    rcases h with h | ⟨⟨e, c₁⟩, he, h⟩
    · refine (guarded_stuck (.inl h)).imp fun us ⟨l₁, ts, l₂, vs, hus, d, db⟩ => ?_
      exact hus ▸ .whileLoop d db
    · have h₁ := length_of_plain he
      rw [bind_eq_error] at h
      rcases h with h | ⟨_, _, h⟩
      · refine (guarded_stuck (.inr ⟨e, c₁, he, body_stuck hf h⟩)).imp
          fun us ⟨l₁, ts, l₂, vs, hus, d, db⟩ => ?_
        exact hus ▸ .whileLoop d db
      · cases h
  | forLoop =>
    rw [plain_ledStmt_forLoop, bind_eq_error] at h
    rcases h with h | ⟨⟨clauses, c₁⟩, hc, h⟩
    · refine (forClauses_stuck h).before fun us ⟨l₁, ts, l₂, us', l₃, vs, hus, d₁, d₂, d₃⟩ =>
        ⟨[.ofMark .leftBrace .start, .ofMark .rightBrace .start], ?_⟩
      simpa [hus, Leader.kind] using
        Shape.Statement.forLoop (l := l) d₁ d₂ d₃ (Shape.compound_empty .start)
    · obtain ⟨l₁, ts, l₂, us, l₃, vs, l₄, j, k, hts, d₁, d₂, d₃⟩ := forClauses_sound hc
      have h₁ := length_of_plain hc
      rw [bind_eq_error] at h
      rcases h with h | ⟨_, _, h⟩
      · refine (body_stuck hf h).behind (.ofMark .leftParen l₁ :: (ts ++
          .ofMark .semicolon l₂ :: (us ++ .ofMark .semicolon l₃ ::
            (vs ++ [.ofMark .rightParen l₄])))) (by simp [hts]) fun ws d => ?_
        simpa [Leader.kind] using
          Shape.Statement.forLoop (l := l) d₁.shape d₂.shape d₃.shape d
      · cases h
  | returnStmt =>
    rw [plain_ledStmt_returnStmt, bind_eq_error] at h
    rcases h with h | ⟨_, _, h⟩
    · exact (clause_stuck h).imp fun us ⟨ts, hus, d⟩ => hus ▸ .returnStmt d
    · cases h
  | jump kind =>
    rw [plain_ledStmt_jump, bind_eq_error] at h
    rcases h with h | ⟨_, _, h⟩
    · exact expect_stuck h [] [] rfl .jump
    · cases h
termination_by 8 * c.rest.length + 4

theorem body_stuck {owner : Keyword} {c : Cursor}
    (hf : f.complaint.isFunctionParameter = false) (h : plain (body owner c) = .error f) :
    c.Stuck (Shape.Compound True) f := by
  rw [plain_body] at h
  split at h
  · cases h
    exact ⟨[], _, rfl, Shape.compound_empty .start⟩
  · next l c₁ hop =>
    have h₁ := Cursor.length_of_next? hop
    have hb := block_stuck (l := l) hf h
    obtain rfl := next?_mark.mp hop
    exact hb.behind [.ofMark .leftBrace l] rfl fun us d => d
termination_by 8 * c.rest.length

theorem block_stuck {l : Location} {c : Cursor}
    (hf : f.complaint.isFunctionParameter = false) (h : plain (block l c) = .error f) :
    c.Stuck (fun ts => Shape.Compound True (.ofMark .leftBrace l :: ts)) f := by
  rw [plain_block, bind_eq_error] at h
  rcases h with h | ⟨⟨ds, c₁⟩, hd, h⟩
  · exact (blockDecls_stuck hf h).before fun us d => ⟨[.ofMark .rightBrace .start], .mk d .nil⟩
  · have h₁ := length_of_plain hd
    obtain ⟨ts, hts, dd⟩ := blockDecls_sound hd
    have dd := dd.shape (Shape.LocalDecl True) fun _ _ _ _ => LocalDecl.shape
    rw [bind_eq_error] at h
    rcases h with h | ⟨⟨ss, c₂⟩, hs, h⟩
    · exact (stmts_stuck hf h).within ts hts fun us d => ⟨[.ofMark .rightBrace .start], .mk dd d⟩
    · obtain ⟨us, hus, ds⟩ := stmts_sound hs
      rw [bind_eq_error] at h
      rcases h with h | ⟨_, _, h⟩
      · refine expect_stuck h (ts ++ us) [] (by simp [hts, hus]) ?_
        simpa using Shape.Compound.mk (l := l) dd ds.shape
      · cases h
termination_by 8 * c.rest.length + 3

theorem stmts_stuck {c : Cursor} (hf : f.complaint.isFunctionParameter = false)
    (h : plain (stmts c) = .error f) : c.Stuck (Shape.Statements True) f := by
  rw [plain_stmts] at h
  split at h
  · cases h
  · split at h
    · cases h
    · split at h
      · cases h
        exact ⟨[], [], rfl, .nil⟩
      · rw [bind_eq_error] at h
        rcases h with h | ⟨⟨s, c₁⟩, hs, h⟩
        · exact (stmt_stuck hf h).before fun us d => ⟨[], .cons d .nil⟩
        · have h₁ := length_of_plain hs
          obtain ⟨ts, hts, ds⟩ := stmt_sound hs
          rw [bind_eq_error] at h
          rcases h with h | ⟨_, _, h⟩
          · exact (stmts_stuck hf h).behind ts hts fun us d => .cons ds.shape d
          · cases h
termination_by 8 * c.rest.length + 1

end

/-! ## Units -/

theorem external_stuck (hf : f.complaint.isFunctionParameter = false)
    (h : plain (external c) = .error f) : c.Stuck (Shape.FileDecl True) f := by
  rw [plain_external, bind_eq_error] at h
  rcases h with h | ⟨⟨hd, c₁⟩, hh, h⟩
  · refine (heading_stuck hf h).before ?_
    rintro us ⟨_, _, d⟩
    exact ⟨[.ofMark .semicolon .start], .decl (.plain d)⟩
  · obtain ⟨ts, rfl, dh⟩ := heading_sound hh
    cases dh with
    | var dv =>
      rw [bind_eq_error] at h
      rcases h with h | ⟨_, _, h⟩
      · exact (variableEnd_stuck dv.shape h).behind ts rfl fun us d => .decl d
      · cases h
    | function dp =>
      dsimp only at h
      split at h
      · rw [bind_eq_error] at h
        rcases h with h | ⟨_, _, h⟩
        · exact (prototypeEnd_stuck dp.shape h).behind ts rfl fun us d => .decl d
        · cases h
      · next l c₂ hop =>
        split at h
        · cases h
          exact ⟨ts, [.ofMark .semicolon .start], rfl, .decl (.plain dp.shape)⟩
        · next hstorage =>
          rw [bind_eq_error] at h
          rcases h with h | ⟨_, _, h⟩
          · have hb := block_stuck (l := l) hf h
            obtain rfl := next?_mark.mp hop
            refine hb.behind (ts ++ [.ofMark .leftBrace l]) (by simp) fun us d => ?_
            simpa using Shape.FileDecl.definition dp.shape hstorage d
          · cases h

/-- A reading that fails, but not for a function among the parameters, has read the beginning of a
sentence. -/
theorem reading_stuck {c : Cursor} {complaint : Complaint}
    (hf : complaint.isFunctionParameter = false)
    (h : (Reading.from c).failure = some complaint) :
    c.Stuck (Sentence True) ⟨complaint, (Reading.from c).cursor⟩ := by
  rw [Reading.from_eq] at h ⊢
  split at h
  · cases h
  · next hempty =>
    rw [if_neg hempty]
    cases hd : plain (external c) with
    | error f =>
      rw [hd] at h
      cases h
      exact (external_stuck hf hd).before fun us d => ⟨[], .cons d .nil⟩
    | ok x =>
      obtain ⟨d, c₁⟩ := x
      rw [hd] at h
      have h₁ := length_of_plain hd
      obtain ⟨ts, hts, dd⟩ := external_sound hd
      exact (reading_stuck hf h).behind ts hts fun us d => .cons dd.shape d
termination_by c.rest.length

end Parse

end CSubset
