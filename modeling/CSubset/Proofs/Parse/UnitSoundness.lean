-- SUMMARY: Declarations, statements and units that the parser reads are derived by the grammar.
import CSubset.Proofs.Parse.ExprSoundness

/-!
# Soundness for units

The parser reads a declarator before it knows what is declared, so the grammar's headings
are put together here from a type and a declarator. Everything else follows the parsers one
by one.
-/

namespace CSubset

open Grammar

/-- Between two cursors stands a phrase without expressions. -/
def Cursor.Skips {α : Type} (phrase : List Token → α → Prop) (c : Cursor) (a : α)
    (c' : Cursor) : Prop :=
  ∃ ts, c = ⟨ts ++ c'.rest, c'.nextId⟩ ∧ phrase ts a

namespace Parse

/-! ## Declarators -/

/-- What stands behind the name in a declarator, as derived. -/
inductive TailPhrase : List Token → DeclaratorTail → Prop where
  | dimensions {ts : List Token} {ns : List Nat} (h : Dimensions ts ns) :
      TailPhrase ts (.dimensions ns)
  | parameters {ts : List Token} {ps : List Parameter} {variadic : Bool} {l l' : Location}
      (h : ParamList ts ps variadic) :
      TailPhrase (.ofMark .leftParen l :: (ts ++ [.ofMark .rightParen l']))
        (.parameters ps variadic)

/-- A declarator as derived. -/
inductive DeclaratorPhrase : List Token → Declarator → Prop where
  | mk {ps ts : List Token} {n : Nat} {name : String} {l : Location} {tail : DeclaratorTail}
      (hp : Stars ps n) (ht : TailPhrase ts tail) :
      DeclaratorPhrase (ps ++ ⟨.identifier name, l⟩ :: ts) ⟨n, name, l, tail⟩

theorem typeSpecifier_sound {c c' : Cursor} {t : DeclaredType}
    (h : plain (typeSpecifier c) = .ok (t, c')) : c.Skips TypeSpecifier t c' := by
  have base : ∀ {c c' : Cursor} {b : BaseType}, plain (baseType c) = .ok (b, c') →
      ∃ l, c = ⟨.ofWord b.keyword l :: c'.rest, c'.nextId⟩ := by
    intro c c' b h
    rw [plain_baseType] at h
    split at h
    · next b l c₁ hb =>
      cases h
      exact ⟨l, next?_baseType.mp hb⟩
    · cases h
  rw [plain_typeSpecifier] at h
  split at h
  · next l c₁ hc =>
    obtain ⟨⟨b, c₂⟩, hb, h⟩ := bind_eq_ok.mp h
    cases h
    obtain ⟨l', rfl⟩ := base hb
    exact ⟨_, next?_keyword.mp hc, .const⟩
  · obtain ⟨⟨b, c₁⟩, hb, h⟩ := bind_eq_ok.mp h
    cases h
    obtain ⟨l, rfl⟩ := base hb
    exact ⟨_, rfl, .plain⟩

/-- A type specifier, pointer marks and array sizes around a name type it. -/
theorem typed_of {ts ps ds : List Token} {type : DeclaredType} {n : Nat} {ns : List Nat}
    {name : String} {l : Location} (ht : TypeSpecifier ts type) (hp : Stars ps n)
    (hd : Dimensions ds ns) :
    Grammar.Typed (ts ++ (ps ++ ⟨.identifier name, l⟩ :: ds))
      (Declarator.applyTo ⟨n, name, l, .dimensions ns⟩ type) name l := by
  cases ht with
  | plain => simpa [Declarator.applyTo] using Grammar.Typed.mk .plain hp hd
  | const => simpa [Declarator.applyTo] using Grammar.Typed.mk .const hp hd

theorem dimensions_sound {c c' : Cursor} {ns : List Nat}
    (h : plain (dimensions c) = .ok (ns, c')) : c.Skips Dimensions ns c' := by
  rw [plain_dimensions] at h
  split at h
  · cases h
    exact ⟨[], rfl, .nil⟩
  · next l c₁ hop =>
    split at h
    · cases h
    · next n l' c₂ hn =>
      obtain ⟨⟨_, c₃⟩, hx, h⟩ := bind_eq_ok.mp h
      obtain ⟨⟨ns, c₄⟩, hm, h⟩ := bind_eq_ok.mp h
      cases h
      have h₁ := Cursor.length_of_next? hop
      have h₂ := Cursor.length_of_next? hn
      have h₃ := length_of_plain hx
      obtain ⟨ts, rfl, hd⟩ := dimensions_sound hm
      obtain ⟨l'', rfl⟩ := plain_expect_eq_ok.mp hx
      obtain rfl := next?_arraySize.mp hn
      exact ⟨_, next?_mark.mp hop, .cons hd⟩
termination_by c.rest.length

mutual

theorem declarator_sound {c c' : Cursor} {d : Declarator}
    (h : plain (declarator c) = .ok (d, c')) : c.Skips DeclaratorPhrase d c' := by
  rw [plain_declarator] at h
  split at h
  · next l c₁ hop =>
    obtain ⟨⟨d, c₂⟩, hd, h⟩ := bind_eq_ok.mp h
    cases h
    have h₁ := Cursor.length_of_next? hop
    obtain ⟨ts, rfl, ⟨hp, ht⟩⟩ := declarator_sound hd
    exact ⟨_, next?_mark.mp hop, .mk (.cons hp) ht⟩
  · split at h
    · cases h
    · next name l c₁ hname =>
      have h₁ := Cursor.length_of_next? hname
      split at h
      · next l' c₂ hop =>
        obtain ⟨⟨list, c₃⟩, hl, h⟩ := bind_eq_ok.mp h
        obtain ⟨⟨_, c₄⟩, hx, h⟩ := bind_eq_ok.mp h
        cases h
        have h₂ := Cursor.length_of_next? hop
        obtain ⟨ts, rfl, hd⟩ := parameterList_sound hl
        obtain ⟨l'', rfl⟩ := plain_expect_eq_ok.mp hx
        obtain rfl := next?_mark.mp hop
        refine ⟨⟨.identifier name, l⟩ :: .ofMark .leftParen l'.2 ::
          (ts ++ [.ofMark .rightParen l'']), ?_, .mk .nil (.parameters hd)⟩
        rw [next?_identifier.mp hname]
        simp
      · obtain ⟨⟨ns, c₂⟩, hd, h⟩ := bind_eq_ok.mp h
        cases h
        obtain ⟨ts, rfl, dd⟩ := dimensions_sound hd
        exact ⟨_, next?_identifier.mp hname, .mk .nil (.dimensions dd)⟩
termination_by 4 * c.rest.length

theorem parameterList_sound {c c' : Cursor} {list : List Parameter × Bool}
    (h : plain (parameterList c) = .ok (list, c')) :
    c.Skips (fun ts list => ParamList ts list.1 list.2) list c' := by
  rw [plain_parameterList] at h
  split at h
  · cases h
    exact ⟨[], rfl, .nothing⟩
  · split at h
    · next l c₁ hvoid =>
      cases h
      obtain ⟨hw, -⟩ := Option.filter_eq_some_iff.mp hvoid
      exact ⟨_, next?_keyword.mp hw, .void⟩
    · obtain ⟨ts, hc, hp | ⟨hfirst, -⟩⟩ := parameters_sound h
      · exact ⟨ts, hc, .params hp⟩
      · cases hfirst
termination_by 4 * c.rest.length + 3

/-- Behind a comma there may be an ellipsis alone. -/
theorem parameters_sound {first : Bool} {c c' : Cursor} {list : List Parameter × Bool}
    (h : plain (parameters first c) = .ok (list, c')) :
    c.Skips (fun ts list => Params ts list.1 list.2 ∨
      first = false ∧ list = ([], true) ∧ ∃ l, ts = [.ofMark .ellipsis l]) list c' := by
  rw [plain_parameters] at h
  split at h
  · next l c₁ hdots =>
    cases first with
    | true => cases h
    | false =>
      cases h
      exact ⟨_, next?_mark.mp hdots, .inr ⟨rfl, rfl, _, rfl⟩⟩
  · obtain ⟨⟨p, c₁⟩, hp, hmore⟩ := bind_eq_ok.mp h
    have h₁ := length_of_plain hp
    obtain ⟨ts, rfl, dp⟩ := parameter_sound hp
    dsimp only at hmore
    split at hmore
    · cases hmore
      exact ⟨ts, rfl, .inl (.last dp)⟩
    · next l c₂ hcomma =>
      obtain ⟨⟨list, c₃⟩, hm, hmore⟩ := bind_eq_ok.mp hmore
      cases hmore
      have h₂ := Cursor.length_of_next? hcomma
      obtain ⟨us, rfl, dm⟩ := parameters_sound hm
      obtain rfl := next?_mark.mp hcomma
      refine ⟨ts ++ .ofMark .comma l.2 :: us, by simp, .inl ?_⟩
      rcases dm with dm | ⟨-, rfl, l', rfl⟩
      · exact .more dp dm
      · exact .variadic dp
termination_by 4 * c.rest.length + 2

theorem parameter_sound {c c' : Cursor} {p : Parameter}
    (h : plain (parameter c) = .ok (p, c')) : c.Skips Param p c' := by
  rw [plain_parameter] at h
  obtain ⟨⟨type, c₁⟩, ht, h⟩ := bind_eq_ok.mp h
  obtain ⟨⟨d, c₂⟩, hd, h⟩ := bind_eq_ok.mp h
  have h₁ := length_of_plain ht
  obtain ⟨ts, rfl, dt⟩ := typeSpecifier_sound ht
  obtain ⟨us, rfl, ⟨hp, htail⟩⟩ := declarator_sound hd
  cases htail with
  | parameters => cases h
  | dimensions hdims =>
    cases h
    exact ⟨ts ++ _, by simp, .mk (typed_of dt hp hdims)⟩
termination_by 4 * c.rest.length + 1

end

/-! ## Headings -/

/-- The heading of a declaration as derived. -/
inductive HeadingPhrase : List Token → Heading → Prop where
  | function {ts : List Token} {p : Prototype} (h : FunHeading ts p) :
      HeadingPhrase ts (.function p)
  | var {ts : List Token} {v : Variable} (h : VarHeading ts v) : HeadingPhrase ts (.var v)

/-- A type and a declarator behind a storage class make a heading. -/
theorem Declarator.heading_phrase {ss ts us : List Token} {storage : Storage}
    {type : DeclaredType} {d : Declarator} (hs : StorageClass ss storage)
    (ht : TypeSpecifier ts type) (hd : DeclaratorPhrase us d) :
    HeadingPhrase (ss ++ (ts ++ us)) (d.heading storage type) := by
  obtain ⟨hp, htail⟩ := hd
  cases htail with
  | dimensions hdims => exact .var (.mk hs (typed_of ht hp hdims))
  | parameters hlist =>
    cases ht with
    | plain => simpa [Declarator.heading, Declarator.applyTo] using
        HeadingPhrase.function (.mk hs .plain hp hlist)
    | const => simpa [Declarator.heading, Declarator.applyTo] using
        HeadingPhrase.function (.mk hs .const hp hlist)

theorem typedHeading_sound {ss : List Token} {storage : Storage} {c c' : Cursor} {h : Heading}
    (hs : StorageClass ss storage) (hh : plain (typedHeading storage c) = .ok (h, c')) :
    ∃ ts, c = ⟨ts ++ c'.rest, c'.nextId⟩ ∧ HeadingPhrase (ss ++ ts) h := by
  rw [plain_typedHeading] at hh
  obtain ⟨⟨type, c₁⟩, ht, hh⟩ := bind_eq_ok.mp hh
  obtain ⟨⟨d, c₂⟩, hd, hh⟩ := bind_eq_ok.mp hh
  cases hh
  obtain ⟨ts, rfl, dt⟩ := typeSpecifier_sound ht
  obtain ⟨us, rfl, dd⟩ := declarator_sound hd
  exact ⟨ts ++ us, by simp, Declarator.heading_phrase hs dt dd⟩

theorem heading_sound {c c' : Cursor} {h : Heading} (hh : plain (heading c) = .ok (h, c')) :
    c.Skips HeadingPhrase h c' := by
  rw [plain_heading] at hh
  split at hh
  · next storage l c₁ hs =>
    obtain ⟨k, hc, hk, hi⟩ := Cursor.next?_eq_some.mp hs
    have dstorage : StorageClass [⟨k, l⟩] storage := by
      rcases storage?_eq_some.mp hk with ⟨rfl, rfl⟩ | ⟨rfl, rfl⟩
      · exact .static
      · exact .external
    obtain ⟨ts, rfl, dh⟩ := typedHeading_sound dstorage hh
    exact ⟨⟨k, l⟩ :: ts, by cases c; simp_all, dh⟩
  · exact typedHeading_sound .none hh

/-! ## Declarations -/

theorem localDecl_of_variableEnd {c c' : Cursor} {ts : List Token} {v w : Variable}
    (dv : VarHeading ts v) (h : plain (variableEnd v c) = .ok (w, c')) :
    ∃ us, c.rest = us ++ c'.rest ∧ LocalDecl c.nextId (ts ++ us) (.var w) c'.nextId := by
  rw [plain_variableEnd] at h
  split at h
  · next l c₁ hop =>
    obtain ⟨⟨e, c₂⟩, he, h⟩ := bind_eq_ok.mp h
    obtain ⟨⟨_, c₃⟩, hx, h⟩ := bind_eq_ok.mp h
    cases h
    obtain ⟨us, hus, de⟩ := expr_sound he
    obtain ⟨l', rfl⟩ := plain_expect_eq_ok.mp hx
    obtain rfl := next?_mark.mp hop
    exact ⟨.ofMark .assign l.2 :: (us ++ [.ofMark .semicolon l']), by simp [hus],
      .initialized dv de⟩
  · obtain ⟨⟨_, c₁⟩, hx, h⟩ := bind_eq_ok.mp h
    cases h
    obtain ⟨l, rfl⟩ := plain_expect_eq_ok.mp hx
    exact ⟨[.ofMark .semicolon l], rfl, .var dv⟩

theorem localDecl_of_prototypeEnd {c c' : Cursor} {ts : List Token} {p q : Prototype}
    (dp : FunHeading ts p) (h : plain (prototypeEnd p c) = .ok (q, c')) :
    ∃ us, c.rest = us ++ c'.rest ∧ LocalDecl c.nextId (ts ++ us) (.function q) c'.nextId := by
  rw [plain_prototypeEnd] at h
  obtain ⟨⟨_, c₁⟩, hx, h⟩ := bind_eq_ok.mp h
  cases h
  obtain ⟨l, rfl⟩ := plain_expect_eq_ok.mp hx
  exact ⟨[.ofMark .semicolon l], rfl, .prototype dp⟩

theorem blockDecl_sound {c c' : Cursor} {d : Decl} (h : plain (blockDecl c) = .ok (d, c')) :
    c.Spans LocalDecl d c' := by
  rw [plain_blockDecl] at h
  obtain ⟨⟨hd, c₁⟩, hh, hend⟩ := bind_eq_ok.mp h
  obtain ⟨ts, rfl, dh⟩ := heading_sound hh
  cases dh with
  | var dv =>
    obtain ⟨⟨v, c₂⟩, hv, hend⟩ := bind_eq_ok.mp hend
    cases hend
    obtain ⟨us, hus, dd⟩ := localDecl_of_variableEnd dv hv
    exact ⟨ts ++ us, by simp [hus], dd⟩
  | function dp =>
    dsimp only at hend
    split at hend
    · cases hend
    · obtain ⟨⟨p, c₂⟩, hp, hend⟩ := bind_eq_ok.mp hend
      cases hend
      obtain ⟨us, hus, dd⟩ := localDecl_of_prototypeEnd dp hp
      exact ⟨ts ++ us, by simp [hus], dd⟩

theorem blockDecls_sound {c c' : Cursor} {ds : List Decl}
    (h : plain (blockDecls c) = .ok (ds, c')) : c.Spans (Many LocalDecl) ds c' := by
  rw [plain_blockDecls] at h
  split at h
  · obtain ⟨⟨d, c₁⟩, hd, h⟩ := bind_eq_ok.mp h
    obtain ⟨⟨ds, c₂⟩, hm, h⟩ := bind_eq_ok.mp h
    cases h
    have h₁ := length_of_plain hd
    obtain ⟨ts, hts, dd⟩ := blockDecl_sound hd
    obtain ⟨us, hus, dm⟩ := blockDecls_sound hm
    exact ⟨ts ++ us, by rw [hts, hus, List.append_assoc], .cons dd dm⟩
  · cases h
    exact ⟨[], rfl, .nil⟩
termination_by c.rest.length

/-! ## Statements -/

theorem clause_sound {stop : Punctuator} {place : Place} {c c' : Cursor} {v : Option Expr}
    (h : plain (clause stop place c) = .ok (v, c')) :
    ∃ ts l, c.rest = ts ++ .ofMark stop l :: c'.rest ∧ Clause c.nextId ts v c'.nextId := by
  rw [plain_clause] at h
  split at h
  · next l c₁ hop =>
    cases h
    obtain rfl := next?_mark.mp hop
    exact ⟨[], l.2, rfl, .none⟩
  · obtain ⟨⟨e, c₁⟩, he, h⟩ := bind_eq_ok.mp h
    obtain ⟨⟨_, c₂⟩, hx, h⟩ := bind_eq_ok.mp h
    cases h
    obtain ⟨ts, hts, de⟩ := expr_sound he
    obtain ⟨l, rfl⟩ := plain_expect_eq_ok.mp hx
    exact ⟨ts, l, hts, .some de⟩

theorem condition_sound {word : Keyword} {c c' : Cursor} {e : Expr}
    (h : plain (condition word c) = .ok (e, c')) :
    ∃ l ts l', c.rest = .ofMark .leftParen l :: (ts ++ .ofMark .rightParen l' :: c'.rest) ∧
      Assignment c.nextId ts e c'.nextId := by
  rw [plain_condition] at h
  obtain ⟨⟨_, c₁⟩, hx, h⟩ := bind_eq_ok.mp h
  obtain ⟨⟨e, c₂⟩, he, h⟩ := bind_eq_ok.mp h
  obtain ⟨⟨_, c₃⟩, hy, h⟩ := bind_eq_ok.mp h
  cases h
  obtain ⟨l, rfl⟩ := plain_expect_eq_ok.mp hx
  obtain ⟨l', rfl⟩ := plain_expect_eq_ok.mp hy
  obtain ⟨ts, hts, de⟩ := expr_sound he
  exact ⟨l, ts, l', by rw [hts], de⟩

theorem forClauses_sound {c c' : Cursor} {f : ForClauses}
    (h : plain (forClauses c) = .ok (f, c')) :
    ∃ l₁ ts l₂ us l₃ vs l₄ j k,
      c.rest = .ofMark .leftParen l₁ :: (ts ++ .ofMark .semicolon l₂ ::
        (us ++ .ofMark .semicolon l₃ :: (vs ++ .ofMark .rightParen l₄ :: c'.rest))) ∧
      Clause c.nextId ts f.first j ∧ Clause j us f.condition k ∧
        Clause k vs f.step c'.nextId := by
  rw [plain_forClauses] at h
  obtain ⟨⟨_, c₁⟩, hx, h⟩ := bind_eq_ok.mp h
  obtain ⟨⟨first, c₂⟩, h₁, h⟩ := bind_eq_ok.mp h
  obtain ⟨⟨middle, c₃⟩, h₂, h⟩ := bind_eq_ok.mp h
  obtain ⟨⟨step, c₄⟩, h₃, h⟩ := bind_eq_ok.mp h
  cases h
  obtain ⟨l₁, rfl⟩ := plain_expect_eq_ok.mp hx
  obtain ⟨ts, l₂, hts, d₁⟩ := clause_sound h₁
  obtain ⟨us, l₃, hus, d₂⟩ := clause_sound h₂
  obtain ⟨vs, l₄, hvs, d₃⟩ := clause_sound h₃
  exact ⟨l₁, ts, l₂, us, l₃, vs, l₄, _, _, by rw [hts, hus, hvs], d₁, d₂, d₃⟩

mutual

theorem stmt_sound {c c' : Cursor} {s : Stmt} (h : plain (stmt c) = .ok (s, c')) :
    c.Spans Statement s c' := by
  rw [plain_stmt] at h
  split at h
  · obtain ⟨⟨e, c₁⟩, he, h⟩ := bind_eq_ok.mp h
    obtain ⟨⟨_, c₂⟩, hx, h⟩ := bind_eq_ok.mp h
    cases h
    obtain ⟨ts, hts, de⟩ := expr_sound he
    obtain ⟨l, rfl⟩ := plain_expect_eq_ok.mp hx
    obtain ⟨t, us, rfl, -⟩ := de.begins
    have hl : c.location = t.location := by simp [Cursor.location, hts]
    rw [hl]
    exact ⟨t :: (us ++ [.ofMark .semicolon l]), by simp [hts], .expr de⟩
  · next lead l c₁ hlead =>
    have h₁ := Cursor.length_of_next? hlead
    obtain ⟨ts, hts, ds⟩ := ledStmt_sound (l := l) h
    obtain rfl := next?_leader.mp hlead
    exact ⟨⟨lead.kind, l⟩ :: ts, by simp [hts], ds⟩
termination_by 8 * c.rest.length

theorem ledStmt_sound {lead : Leader} {l : Location} {c c' : Cursor} {s : Stmt}
    (h : plain (ledStmt lead l c) = .ok (s, c')) :
    ∃ ts, c.rest = ts ++ c'.rest ∧ Statement c.nextId (⟨lead.kind, l⟩ :: ts) s c'.nextId := by
  cases lead with
  | block =>
    rw [plain_ledStmt_block] at h
    obtain ⟨⟨b, c₁⟩, hb, h⟩ := bind_eq_ok.mp h
    cases h
    obtain ⟨ts, hts, db⟩ := block_sound hb
    exact ⟨ts, hts, .block db⟩
  | branch =>
    rw [plain_ledStmt_branch] at h
    obtain ⟨⟨e, c₁⟩, he, h⟩ := bind_eq_ok.mp h
    obtain ⟨⟨b, c₂⟩, hb, h⟩ := bind_eq_ok.mp h
    have h₁ := length_of_plain he
    have h₂ := length_of_plain hb
    obtain ⟨l₁, ts, l₂, hts, de⟩ := condition_sound he
    obtain ⟨us, hus, db⟩ := body_sound hb
    dsimp only at h
    split at h
    · cases h
      exact ⟨.ofMark .leftParen l₁ :: (ts ++ .ofMark .rightParen l₂ :: us), by simp [hts, hus],
        .ifThen de db⟩
    · next l₃ c₃ helse =>
      obtain ⟨⟨a, c₄⟩, ha, h⟩ := bind_eq_ok.mp h
      cases h
      have h₃ := Cursor.length_of_next? helse
      obtain ⟨vs, hvs, da⟩ := body_sound ha
      obtain rfl := next?_keyword.mp helse
      exact ⟨.ofMark .leftParen l₁ :: (ts ++ .ofMark .rightParen l₂ ::
        (us ++ .ofWord .elseKw l₃.2 :: vs)), by simp [hts, hus, hvs], .ifElse de db da⟩
  | whileLoop =>
    rw [plain_ledStmt_whileLoop] at h
    obtain ⟨⟨e, c₁⟩, he, h⟩ := bind_eq_ok.mp h
    obtain ⟨⟨b, c₂⟩, hb, h⟩ := bind_eq_ok.mp h
    cases h
    have h₁ := length_of_plain he
    obtain ⟨l₁, ts, l₂, hts, de⟩ := condition_sound he
    obtain ⟨us, hus, db⟩ := body_sound hb
    exact ⟨.ofMark .leftParen l₁ :: (ts ++ .ofMark .rightParen l₂ :: us), by simp [hts, hus],
      .whileLoop de db⟩
  | forLoop =>
    rw [plain_ledStmt_forLoop] at h
    obtain ⟨⟨f, c₁⟩, hf, h⟩ := bind_eq_ok.mp h
    obtain ⟨⟨b, c₂⟩, hb, h⟩ := bind_eq_ok.mp h
    cases h
    have h₁ := length_of_plain hf
    obtain ⟨l₁, ts, l₂, us, l₃, vs, l₄, j, k, hts, d₁, d₂, d₃⟩ := forClauses_sound hf
    obtain ⟨ws, hws, db⟩ := body_sound hb
    exact ⟨.ofMark .leftParen l₁ :: (ts ++ .ofMark .semicolon l₂ :: (us ++
      .ofMark .semicolon l₃ :: (vs ++ .ofMark .rightParen l₄ :: ws))), by simp [hts, hws],
      .forLoop d₁ d₂ d₃ db⟩
  | returnStmt =>
    rw [plain_ledStmt_returnStmt] at h
    obtain ⟨⟨v, c₁⟩, hv, h⟩ := bind_eq_ok.mp h
    cases h
    obtain ⟨ts, l₁, hts, dv⟩ := clause_sound hv
    have d : Statement c.nextId (.ofWord .returnKw l :: (ts ++ [.ofMark .semicolon l₁]))
        (.returnStmt v l) c'.nextId := .returnStmt dv
    exact ⟨ts ++ [Token.ofMark .semicolon l₁], by simp [hts], d⟩
  | jump kind =>
    rw [plain_ledStmt_jump] at h
    obtain ⟨⟨_, c₁⟩, hx, h⟩ := bind_eq_ok.mp h
    cases h
    obtain ⟨l₁, rfl⟩ := plain_expect_eq_ok.mp hx
    exact ⟨[.ofMark .semicolon l₁], rfl, .jump⟩
termination_by 8 * c.rest.length + 4

theorem body_sound {owner : Keyword} {c c' : Cursor} {b : Block}
    (h : plain (body owner c) = .ok (b, c')) : c.Spans Compound b c' := by
  rw [plain_body] at h
  split at h
  · cases h
  · next l c₁ hop =>
    have h₁ := Cursor.length_of_next? hop
    obtain ⟨ts, hts, db⟩ := block_sound h
    obtain rfl := next?_mark.mp hop
    exact ⟨.ofMark .leftBrace l :: ts, by simp [hts], db⟩
termination_by 8 * c.rest.length

theorem block_sound {l : Location} {c c' : Cursor} {b : Block}
    (h : plain (block l c) = .ok (b, c')) :
    ∃ ts, c.rest = ts ++ c'.rest ∧ Compound c.nextId (.ofMark .leftBrace l :: ts) b c'.nextId := by
  rw [plain_block] at h
  obtain ⟨⟨ds, c₁⟩, hd, h⟩ := bind_eq_ok.mp h
  obtain ⟨⟨ss, c₂⟩, hs, h⟩ := bind_eq_ok.mp h
  obtain ⟨⟨_, c₃⟩, hx, h⟩ := bind_eq_ok.mp h
  cases h
  have h₁ := length_of_plain hd
  obtain ⟨ts, hts, dd⟩ := blockDecls_sound hd
  obtain ⟨us, hus, ds⟩ := stmts_sound hs
  obtain ⟨l', rfl⟩ := plain_expect_eq_ok.mp hx
  exact ⟨ts ++ (us ++ [.ofMark .rightBrace l']), by simp [hts, hus], .mk dd ds⟩
termination_by 8 * c.rest.length + 3

theorem stmts_sound {c c' : Cursor} {ss : List Stmt} (h : plain (stmts c) = .ok (ss, c')) :
    c.Spans Statements ss c' := by
  rw [plain_stmts] at h
  split at h
  · cases h
    exact ⟨[], rfl, .nil⟩
  · split at h
    · cases h
      exact ⟨[], rfl, .nil⟩
    · split at h
      · cases h
      · obtain ⟨⟨s, c₁⟩, hs, h⟩ := bind_eq_ok.mp h
        obtain ⟨⟨ss, c₂⟩, hm, h⟩ := bind_eq_ok.mp h
        cases h
        have h₁ := length_of_plain hs
        obtain ⟨ts, hts, ds⟩ := stmt_sound hs
        obtain ⟨us, hus, dm⟩ := stmts_sound hm
        exact ⟨ts ++ us, by rw [hts, hus, List.append_assoc], .cons ds dm⟩
termination_by 8 * c.rest.length + 1

end

/-! ## Units -/

theorem external_sound {c c' : Cursor} {d : External} (h : plain (external c) = .ok (d, c')) :
    c.Spans FileDecl d c' := by
  rw [plain_external] at h
  obtain ⟨⟨hd, c₁⟩, hh, hend⟩ := bind_eq_ok.mp h
  obtain ⟨ts, rfl, dh⟩ := heading_sound hh
  cases dh with
  | var dv =>
    obtain ⟨⟨v, c₂⟩, hv, hend⟩ := bind_eq_ok.mp hend
    cases hend
    obtain ⟨us, hus, dd⟩ := localDecl_of_variableEnd dv hv
    exact ⟨ts ++ us, by simp [hus], .decl dd⟩
  | function dp =>
    dsimp only at hend
    split at hend
    · obtain ⟨⟨p, c₂⟩, hp, hend⟩ := bind_eq_ok.mp hend
      cases hend
      obtain ⟨us, hus, dd⟩ := localDecl_of_prototypeEnd dp hp
      exact ⟨ts ++ us, by simp [hus], .decl dd⟩
    · next l c₂ hop =>
      split at hend
      · cases hend
      · next hstorage =>
        obtain ⟨⟨b, c₃⟩, hb, hend⟩ := bind_eq_ok.mp hend
        cases hend
        obtain ⟨us, hus, db⟩ := block_sound hb
        obtain rfl := next?_mark.mp hop
        exact ⟨ts ++ .ofMark .leftBrace l :: us, by simp [hus], .definition dp hstorage db⟩

/-- A reading that does not fail has read all tokens as declarations. -/
theorem reading_sound {c : Cursor} (h : (Reading.from c).failure = none) :
    ∃ j, Many FileDecl c.nextId c.rest (Reading.from c).decls j := by
  rw [Reading.from_eq] at h ⊢
  split at h
  · next hempty =>
    rw [if_pos hempty, List.isEmpty_iff.mp hempty]
    exact ⟨_, .nil⟩
  · next hempty =>
    rw [if_neg hempty]
    cases hd : plain (external c) with
    | error f =>
      rw [hd] at h
      cases h
    | ok x =>
      obtain ⟨d, c₁⟩ := x
      rw [hd] at h
      have h₁ := length_of_plain hd
      obtain ⟨ts, hts, dd⟩ := external_sound hd
      obtain ⟨j, dm⟩ := reading_sound h
      exact ⟨j, hts ▸ .cons dd dm⟩
termination_by c.rest.length

end Parse

end CSubset
