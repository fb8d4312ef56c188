-- SUMMARY: What a parser makes of a cursor does not depend on tokens that it has not come to.
import CSubset.Proofs.Parse.ExprSoundness

/-!
# Lookahead

A parser looks at the next token behind what it takes, and no further. So if some token is
left where a parser stops, the tokens behind that one can be exchanged for any others, and the
parser stops at the same place with the same value or complaint. `LocalAt` says so of one
parser at one cursor; it holds of a parser if it holds of the parsers that it is made of, each
where it is called.
-/

namespace CSubset.Parse

variable {α β : Type} {s t : List Token}

/-- Where a parser stops. -/
def stop : Except Failure (α × Cursor) → Cursor
  | .ok (_, c) => c
  | .error f => f.cursor

/-- The same value or complaint at another cursor. -/
def stopAt (c : Cursor) : Except Failure (α × Cursor) → Except Failure (α × Cursor)
  | .ok (a, _) => .ok (a, c)
  | .error f => .error ⟨f.complaint, c⟩

@[simp] theorem stop_ok (a : α) (c : Cursor) : stop (.ok (a, c)) = c := rfl

@[simp] theorem stop_error (f : Failure) :
    stop (.error f : Except Failure (α × Cursor)) = f.cursor := rfl

/-- `c'` is `c` with the end `s` of its tokens exchanged for `t`; some token stands before the
end. -/
def Exchanged (s t : List Token) (c c' : Cursor) : Prop :=
  ∃ x xs, c.rest = x :: (xs ++ s) ∧ c' = ⟨x :: (xs ++ t), c.nextId⟩

namespace Exchanged

theorem unique {c c' c'' : Cursor} (h : Exchanged s t c c') (h' : Exchanged s t c c'') :
    c' = c'' := by
  obtain ⟨x, xs, hc, rfl⟩ := h
  obtain ⟨y, ys, hc', rfl⟩ := h'
  rw [hc] at hc'
  obtain ⟨rfl, h⟩ := List.cons.inj hc'
  rw [List.append_cancel_right h]

theorem head? {c c' : Cursor} (h : Exchanged s t c c') : c'.rest.head? = c.rest.head? := by
  obtain ⟨x, xs, hc, rfl⟩ := h
  rw [hc]
  rfl

theorem nextId {c c' : Cursor} (h : Exchanged s t c c') : c'.nextId = c.nextId := by
  obtain ⟨x, xs, hc, rfl⟩ := h
  rfl

/-- What can be exchanged behind a cursor can be exchanged at every cursor before it. -/
theorem append {c d d' : Cursor} {us : List Token} (h : Exchanged s t d d')
    (hc : c.rest = us ++ d.rest) : Exchanged s t c ⟨us ++ d'.rest, c.nextId⟩ := by
  obtain ⟨x, xs, hd, rfl⟩ := h
  cases us with
  | nil => exact ⟨x, xs, by rw [hc, hd]; rfl, rfl⟩
  | cons y ys => exact ⟨y, ys ++ x :: xs, by simp [hc, hd], by simp⟩

theorem bump {c c' : Cursor} (h : Exchanged s t c c') : Exchanged s t c.bump c'.bump := by
  obtain ⟨x, xs, hc, rfl⟩ := h
  exact ⟨x, xs, hc, rfl⟩

end Exchanged

/-- From the cursor `c` the parser `p` goes forward, and looks at one token at most behind
those that it takes. -/
structure LocalAt (p : Cursor → Except Failure (α × Cursor)) (c : Cursor) : Prop where
  forward : (stop (p c)).rest <:+ c.rest
  agree {s t : List Token} {c' d' : Cursor} (hc : Exchanged s t c c')
    (hd : Exchanged s t (stop (p c)) d') : p c' = stopAt d' (p c)

namespace LocalAt

variable {p q : Cursor → Except Failure (α × Cursor)} {c : Cursor}

theorem length_le {a : α} {d : Cursor} (hp : LocalAt p c) (h : p c = .ok (a, d)) :
    d.rest.length ≤ c.rest.length := by
  have forward := hp.forward
  rw [h] at forward
  exact forward.length_le

theorem of_eq (h : ∀ c, p c = q c) (hq : LocalAt q c) : LocalAt p c := by
  rw [funext h]
  exact hq

/-- What a parser does may depend on the next token. -/
theorem of_head (hq : LocalAt q c) (h : ∀ c', c'.rest.head? = c.rest.head? → p c' = q c') :
    LocalAt p c := by
  have hc := h c rfl
  refine ⟨hc ▸ hq.forward, fun hc' hd => ?_⟩
  rw [h _ hc'.head?, hc]
  exact hq.agree hc' (hc ▸ hd)

theorem done {a : α} : LocalAt (fun c => .ok (a, c)) c :=
  ⟨List.suffix_refl _, fun hc hd => by rw [hc.unique hd]; rfl⟩

/-- A parser may go on with a node, which takes the next number. -/
theorem bump {f : Cursor → β} (q : β → Cursor → Except Failure (α × Cursor))
    (hq : LocalAt (q (f c)) c.bump)
    (hf : ∀ c c', c'.nextId = c.nextId → f c' = f c := by intro c c' h; simp only [h]) :
    LocalAt (fun c => q (f c) c.bump) c := by
  refine ⟨hq.forward, fun hc hd => ?_⟩
  rw [hf _ _ hc.nextId]
  exact hq.agree hc.bump hd

theorem node {f : Cursor → α}
    (hf : ∀ c c', c'.nextId = c.nextId → f c' = f c := by intro c c' h; simp only [h]) :
    LocalAt (fun c => .ok (f c, c.bump)) c :=
  .bump (fun a c => .ok (a, c)) .done hf

theorem fail {complaint : Complaint} :
    LocalAt (fun c => (c.fail complaint : Except Failure (α × Cursor))) c := by
  refine ⟨List.suffix_refl _, fun hc hd => ?_⟩
  rw [hc.unique hd]
  rfl

theorem bind {f : α × Cursor → Except Failure (β × Cursor)} (hp : LocalAt p c)
    (hf : ∀ a d, p c = .ok (a, d) → LocalAt (fun d => f (a, d)) d) :
    LocalAt (fun c => p c >>= f) c := by
  rcases h : p c with e | ⟨a, d⟩
  · have hc : (p c >>= f) = .error e := by rw [h]; rfl
    refine ⟨?_, fun hc' hd => ?_⟩
    · rw [hc, stop_error]
      simpa only [h, stop_error] using hp.forward
    · rw [hc] at hd ⊢
      rw [hp.agree hc' (by rw [h]; exact hd), h]
      rfl
  · have hc : (p c >>= f) = f (a, d) := by rw [h]; rfl
    have hfd := hf a d h
    have forward : d.rest <:+ c.rest := by simpa only [h, stop_ok] using hp.forward
    refine ⟨?_, fun hc' hd => ?_⟩
    · rw [hc]
      exact hfd.forward.trans forward
    · rw [hc] at hd ⊢
      obtain ⟨us, hus⟩ := hfd.forward
      have hd' := hd.append hus.symm
      rw [hp.agree hc' (by rw [h]; exact hd'), h]
      exact hfd.agree hd' hd

/-- A parser may make something of the value of another. -/
theorem map (f : α → β) (hp : LocalAt p c) :
    LocalAt (fun c => do
      let (a, d) ← p c
      .ok (f a, d)) c :=
  .bind hp fun _ _ _ => .done

/-- A parser may ask what the next token is and leave it there. -/
theorem peek (pick : Token.Kind → Option β) (q r : Cursor → Except Failure (α × Cursor))
    (hq : c.next? pick = none → LocalAt q c)
    (hr : (c.next? pick).isSome = true → LocalAt r c)
    (h₀ : ∀ c, c.next? pick = none → p c = q c := by intro c h; simp [h])
    (h₁ : ∀ c b l d, c.next? pick = some ((b, l), d) → p c = r c := by
      intro c b l d h; simp [h]) : LocalAt p c := by
  rcases h : c.next? pick with _ | ⟨⟨b, l⟩, d⟩
  · refine of_head (hq h) fun c' hc' => h₀ c' ?_
    rw [Cursor.next?_eq_none, NextNot] at h ⊢
    rwa [hc']
  · refine of_head (hr (by rw [h]; rfl)) fun c' hc' => ?_
    rcases h' : c'.next? pick with _ | ⟨⟨b', l'⟩, d'⟩
    · rw [Cursor.next?_eq_none, NextNot, hc', ← NextNot, ← Cursor.next?_eq_none, h] at h'
      cases h'
    · exact h₁ c' b' l' d' h'

/-- A parser may take the next token and go on behind it. -/
theorem next {r : β → Location → Cursor → Except Failure (α × Cursor)}
    (pick : Token.Kind → Option β) (hq : c.next? pick = none → LocalAt q c)
    (hr : ∀ b l d, c.next? pick = some ((b, l), d) → LocalAt (r b l) d)
    (h₀ : ∀ c, c.next? pick = none → p c = q c := by intro c h; rw [h])
    (h₁ : ∀ c b l d, c.next? pick = some ((b, l), d) → p c = r b l d := by
      intro c b l d h; rw [h]) : LocalAt p c := by
  rcases h : c.next? pick with _ | ⟨⟨b, l⟩, d⟩
  · refine of_head (hq h) fun c' hc' => h₀ c' ?_
    rw [Cursor.next?_eq_none, NextNot] at h ⊢
    rwa [hc']
  · have hrd := hr b l d h
    have hc : p c = r b l d := h₁ c b l d h
    obtain ⟨k, hrest, hk, hid⟩ := Cursor.next?_eq_some.mp h
    refine ⟨?_, fun hc' hd => ?_⟩
    · rw [hc, hrest]
      exact hrd.forward.trans (List.suffix_cons _ _)
    · rw [hc] at hd ⊢
      obtain ⟨us, hus⟩ := hrd.forward
      have hd' := hd.append hus.symm
      have hrest' : c.rest = [⟨k, l⟩] ++ d.rest := hrest
      rw [hc'.unique (hd'.append hrest'), h₁ _ b l _ ?_]
      · exact hrd.agree hd' hd
      · exact Cursor.next?_eq_some.mpr ⟨k, rfl, hk, by rw [hd'.nextId, hid]⟩

end LocalAt

theorem expect_local (mark : Punctuator) (place : Place) (c : Cursor) :
    LocalAt (fun c => plain (expect mark place c)) c :=
  .of_eq (plain_expect mark place) (.next (mark? mark) (fun _ => .fail) fun _ _ _ _ => .done)

/-! ## Expressions -/

/-- Only what stands behind the string literals can be exchanged. -/
theorem joinStrings_exchanged {ts xs s : List Token} {x : Token} (t : List Token)
    (h : (joinStrings ts).2 = x :: (xs ++ s)) :
    ∃ us, ts = us ++ x :: (xs ++ s) ∧
      joinStrings (us ++ x :: (xs ++ t)) = ((joinStrings ts).1, x :: (xs ++ t)) := by
  induction ts with
  | nil => cases h
  | cons y ys ih =>
    cases hy : string? y.kind with
    | none =>
      simp only [joinStrings, hy] at h ⊢
      obtain ⟨rfl, rfl⟩ := List.cons.inj h
      exact ⟨[], rfl, by simp only [List.nil_append, joinStrings, hy]⟩
    | some value =>
      simp only [joinStrings, hy] at h ⊢
      obtain ⟨us, rfl, hus⟩ := ih h
      exact ⟨y :: us, rfl, by simp only [List.cons_append, joinStrings, hy, hus]⟩

theorem strings_local (first : String) (l : Location) (c : Cursor) :
    LocalAt (fun c => .ok (Expr.literal ⟨c.nextId, l⟩ (.string (first ++ (joinStrings c.rest).1)),
      ⟨(joinStrings c.rest).2, c.nextId + 1⟩)) c := by
  refine ⟨?_, fun {s t c' d'} hc hd => ?_⟩
  · obtain ⟨us, hus, -⟩ := strings_joinStrings c.rest
    exact ⟨us, hus.symm⟩
  · obtain ⟨x, xs, hd, rfl⟩ := hd
    obtain ⟨us, hus, h⟩ := joinStrings_exchanged t hd
    have hx : Exchanged s t ⟨x :: (xs ++ s), c.nextId⟩ ⟨x :: (xs ++ t), c.nextId⟩ :=
      ⟨x, xs, rfl, rfl⟩
    rw [hc.unique (hx.append hus), h]
    rfl

-- A parser that is called on the way has its own lemma, at the cursor where it is called. So only
-- the calls that are made are looked at, and each has fewer tokens ahead than its caller or stands
-- below it in the order of the summands.
mutual

theorem expr_local (c : Cursor) : LocalAt (fun c => plain (expr c)) c := by
  refine .of_eq plain_expr (.bind (binary_local 1 c) fun target c₁ h₁ => ?_)
  dsimp only
  refine .next assignOp? (fun _ => .done) fun op l c₂ h₂ => ?_
  have := length_of_plain h₁
  have := Cursor.length_of_next? h₂
  exact .bind (expr_local c₂) fun value c₃ _ => .node
termination_by 8 * c.rest.length + 5

theorem binary_local (least : Nat) (c : Cursor) : LocalAt (fun c => plain (binary least c)) c := by
  refine .of_eq (plain_binary least) (.bind (unary_local c) fun left c₁ h₁ => ?_)
  have := length_of_plain h₁
  exact binaryLoop_local least left c₁
termination_by 8 * c.rest.length + 4

theorem binaryLoop_local (least : Nat) (left : Expr) (c : Cursor) :
    LocalAt (binaryLoop least left) c := by
  refine .of_eq (binaryLoop_eq least left) ?_
  refine .next (binaryOpFrom? least) (fun _ => .done) fun op l c₁ h₁ => ?_
  have := Cursor.length_of_next? h₁
  refine .bind (binary_local (op.precedence + 1) c₁) fun right c₂ h₂ => ?_
  have := length_of_plain h₂
  exact .bump (binaryLoop least) (binaryLoop_local least _ _)
termination_by 8 * c.rest.length + 7

theorem unary_local (c : Cursor) : LocalAt (fun c => plain (unary c)) c := by
  refine .of_eq plain_unary (.next unaryOp? (fun _ => suffixed_local c) fun op l c₁ h₁ => ?_)
  have := Cursor.length_of_next? h₁
  exact .bind (unary_local c₁) fun operand c₂ _ => .node
termination_by 8 * c.rest.length + 3

theorem suffixed_local (c : Cursor) : LocalAt (fun c => plain (suffixed c)) c := by
  refine .of_eq plain_suffixed (.bind (primary_local c) fun base c₁ h₁ => ?_)
  have := length_of_plain h₁
  exact suffixLoop_local base c₁
termination_by 8 * c.rest.length + 2

theorem suffixLoop_local (base : Expr) (c : Cursor) : LocalAt (suffixLoop base) c := by
  refine .of_eq (suffixLoop_eq base) ?_
  refine .next (mark? .leftParen) (fun _ => ?_) fun _ l c₁ h₁ => ?_
  · refine .next (mark? .leftBracket) (fun _ => .done) fun _ l c₁ h₁ => ?_
    have := Cursor.length_of_next? h₁
    refine .bind (expr_local c₁) fun subscript c₂ h₂ => ?_
    refine .bind (expect_local _ _ c₂) fun _ c₃ h₃ => ?_
    have := length_of_plain h₂
    have := length_of_plain h₃
    exact .bump suffixLoop (suffixLoop_local _ _)
  · have := Cursor.length_of_next? h₁
    refine .bind (arguments_local c₁) fun args c₂ h₂ => ?_
    have := length_of_plain h₂
    exact .bump suffixLoop (suffixLoop_local _ _)
termination_by 8 * c.rest.length + 7

theorem arguments_local (c : Cursor) : LocalAt (fun c => plain (arguments c)) c := by
  refine .of_eq plain_arguments (.next (mark? .rightParen) (fun _ => ?_) fun _ _ _ _ => .done)
  refine .bind (argumentList_local c) fun list c₁ _ => ?_
  exact .bind (expect_local _ _ c₁) fun _ c₂ _ => .done
termination_by 8 * c.rest.length + 7

theorem argumentList_local (c : Cursor) : LocalAt (fun c => plain (argumentList c)) c := by
  refine .of_eq plain_argumentList (.bind (expr_local c) fun first c₁ h₁ => ?_)
  dsimp only
  refine .next (mark? .comma) (fun _ => .done) fun _ _ c₂ h₂ => ?_
  have := length_of_plain h₁
  have := Cursor.length_of_next? h₂
  refine .bind (argumentList_local c₂) fun more c₃ _ => ?_
  dsimp only
  exact .done
termination_by 8 * c.rest.length + 6

theorem primary_local (c : Cursor) : LocalAt (fun c => plain (primary c)) c := by
  refine .of_eq plain_primary (.next leaf? (fun _ => ?_) fun build l c₁ _ => ?_)
  · refine .next string? (fun _ => ?_) fun first l c₁ _ => strings_local first l c₁
    refine .next (mark? .leftParen) (fun _ => .fail) fun _ _ c₁ h₁ => ?_
    have := Cursor.length_of_next? h₁
    refine .bind (expr_local c₁) fun inner c₂ _ => ?_
    exact .bind (expect_local _ _ c₂) fun _ c₃ _ => .done
  · exact .node
termination_by 8 * c.rest.length + 1

end

/-! ## Declarations -/

theorem baseType_local (c : Cursor) : LocalAt (fun c => plain (baseType c)) c :=
  .of_eq plain_baseType (.next baseType? (fun _ => .fail) fun _ _ _ _ => .done)

theorem typeSpecifier_local (c : Cursor) : LocalAt (fun c => plain (typeSpecifier c)) c := by
  refine .of_eq plain_typeSpecifier (.next (keyword? .constKw) (fun _ => ?_) fun _ _ c₁ _ => ?_)
  · exact .bind (baseType_local c) fun b c₁ _ => .done
  · exact .bind (baseType_local c₁) fun b c₂ _ => .done

theorem dimensions_local (c : Cursor) : LocalAt (fun c => plain (dimensions c)) c := by
  refine .of_eq plain_dimensions (.next (mark? .leftBracket) (fun _ => .done) fun _ _ c₁ h₁ => ?_)
  refine .next arraySize? (fun _ => .fail) fun size _ c₂ h₂ => ?_
  refine .bind (expect_local _ _ c₂) fun _ c₃ h₃ => ?_
  have := Cursor.length_of_next? h₁
  have := Cursor.length_of_next? h₂
  have := length_of_plain h₃
  exact .bind (dimensions_local c₃) fun sizes c₄ _ => .done
termination_by c.rest.length

-- To find out whether `void` stands alone the parser looks at a second token. It then reads the
-- `void` again, as the type of a parameter. Read once, it leads to `voidList`, which has to look at
-- one token only.

/-- A parameter behind its type. -/
def typedParameter (type : DeclaredType) (c : Cursor) : Except Failure (Parameter × Cursor) := do
  let (d, c₁) ← plain (declarator c)
  match d.tail with
  | .parameters _ _ => c₁.fail (.functionParameter d.name d.location)
  | .dimensions _ => .ok (⟨d.applyTo type, d.name, d.location⟩, c₁)

/-- Parameters behind the first. -/
def parametersBehind (p : Parameter) (c : Cursor) :
    Except Failure ((List Parameter × Bool) × Cursor) :=
  match c.next? (mark? .comma) with
  | none => .ok (([p], false), c)
  | some (_, c₁) => do
    let (list, c₂) ← plain (parameters false c₁)
    .ok ((p :: list.1, list.2), c₂)

theorem plain_parameters_behind (first : Bool) (c : Cursor) :
    plain (parameters first c) = (
      match c.next? (mark? .ellipsis) with
      | some (_, c₁) => if first then c.fail .unnamedBeforeEllipsis else .ok (([], true), c₁)
      | none => do
        let (p, c₁) ← plain (parameter c)
        parametersBehind p c₁) :=
  plain_parameters first c

/-- A list of parameters behind the word `void`, which may be all there is. -/
def voidList (c : Cursor) : Except Failure ((List Parameter × Bool) × Cursor) :=
  match c.next? (mark? .rightParen) with
  | some _ => .ok (([], false), c)
  | none => do
    let (p, c₁) ← typedParameter ⟨.void, false, 0, []⟩ c
    parametersBehind p c₁

theorem plain_parameterList_void (c : Cursor) :
    plain (parameterList c) = (
      match c.next? (mark? .rightParen) with
      | some _ => .ok (([], false), c)
      | none =>
        match c.next? (keyword? .voidKw) with
        | some (_, c₁) => voidList c₁
        | none => plain (parameters true c)) := by
  have hdots : mark? .ellipsis (.keyword .voidKw) = none := rfl
  have hconst : keyword? .constKw (.keyword .voidKw) = none := rfl
  have hbase : baseType? (.keyword .voidKw) = some .void := rfl
  rw [plain_parameterList]
  cases c.next? (mark? .rightParen) with
  | some x => rfl
  | none =>
    rcases hvoid : c.next? (keyword? .voidKw) with _ | ⟨⟨_, l⟩, c₁⟩
    · rfl
    · rcases hclose : c₁.next? (mark? .rightParen) with _ | x
      · rw [next?_keyword.mp hvoid, Option.filter_some, hclose, plain_parameters_behind]
        simp only [Cursor.next?_cons, hdots, Option.map_none, plain_parameter,
          plain_typeSpecifier, hconst, plain_baseType, hbase, Option.map_some, ok_bind, voidList,
          hclose]
        rfl
      · simp only [Option.filter_some, hclose, Option.isSome_some, if_true, voidList]

mutual

theorem declarator_local (c : Cursor) : LocalAt (fun c => plain (declarator c)) c := by
  refine .of_eq plain_declarator (.next (mark? .star) (fun _ => ?_) fun _ _ c₁ h₁ => ?_)
  · refine .next identifier? (fun _ => .fail) fun name l c₁ h₁ => ?_
    refine .next (mark? .leftParen) (fun _ => ?_) fun _ _ c₂ h₂ => ?_
    · exact .bind (dimensions_local c₁) fun sizes c₂ _ => .done
    · have := Cursor.length_of_next? h₁
      have := Cursor.length_of_next? h₂
      refine .bind (parameterList_local c₂) fun list c₃ _ => ?_
      exact .bind (expect_local _ _ c₃) fun _ c₄ _ => .done
  · have := Cursor.length_of_next? h₁
    exact .bind (declarator_local c₁) fun d c₂ _ => .done
termination_by 4 * c.rest.length

theorem parameterList_local (c : Cursor) : LocalAt (fun c => plain (parameterList c)) c := by
  refine .of_eq plain_parameterList_void (.peek (mark? .rightParen)
    (fun c =>
      match c.next? (keyword? .voidKw) with
      | some (_, c₁) => voidList c₁
      | none => plain (parameters true c))
    (fun c => .ok (([], false), c)) (fun _ => ?_) fun _ => .done)
  refine .next (keyword? .voidKw) (fun _ => parameters_local true c) fun _ _ c₁ h₁ => ?_
  have := Cursor.length_of_next? h₁
  exact voidList_local c₁
termination_by 4 * c.rest.length + 3

theorem voidList_local (c : Cursor) : LocalAt voidList c := by
  unfold voidList
  refine .peek (mark? .rightParen)
    (fun c => do
      let (p, c₁) ← typedParameter ⟨.void, false, 0, []⟩ c
      parametersBehind p c₁)
    (fun c => .ok (([], false), c)) (fun _ => ?_) fun _ => .done
  refine .bind (typedParameter_local _ c) fun p c₁ h₁ => ?_
  have := (typedParameter_local _ c).length_le h₁
  exact parametersBehind_local p c₁
termination_by 4 * c.rest.length + 2

theorem parameters_local (first : Bool) (c : Cursor) :
    LocalAt (fun c => plain (parameters first c)) c := by
  refine .of_eq (plain_parameters_behind first) ?_
  have hmore : LocalAt (fun c => do
      let (p, c₁) ← plain (parameter c)
      parametersBehind p c₁) c := by
    refine .bind (parameter_local c) fun p c₁ h₁ => ?_
    have := length_of_plain h₁
    exact parametersBehind_local p c₁
  cases first with
  | true =>
    exact .peek (mark? .ellipsis) _ (fun c => c.fail .unnamedBeforeEllipsis) (fun _ => hmore)
      fun _ => .fail
  | false =>
    exact .next (mark? .ellipsis) (fun _ => hmore) (fun _ _ _ _ => .done) (fun c h => by rw [h])
      fun c _ _ _ h => by rw [h]; rfl
termination_by 4 * c.rest.length + 2

theorem parametersBehind_local (p : Parameter) (c : Cursor) :
    LocalAt (parametersBehind p) c := by
  unfold parametersBehind
  refine .next (mark? .comma) (fun _ => .done) fun _ _ c₁ h₁ => ?_
  have := Cursor.length_of_next? h₁
  refine .bind (parameters_local false c₁) fun list c₂ _ => ?_
  exact .done
termination_by 4 * c.rest.length

theorem parameter_local (c : Cursor) : LocalAt (fun c => plain (parameter c)) c := by
  refine .of_eq plain_parameter (.bind (typeSpecifier_local c) fun type c₁ h₁ => ?_)
  have := length_of_plain h₁
  exact typedParameter_local type c₁
termination_by 4 * c.rest.length + 1

theorem typedParameter_local (type : DeclaredType) (c : Cursor) :
    LocalAt (typedParameter type) c := by
  unfold typedParameter
  refine .bind (declarator_local c) fun d c₁ _ => ?_
  dsimp only
  cases d.tail with
  | parameters => exact .fail
  | dimensions => exact .done
termination_by 4 * c.rest.length + 1

end

theorem typedHeading_local (storage : Storage) (c : Cursor) :
    LocalAt (fun c => plain (typedHeading storage c)) c := by
  refine .of_eq (plain_typedHeading storage) (.bind (typeSpecifier_local c) fun type c₁ _ => ?_)
  exact .bind (declarator_local c₁) fun d c₂ _ => .done

theorem heading_local (c : Cursor) : LocalAt (fun c => plain (heading c)) c :=
  .of_eq plain_heading (.next storage? (fun _ => typedHeading_local .none c)
    fun storage _ c₁ _ => typedHeading_local storage c₁)

theorem variableEnd_local (v : Variable) (c : Cursor) :
    LocalAt (fun c => plain (variableEnd v c)) c := by
  refine .of_eq (plain_variableEnd v) (.next (mark? .assign) (fun _ => ?_) fun _ _ c₁ _ => ?_)
  · exact .bind (expect_local _ _ c) fun _ c₁ _ => .done
  · refine .bind (expr_local c₁) fun value c₂ _ => ?_
    exact .bind (expect_local _ _ c₂) fun _ c₃ _ => .done

theorem prototypeEnd_local (p : Prototype) (c : Cursor) :
    LocalAt (fun c => plain (prototypeEnd p c)) c :=
  .of_eq (plain_prototypeEnd p) (.bind (expect_local _ _ c) fun _ _ _ => .done)

theorem blockDecl_local (c : Cursor) : LocalAt (fun c => plain (blockDecl c)) c := by
  refine .of_eq plain_blockDecl (.bind (heading_local c) fun h c₁ _ => ?_)
  cases h with
  | var v => exact .bind (variableEnd_local v c₁) fun v c₂ _ => .done
  | function p =>
    exact .peek (mark? .leftBrace) _ (fun c => c.fail .nestedFunction)
      (fun _ => (prototypeEnd_local p c₁).map Decl.function) fun _ => .fail

theorem blockDecls_local (c : Cursor) : LocalAt (fun c => plain (blockDecls c)) c := by
  by_cases h : (c.rest.head?.any fun t => startsDeclaration t.kind) = true
  · refine .of_head ?_ fun c' hc' => by rw [plain_blockDecls, hc', if_pos h]
    refine .bind (blockDecl_local c) fun d c₁ h₁ => ?_
    have := length_of_plain h₁
    exact .bind (blockDecls_local c₁) fun ds c₂ _ => .done
  · exact .of_head .done fun c' hc' => by rw [plain_blockDecls, hc', if_neg h]
termination_by c.rest.length

/-! ## Statements -/

theorem clause_local (stop : Punctuator) (place : Place) (c : Cursor) :
    LocalAt (fun c => plain (clause stop place c)) c := by
  refine .of_eq (plain_clause stop place) (.next (mark? stop) (fun _ => ?_) fun _ _ _ _ => .done)
  refine .bind (expr_local c) fun e c₁ _ => ?_
  exact .bind (expect_local _ _ c₁) fun _ c₂ _ => .done

theorem condition_local (word : Keyword) (c : Cursor) :
    LocalAt (fun c => plain (condition word c)) c := by
  refine .of_eq (plain_condition word) (.bind (expect_local _ _ c) fun _ c₁ _ => ?_)
  refine .bind (expr_local c₁) fun e c₂ _ => ?_
  exact .bind (expect_local _ _ c₂) fun _ c₃ _ => .done

theorem forClauses_local (c : Cursor) : LocalAt (fun c => plain (forClauses c)) c := by
  refine .of_eq plain_forClauses (.bind (expect_local _ _ c) fun _ c₁ _ => ?_)
  refine .bind (clause_local _ _ c₁) fun first c₂ _ => ?_
  refine .bind (clause_local _ _ c₂) fun middle c₃ _ => ?_
  exact .bind (clause_local _ _ c₃) fun step c₄ _ => .done

mutual

theorem stmt_local (c : Cursor) : LocalAt (fun c => plain (stmt c)) c := by
  refine .of_eq plain_stmt (.next leader? (fun _ => ?_) fun lead l c₁ h₁ => ?_)
  · refine .of_head (q := fun c' => do
      let (e, c₁) ← plain (expr c')
      let (_, c₂) ← plain (expect .semicolon .afterExpression c₁)
      .ok (.expr e c.location, c₂)) ?_ fun c' hc' => by simp only [Cursor.location, hc']
    refine .bind (expr_local c) fun e c₁ _ => ?_
    exact .bind (expect_local _ _ c₁) fun _ c₂ _ => .done
  · have := Cursor.length_of_next? h₁
    exact ledStmt_local lead l c₁
termination_by 8 * c.rest.length

theorem ledStmt_local (lead : Leader) (l : Location) (c : Cursor) :
    LocalAt (fun c => plain (ledStmt lead l c)) c := by
  cases lead with
  | block =>
    exact .of_eq (plain_ledStmt_block l) (.bind (block_local l c) fun b c₁ _ => .done)
  | branch =>
    refine .of_eq (plain_ledStmt_branch l) (.bind (condition_local _ c) fun e c₁ h₁ => ?_)
    have := length_of_plain h₁
    refine .bind (body_local _ c₁) fun b c₂ h₂ => ?_
    dsimp only
    refine .next (keyword? .elseKw) (fun _ => .done) fun _ _ c₃ h₃ => ?_
    have := length_of_plain h₂
    have := Cursor.length_of_next? h₃
    refine .bind (body_local _ c₃) fun a c₄ _ => ?_
    dsimp only
    exact .done
  | whileLoop =>
    refine .of_eq (plain_ledStmt_whileLoop l) (.bind (condition_local _ c) fun e c₁ h₁ => ?_)
    have := length_of_plain h₁
    exact .bind (body_local _ c₁) fun b c₂ _ => .done
  | forLoop =>
    refine .of_eq (plain_ledStmt_forLoop l) (.bind (forClauses_local c) fun f c₁ h₁ => ?_)
    have := length_of_plain h₁
    exact .bind (body_local _ c₁) fun b c₂ _ => .done
  | returnStmt =>
    exact .of_eq (plain_ledStmt_returnStmt l) (.bind (clause_local _ _ c) fun v c₁ _ => .done)
  | jump kind =>
    exact .of_eq (plain_ledStmt_jump kind l) (.bind (expect_local _ _ c) fun _ c₁ _ => .done)
termination_by 8 * c.rest.length + 4

theorem body_local (owner : Keyword) (c : Cursor) :
    LocalAt (fun c => plain (body owner c)) c := by
  refine .of_eq (plain_body owner) (.next (mark? .leftBrace) (fun _ => .fail) fun _ l c₁ h₁ => ?_)
  have := Cursor.length_of_next? h₁
  exact block_local l c₁
termination_by 8 * c.rest.length

theorem block_local (l : Location) (c : Cursor) : LocalAt (fun c => plain (block l c)) c := by
  refine .of_eq (plain_block l) (.bind (blockDecls_local c) fun ds c₁ h₁ => ?_)
  have := length_of_plain h₁
  refine .bind (stmts_local c₁) fun ss c₂ _ => ?_
  exact .bind (expect_local _ _ c₂) fun _ c₃ _ => .done
termination_by 8 * c.rest.length + 3

theorem stmts_local (c : Cursor) : LocalAt (fun c => plain (stmts c)) c := by
  rcases h : c.rest.head? with _ | t
  · exact .of_head .done fun c' hc' => by rw [plain_stmts, hc', h]
  · by_cases hbrace : t.kind = .punctuator .rightBrace
    · exact .of_head (q := fun c => .ok ([], c)) .done fun c' hc' => by
        simp only [plain_stmts c', hc', h, hbrace, if_true]
    · by_cases hdecl : startsDeclaration t.kind = true
      · exact .of_head (q := fun c => c.fail .lateDeclaration) .fail fun c' hc' => by
          simp only [plain_stmts c', hc', h, hbrace, if_false, hdecl, if_true]
      · refine .of_head (q := fun c => do
          let (s, c₁) ← plain (stmt c)
          let (ss, c₂) ← plain (stmts c₁)
          .ok (s :: ss, c₂)) ?_ fun c' hc' => by
            simp only [plain_stmts c', hc', h, hbrace, if_false, hdecl]
            rfl
        refine .bind (stmt_local c) fun s c₁ h₁ => ?_
        have := length_of_plain h₁
        exact .bind (stmts_local c₁) fun ss c₂ _ => .done
termination_by 8 * c.rest.length + 1

end

/-! ## Units -/

theorem external_local (c : Cursor) : LocalAt (fun c => plain (external c)) c := by
  refine .of_eq plain_external (.bind (heading_local c) fun h c₁ _ => ?_)
  cases h with
  | var v => exact .bind (variableEnd_local v c₁) fun v c₂ _ => .done
  | function p =>
    have hproto := (prototypeEnd_local p c₁).map fun p => External.decl (.function p)
    by_cases hs : p.storage = .external
    · exact .peek (mark? .leftBrace) _ (fun c => c.fail .externBody) (fun _ => hproto)
        (fun _ => .fail) (fun c h => by simp only [h]) fun c b l d h => by simp only [h, if_pos hs]
    · exact .next (mark? .leftBrace) (fun _ => hproto)
        (fun _ l c₂ _ => (block_local l c₂).map (External.definition p))
        (fun c h => by simp only [h]) fun c _ l d h => by simp only [h, if_neg hs]

theorem reading_forward (c : Cursor) : (Reading.from c).cursor.rest <:+ c.rest := by
  rw [Reading.from_eq]
  split
  · exact List.suffix_refl _
  · have hforward := (external_local c).forward
    rcases h : plain (external c) with f | ⟨d, c₁⟩
    · rwa [h] at hforward
    · rw [h] at hforward
      have := length_of_plain h
      exact (reading_forward c₁).trans hforward
termination_by c.rest.length

/-- A reading that stops before some token does not depend on the tokens behind that one. -/
theorem reading_exchanged {c c' d' : Cursor} (hc : Exchanged s t c c')
    (hd : Exchanged s t (Reading.from c).cursor d') :
    Reading.from c' = { Reading.from c with cursor := d' } := by
  have hlocal := external_local c
  obtain ⟨x, xs, hrest, rfl⟩ := id hc
  rw [Reading.from_eq c, if_neg (by simp [hrest])] at hd ⊢
  rw [Reading.from_eq, if_neg (by simp)]
  rcases h : plain (external c) with f | ⟨d, c₁⟩
  · rw [h] at hd
    rw [hlocal.agree hc (by rw [h]; exact hd), h]
    rfl
  · rw [h] at hd
    dsimp only at hd ⊢
    have := length_of_plain h
    obtain ⟨us, hus⟩ := reading_forward c₁
    have hc₁ := hd.append hus.symm
    rw [hlocal.agree hc (by rw [h]; exact hc₁), h, stopAt]
    dsimp only
    rw [reading_exchanged hc₁ hd]
termination_by c.rest.length

end CSubset.Parse
