-- SUMMARY: The parsers as functions on plain cursors: one equation for each, without the bounds that make them end.
import CSubset.Parse.Unit

/-!
# Parsers without bounds

A parser hands on its value together with the fact that fewer tokens are ahead. That fact
makes the recursion end, and it stands in the way of everything else. `Parse.plain` drops
it. Each parser then satisfies an equation between plain results, which mentions the
parsers it calls and nothing of the bounds; theorems about parsers start from these
equations and never unfold a parser.
-/

namespace CSubset

variable {α β γ : Type} {n m : Nat}

/-- The first of some tokens, if there is one, is of no kind that `pick` admits. -/
def NextNot (pick : Token.Kind → Option β) (ts : List Token) : Prop :=
  ∀ t ∈ ts.head?, pick t.kind = none

theorem nextNot_nil (pick : Token.Kind → Option β) : NextNot pick [] := nofun

theorem nextNot_cons {pick : Token.Kind → Option β} {t : Token} {ts : List Token} :
    NextNot pick (t :: ts) ↔ pick t.kind = none := by
  simp [NextNot]

namespace Cursor

/-- The next token if `pick` admits its kind, and the cursor behind it. -/
def next? (c : Cursor) (pick : Token.Kind → Option β) : Option ((β × Location) × Cursor) :=
  (c.take? pick).map fun p => (p.value, p.cursor)

@[simp] theorem next?_nil (i : Nat) (pick : Token.Kind → Option β) :
    next? ⟨[], i⟩ pick = none := rfl

@[simp] theorem next?_cons (t : Token) (rest : List Token) (i : Nat)
    (pick : Token.Kind → Option β) :
    next? ⟨t :: rest, i⟩ pick =
      (pick t.kind).map fun b => ((b, t.location), ⟨rest, i⟩) := by
  simp [next?, take?, Option.map_map, Function.comp_def]

theorem next?_eq_some {c c' : Cursor} {pick : Token.Kind → Option β} {b : β} {l : Location} :
    c.next? pick = some ((b, l), c') ↔
      ∃ k, c.rest = ⟨k, l⟩ :: c'.rest ∧ pick k = some b ∧ c'.nextId = c.nextId := by
  rcases c with ⟨_ | ⟨⟨k, l₀⟩, rest⟩, i⟩
  · simp
  · rcases c' with ⟨rest', i'⟩
    simp only [next?_cons, Option.map_eq_some_iff, Prod.mk.injEq, mk.injEq, List.cons.injEq,
      Token.mk.injEq]
    constructor
    · rintro ⟨b', hb, ⟨rfl, rfl⟩, rfl, rfl⟩
      exact ⟨k, ⟨⟨rfl, rfl⟩, rfl⟩, hb, rfl⟩
    · rintro ⟨k', ⟨⟨rfl, rfl⟩, rfl⟩, hb, rfl⟩
      exact ⟨b, hb, ⟨rfl, rfl⟩, rfl, rfl⟩

theorem next?_eq_none {c : Cursor} {pick : Token.Kind → Option β} :
    c.next? pick = none ↔ NextNot pick c.rest := by
  rcases c with ⟨_ | ⟨t, rest⟩, i⟩
  · simp [nextNot_nil]
  · simp [nextNot_cons]

theorem length_of_next? {c c' : Cursor} {pick : Token.Kind → Option β} {x : β × Location}
    (h : c.next? pick = some (x, c')) : c'.rest.length < c.rest.length := by
  obtain ⟨k, hk, -⟩ := next?_eq_some.mp h
  simp [hk]

theorem length_lt (c : Cursor) : c.rest.length < c.rest.length + 1 := Nat.lt_succ_self _

/-- The cursor behind a node that has just been completed. -/
def bump (c : Cursor) : Cursor := ⟨c.rest, c.nextId + 1⟩

@[simp] theorem bump_rest (c : Cursor) : c.bump.rest = c.rest := rfl

@[simp] theorem bump_nextId (c : Cursor) : c.bump.nextId = c.nextId + 1 := rfl

@[simp] theorem bump_mk (rest : List Token) (i : Nat) : bump ⟨rest, i⟩ = ⟨rest, i + 1⟩ := rfl

end Cursor

namespace Parse

/-! ## Results without bounds -/

/-- The result of a parser without the bound on the tokens ahead. -/
def plain (r : Except Failure (Parsed α n)) : Except Failure (α × Cursor) :=
  r.map fun p => (p.value, p.cursor)

@[simp] theorem plain_ok (p : Parsed α n) : plain (.ok p) = .ok (p.value, p.cursor) := rfl

@[simp] theorem plain_fail (c : Cursor) (complaint : Complaint) :
    plain (c.fail complaint : Except Failure (Parsed α n)) = c.fail complaint := rfl

/-- A result is found without its bound by finding what it binds without bounds. -/
theorem plain_bind {r : Except Failure (Parsed α n)}
    {f : Parsed α n → Except Failure (Parsed β m)} {g : α × Cursor → Except Failure (β × Cursor)}
    (h : ∀ p, plain (f p) = g (p.value, p.cursor)) : plain (r >>= f) = plain r >>= g := by
  cases r with
  | error e => rfl
  | ok p => exact h p

/-- Two continuations that differ in their bounds alone lead to one plain result. -/
theorem plain_bind_congr {k : Nat} {r : Except Failure (Parsed α n)}
    {f : Parsed α n → Except Failure (Parsed β m)} {g : Parsed α n → Except Failure (Parsed β k)}
    (h : ∀ p, plain (f p) = plain (g p)) : plain (r >>= f) = plain (r >>= g) := by
  cases r with
  | error e => rfl
  | ok p => exact h p

/-- A plain result comes from one that keeps its bound. -/
theorem length_of_plain {r : Except Failure (Parsed α n)} {a : α} {c : Cursor}
    (h : plain r = .ok (a, c)) : c.rest.length < n := by
  cases r with
  | error e => cases h
  | ok p =>
    cases h
    exact p.shorter

/-- A successful sequence splits into its first part and what follows. -/
theorem bind_eq_ok {r : Except Failure α} {f : α → Except Failure β} {b : β} :
    (r >>= f) = .ok b ↔ ∃ a, r = .ok a ∧ f a = .ok b := by
  cases r with
  | error e => exact ⟨nofun, fun ⟨_, h, _⟩ => nomatch h⟩
  | ok a => exact ⟨fun h => ⟨a, rfl, h⟩, fun ⟨_, h, h'⟩ => by cases h; exact h'⟩

@[simp] theorem ok_bind (a : α) (f : α → Except Failure β) : (Except.ok a >>= f) = f a := rfl

theorem plain_expect (mark : Punctuator) (place : Place) (c : Cursor) :
    plain (expect mark place c) =
      match c.next? (mark? mark) with
      | some (_, c₁) => .ok ((), c₁)
      | none => c.fail (.missing mark place) := by
  unfold expect Cursor.next?
  cases c.take? (mark? mark) <;> rfl

/-! ## Expressions -/

theorem plain_expr (c : Cursor) :
    plain (expr c) = (do
      let (target, c₁) ← plain (binary 1 c)
      match c₁.next? assignOp? with
      | none => .ok (target, c₁)
      | some ((op, l), c₂) =>
        let (value, c₃) ← plain (expr c₂)
        .ok (.assign ⟨c₃.nextId, l⟩ op target value, c₃.bump)) := by
  rw [expr]
  refine plain_bind fun target => ?_
  simp only [Cursor.next?]
  cases target.cursor.take? assignOp? with
  | none => rfl
  | some op => exact plain_bind fun value => rfl

/-- How the bound is written plays no part in what follows a left operand. -/
theorem plain_binaryRest_congr (least : Nat) (e : Expr) (c : Cursor)
    (hn : c.rest.length < n) (hm : c.rest.length < m) :
    plain (binaryRest least (n := n) ⟨e, c, hn⟩) =
      plain (binaryRest least (n := m) ⟨e, c, hm⟩) := by
  rw [binaryRest, binaryRest]
  cases c.take? (binaryOpFrom? least) with
  | none => rfl
  | some op =>
    refine plain_bind_congr fun right => ?_
    exact plain_binaryRest_congr least _ _ _ _
termination_by c.rest.length
decreasing_by
  have := op.shorter
  have := right.shorter
  simp only [Parsed.andThen, Parsed.node]
  omega

/-- What a left operand grows to as long as operators bind at least as tightly as `least`. -/
def binaryLoop (least : Nat) (left : Expr) (c : Cursor) : Except Failure (Expr × Cursor) :=
  plain (binaryRest least (n := c.rest.length + 1) ⟨left, c, c.length_lt⟩)

theorem plain_binary (least : Nat) (c : Cursor) :
    plain (binary least c) = (do
      let (left, c₁) ← plain (unary c)
      binaryLoop least left c₁) := by
  rw [binary]
  exact plain_bind fun left => plain_binaryRest_congr least _ _ _ _

theorem binaryLoop_eq (least : Nat) (left : Expr) (c : Cursor) :
    binaryLoop least left c = (
      match c.next? (binaryOpFrom? least) with
      | none => .ok (left, c)
      | some ((op, l), c₁) => do
        let (right, c₂) ← plain (binary (op.precedence + 1) c₁)
        binaryLoop least (.binary ⟨c₂.nextId, l⟩ op left right) c₂.bump) := by
  simp only [binaryLoop, Cursor.next?]
  rw [binaryRest]
  cases c.take? (binaryOpFrom? least) with
  | none => rfl
  | some op => exact plain_bind fun right => plain_binaryRest_congr least _ _ _ _

theorem plain_unary (c : Cursor) :
    plain (unary c) = (
      match c.next? unaryOp? with
      | none => plain (suffixed c)
      | some ((op, l), c₁) => do
        let (operand, c₂) ← plain (unary c₁)
        .ok (.unary ⟨c₂.nextId, l⟩ op operand, c₂.bump)) := by
  rw [unary]
  simp only [Cursor.next?]
  cases c.take? unaryOp? with
  | none => rfl
  | some op => exact plain_bind fun operand => rfl

/-- How the bound is written plays no part in what follows a primary expression. -/
theorem plain_suffixes_congr (e : Expr) (c : Cursor)
    (hn : c.rest.length < n) (hm : c.rest.length < m) :
    plain (suffixes (n := n) ⟨e, c, hn⟩) = plain (suffixes (n := m) ⟨e, c, hm⟩) := by
  rw [suffixes, suffixes]
  cases c.take? (mark? .leftParen) with
  | some opening =>
    refine plain_bind_congr fun args => ?_
    exact plain_suffixes_congr _ _ _ _
  | none =>
    cases c.take? (mark? .leftBracket) with
    | none => rfl
    | some opening =>
      refine plain_bind_congr fun subscript => ?_
      refine plain_bind_congr fun closing => ?_
      exact plain_suffixes_congr _ _ _ _
termination_by c.rest.length
decreasing_by
  · have := opening.shorter
    have := subscript.shorter
    have := closing.shorter
    simp only [Parsed.andThen, Parsed.node]
    omega
  · have := opening.shorter
    have := args.shorter
    simp only [Parsed.andThen, Parsed.node]
    omega

/-- What an expression grows to as long as calls and subscripts follow. -/
def suffixLoop (base : Expr) (c : Cursor) : Except Failure (Expr × Cursor) :=
  plain (suffixes (n := c.rest.length + 1) ⟨base, c, c.length_lt⟩)

theorem plain_suffixed (c : Cursor) :
    plain (suffixed c) = (do
      let (base, c₁) ← plain (primary c)
      suffixLoop base c₁) := by
  rw [suffixed]
  exact plain_bind fun base => plain_suffixes_congr _ _ _ _

theorem suffixLoop_eq (base : Expr) (c : Cursor) :
    suffixLoop base c = (
      match c.next? (mark? .leftParen) with
      | some ((_, l), c₁) => do
        let (args, c₂) ← plain (arguments c₁)
        suffixLoop (.call ⟨c₂.nextId, l⟩ base args) c₂.bump
      | none =>
        match c.next? (mark? .leftBracket) with
        | none => .ok (base, c)
        | some ((_, l), c₁) => do
          let (subscript, c₂) ← plain (expr c₁)
          let (_, c₃) ← plain (expect .rightBracket .afterSubscript c₂)
          suffixLoop (.index ⟨c₃.nextId, l⟩ base subscript) c₃.bump) := by
  simp only [suffixLoop, Cursor.next?]
  rw [suffixes]
  cases c.take? (mark? .leftParen) with
  | some opening => exact plain_bind fun args => plain_suffixes_congr _ _ _ _
  | none =>
    cases c.take? (mark? .leftBracket) with
    | none => rfl
    | some opening =>
      refine plain_bind fun subscript => ?_
      exact plain_bind fun closing => plain_suffixes_congr _ _ _ _

theorem plain_arguments (c : Cursor) :
    plain (arguments c) = (
      match c.next? (mark? .rightParen) with
      | some (_, c₁) => .ok ([], c₁)
      | none => do
        let (list, c₁) ← plain (argumentList c)
        let (_, c₂) ← plain (expect .rightParen .afterArguments c₁)
        .ok (list, c₂)) := by
  rw [arguments]
  simp only [Cursor.next?]
  cases c.take? (mark? .rightParen) with
  | some closing => rfl
  | none =>
    refine plain_bind fun list => ?_
    exact plain_bind fun closing => rfl

theorem plain_argumentList (c : Cursor) :
    plain (argumentList c) = (do
      let (first, c₁) ← plain (expr c)
      match c₁.next? (mark? .comma) with
      | none => .ok ([first], c₁)
      | some (_, c₂) =>
        let (more, c₃) ← plain (argumentList c₂)
        .ok (first :: more, c₃)) := by
  rw [argumentList]
  refine plain_bind fun first => ?_
  simp only [Cursor.next?]
  cases first.cursor.take? (mark? .comma) with
  | none => rfl
  | some comma => exact plain_bind fun more => rfl

theorem plain_primary (c : Cursor) :
    plain (primary c) = (
      match c.next? leaf? with
      | some ((build, l), c₁) => .ok (build ⟨c₁.nextId, l⟩, c₁.bump)
      | none =>
        match c.next? string? with
        | some ((first, l), c₁) =>
          .ok (.literal ⟨c₁.nextId, l⟩ (.string (first ++ (joinStrings c₁.rest).1)),
            ⟨(joinStrings c₁.rest).2, c₁.nextId + 1⟩)
        | none =>
          match c.next? (mark? .leftParen) with
          | none => c.fail .expression
          | some (_, c₁) => do
            let (inner, c₂) ← plain (expr c₁)
            let (_, c₃) ← plain (expect .rightParen .afterGrouping c₂)
            .ok (inner, c₃)) := by
  rw [primary]
  simp only [Cursor.next?]
  cases c.take? leaf? with
  | some leaf => rfl
  | none =>
    cases c.take? string? with
    | some first => rfl
    | none =>
      cases c.take? (mark? .leftParen) with
      | none => rfl
      | some opening =>
        refine plain_bind fun inner => ?_
        exact plain_bind fun closing => rfl

/-! ## Declarations -/

theorem plain_baseType (c : Cursor) :
    plain (baseType c) = (
      match c.next? baseType? with
      | some ((base, _), c₁) => .ok (base, c₁)
      | none => c.fail .typeSpecifier) := by
  unfold baseType Cursor.next?
  cases c.take? baseType? <;> rfl

theorem plain_typeSpecifier (c : Cursor) :
    plain (typeSpecifier c) = (
      match c.next? (keyword? .constKw) with
      | some (_, c₁) => do
        let (base, c₂) ← plain (baseType c₁)
        .ok (⟨base, true, 0, []⟩, c₂)
      | none => do
        let (base, c₁) ← plain (baseType c)
        .ok (⟨base, false, 0, []⟩, c₁)) := by
  unfold typeSpecifier Cursor.next?
  cases c.take? (keyword? .constKw) with
  | some word => exact plain_bind fun base => rfl
  | none => exact plain_bind fun base => rfl

theorem plain_dimensions (c : Cursor) :
    plain (dimensions c) = (
      match c.next? (mark? .leftBracket) with
      | none => .ok ([], c)
      | some (_, c₁) =>
        match c₁.next? arraySize? with
        | none => c₁.fail .arraySize
        | some ((size, _), c₂) => do
          let (_, c₃) ← plain (expect .rightBracket .afterArraySize c₂)
          let (sizes, c₄) ← plain (dimensions c₃)
          .ok (size :: sizes, c₄)) := by
  rw [dimensions]
  simp only [Cursor.next?]
  cases c.take? (mark? .leftBracket) with
  | none => rfl
  | some opening =>
    dsimp only [Option.map_some]
    cases opening.cursor.take? arraySize? with
    | none => rfl
    | some size =>
      refine plain_bind fun closing => ?_
      exact plain_bind fun more => rfl

theorem plain_declarator (c : Cursor) :
    plain (declarator c) = (
      match c.next? (mark? .star) with
      | some (_, c₁) => do
        let (d, c₂) ← plain (declarator c₁)
        .ok ({ d with pointers := d.pointers + 1 }, c₂)
      | none =>
        match c.next? identifier? with
        | none => c.fail .identifier
        | some ((name, l), c₁) =>
          match c₁.next? (mark? .leftParen) with
          | some (_, c₂) => do
            let (list, c₃) ← plain (parameterList c₂)
            let (_, c₄) ← plain (expect .rightParen .afterParameters c₃)
            .ok (⟨0, name, l, .parameters list.1 list.2⟩, c₄)
          | none => do
            let (sizes, c₂) ← plain (dimensions c₁)
            .ok (⟨0, name, l, .dimensions sizes⟩, c₂)) := by
  rw [declarator]
  simp only [Cursor.next?]
  cases c.take? (mark? .star) with
  | some star => exact plain_bind fun inner => rfl
  | none =>
    cases c.take? identifier? with
    | none => rfl
    | some name =>
      dsimp only [Option.map_none, Option.map_some]
      cases name.cursor.take? (mark? .leftParen) with
      | some opening =>
        refine plain_bind fun list => ?_
        exact plain_bind fun closing => rfl
      | none => exact plain_bind fun sizes => rfl

theorem plain_parameterList (c : Cursor) :
    plain (parameterList c) = (
      match c.next? (mark? .rightParen) with
      | some _ => .ok (([], false), c)
      | none =>
        match (c.next? (keyword? .voidKw)).filter
            fun word => (word.2.next? (mark? .rightParen)).isSome with
        | some (_, c₁) => .ok (([], false), c₁)
        | none => plain (parameters true c)) := by
  rw [parameterList]
  simp only [Cursor.next?, loneVoid?]
  cases c.take? (mark? .rightParen) with
  | some closing => rfl
  | none =>
    cases c.take? (keyword? .voidKw) with
    | none =>
      refine (plain_bind fun list => rfl).trans ?_
      cases plain (parameters true c) <;> rfl
    | some word =>
      cases h : word.cursor.take? (mark? .rightParen) with
      | some closing =>
        simp only [h, Option.filter_some, Option.map_some, Option.isSome_some, if_true]
        rfl
      | none =>
        simp only [h, Option.filter_some, Option.map_some, Option.map_none, Option.isSome_none,
          Bool.false_eq_true, if_false]
        refine (plain_bind fun list => rfl).trans ?_
        cases plain (parameters true c) <;> rfl

theorem plain_parameters (first : Bool) (c : Cursor) :
    plain (parameters first c) = (
      match c.next? (mark? .ellipsis) with
      | some (_, c₁) => if first then c.fail .unnamedBeforeEllipsis else .ok (([], true), c₁)
      | none => do
        let (p, c₁) ← plain (parameter c)
        match c₁.next? (mark? .comma) with
        | none => .ok (([p], false), c₁)
        | some (_, c₂) =>
          let (list, c₃) ← plain (parameters false c₂)
          .ok ((p :: list.1, list.2), c₃)) := by
  rw [parameters]
  simp only [Cursor.next?]
  cases c.take? (mark? .ellipsis) with
  | some dots => cases first <;> rfl
  | none =>
    refine plain_bind fun p => ?_
    dsimp only
    cases p.cursor.take? (mark? .comma) with
    | none => rfl
    | some comma => exact plain_bind fun more => rfl

theorem plain_parameter (c : Cursor) :
    plain (parameter c) = (do
      let (type, c₁) ← plain (typeSpecifier c)
      let (d, c₂) ← plain (declarator c₁)
      match d.tail with
      | .parameters _ _ => c₂.fail (.functionParameter d.name d.location)
      | .dimensions _ => .ok (⟨d.applyTo type, d.name, d.location⟩, c₂)) := by
  rw [parameter]
  refine plain_bind fun type => ?_
  refine plain_bind fun d => ?_
  dsimp only
  cases d.value.tail <;> rfl

theorem plain_typedHeading (storage : Storage) (c : Cursor) :
    plain (typedHeading storage c) = (do
      let (type, c₁) ← plain (typeSpecifier c)
      let (d, c₂) ← plain (declarator c₁)
      .ok (d.heading storage type, c₂)) := by
  unfold typedHeading
  refine plain_bind fun type => ?_
  exact plain_bind fun d => rfl

theorem plain_heading (c : Cursor) :
    plain (heading c) = (
      match c.next? storage? with
      | some ((storage, _), c₁) => plain (typedHeading storage c₁)
      | none => plain (typedHeading .none c)) := by
  unfold heading Cursor.next?
  cases c.take? storage? with
  | none => rfl
  | some word =>
    refine (plain_bind fun h => rfl).trans ?_
    simp only [Option.map_some]
    cases plain (typedHeading word.value.1 word.cursor) <;> rfl

theorem plain_variableEnd (v : Variable) (c : Cursor) :
    plain (variableEnd v c) = (
      match c.next? (mark? .assign) with
      | some (_, c₁) => do
        let (value, c₂) ← plain (expr c₁)
        let (_, c₃) ← plain (expect .semicolon .afterVariable c₂)
        .ok ({ v with initializer := some value }, c₃)
      | none => do
        let (_, c₁) ← plain (expect .semicolon .afterVariable c)
        .ok (v, c₁)) := by
  unfold variableEnd Cursor.next?
  cases c.take? (mark? .assign) with
  | none => exact plain_bind fun semicolon => rfl
  | some sign =>
    refine plain_bind fun value => ?_
    exact plain_bind fun semicolon => rfl

theorem plain_prototypeEnd (p : Prototype) (c : Cursor) :
    plain (prototypeEnd p c) = (do
      let (_, c₁) ← plain (expect .semicolon .afterPrototype c)
      .ok (p, c₁)) := by
  unfold prototypeEnd
  exact plain_bind fun semicolon => rfl

theorem plain_blockDecl (c : Cursor) :
    plain (blockDecl c) = (do
      let (h, c₁) ← plain (heading c)
      match h with
      | .var v =>
        let (v, c₂) ← plain (variableEnd v c₁)
        .ok (Decl.var v, c₂)
      | .function p =>
        if (c₁.next? (mark? .leftBrace)).isSome then c₁.fail .nestedFunction
        else
          let (p, c₂) ← plain (prototypeEnd p c₁)
          .ok (Decl.function p, c₂)) := by
  unfold blockDecl
  refine plain_bind fun h => ?_
  rcases h with ⟨p | v, c₁, hc⟩
  · simp only [Cursor.next?, Option.isSome_map]
    split
    · rfl
    · exact plain_bind fun p => rfl
  · exact plain_bind fun v => rfl

/-! ## Statements -/

theorem plain_clause (stop : Punctuator) (place : Place) (c : Cursor) :
    plain (clause stop place c) = (
      match c.next? (mark? stop) with
      | some (_, c₁) => .ok (none, c₁)
      | none => do
        let (e, c₁) ← plain (expr c)
        let (_, c₂) ← plain (expect stop place c₁)
        .ok (some e, c₂)) := by
  unfold clause Cursor.next?
  cases c.take? (mark? stop) with
  | some p => rfl
  | none =>
    refine plain_bind fun e => ?_
    exact plain_bind fun p => rfl

theorem plain_condition (word : Keyword) (c : Cursor) :
    plain (condition word c) = (do
      let (_, c₁) ← plain (expect .leftParen (.afterKeyword word) c)
      let (e, c₂) ← plain (expr c₁)
      let (_, c₃) ← plain (expect .rightParen (.afterCondition word) c₂)
      .ok (e, c₃)) := by
  unfold condition
  refine plain_bind fun opening => ?_
  refine plain_bind fun e => ?_
  exact plain_bind fun closing => rfl

theorem plain_forClauses (c : Cursor) :
    plain (forClauses c) = (do
      let (_, c₁) ← plain (expect .leftParen (.afterKeyword .forKw) c)
      let (first, c₂) ← plain (clause .semicolon .afterForFirst c₁)
      let (middle, c₃) ← plain (clause .semicolon .afterForCondition c₂)
      let (step, c₄) ← plain (clause .rightParen .afterForStep c₃)
      .ok (⟨first, middle, step⟩, c₄)) := by
  unfold forClauses
  refine plain_bind fun opening => ?_
  refine plain_bind fun first => ?_
  refine plain_bind fun middle => ?_
  exact plain_bind fun last => rfl

theorem plain_blockDecls (c : Cursor) :
    plain (blockDecls c) = (
      if c.rest.head?.any fun t => startsDeclaration t.kind then do
        let (d, c₁) ← plain (blockDecl c)
        let (ds, c₂) ← plain (blockDecls c₁)
        .ok (d :: ds, c₂)
      else .ok ([], c)) := by
  rw [blockDecls]
  split
  · refine plain_bind fun d => ?_
    exact plain_bind fun more => rfl
  · rfl

theorem plain_stmt (c : Cursor) :
    plain (stmt c) = (
      match c.next? leader? with
      | none => do
        let (e, c₁) ← plain (expr c)
        let (_, c₂) ← plain (expect .semicolon .afterExpression c₁)
        .ok (.expr e c.location, c₂)
      | some ((lead, l), c₁) => plain (ledStmt lead l c₁)) := by
  rw [stmt]
  simp only [Cursor.next?]
  cases c.take? leader? with
  | none =>
    refine plain_bind fun e => ?_
    exact plain_bind fun semicolon => rfl
  | some lead =>
    refine (plain_bind fun s => rfl).trans ?_
    dsimp only [Option.map_some]
    cases plain (ledStmt lead.value.1 lead.value.2 lead.cursor) <;> rfl

theorem plain_ledStmt_block (l : Location) (c : Cursor) :
    plain (ledStmt .block l c) = (do
      let (b, c₁) ← plain (block l c)
      .ok (.block b, c₁)) := by
  rw [ledStmt]
  exact plain_bind fun b => rfl

theorem plain_ledStmt_branch (l : Location) (c : Cursor) :
    plain (ledStmt .branch l c) = (do
      let (e, c₁) ← plain (condition .ifKw c)
      let (b, c₂) ← plain (body .ifKw c₁)
      match c₂.next? (keyword? .elseKw) with
      | none => .ok (.ifThen e b l, c₂)
      | some (_, c₃) =>
        let (a, c₄) ← plain (body .elseKw c₃)
        .ok (.ifElse e b a l, c₄)) := by
  rw [ledStmt]
  refine plain_bind fun e => ?_
  refine plain_bind fun b => ?_
  dsimp only [Cursor.next?]
  cases b.cursor.take? (keyword? .elseKw) with
  | none => rfl
  | some word => exact plain_bind fun a => rfl

theorem plain_ledStmt_whileLoop (l : Location) (c : Cursor) :
    plain (ledStmt .whileLoop l c) = (do
      let (e, c₁) ← plain (condition .whileKw c)
      let (b, c₂) ← plain (body .whileKw c₁)
      .ok (.whileLoop e b l, c₂)) := by
  rw [ledStmt]
  refine plain_bind fun e => ?_
  exact plain_bind fun b => rfl

theorem plain_ledStmt_forLoop (l : Location) (c : Cursor) :
    plain (ledStmt .forLoop l c) = (do
      let (clauses, c₁) ← plain (forClauses c)
      let (b, c₂) ← plain (body .forKw c₁)
      .ok (.forLoop clauses.first clauses.condition clauses.step b l, c₂)) := by
  rw [ledStmt]
  refine plain_bind fun clauses => ?_
  exact plain_bind fun b => rfl

theorem plain_ledStmt_returnStmt (l : Location) (c : Cursor) :
    plain (ledStmt .returnStmt l c) = (do
      let (value, c₁) ← plain (clause .semicolon .afterReturn c)
      .ok (.returnStmt value l, c₁)) := by
  rw [ledStmt]
  exact plain_bind fun value => rfl

theorem plain_ledStmt_jump (kind : Jump) (l : Location) (c : Cursor) :
    plain (ledStmt (.jump kind) l c) = (do
      let (_, c₁) ← plain (expect .semicolon (.afterKeyword kind.keyword) c)
      .ok (.jump kind l, c₁)) := by
  rw [ledStmt]
  exact plain_bind fun semicolon => rfl

theorem plain_body (owner : Keyword) (c : Cursor) :
    plain (body owner c) = (
      match c.next? (mark? .leftBrace) with
      | none => c.fail (.missing .leftBrace (.openBody owner))
      | some ((_, l), c₁) => plain (block l c₁)) := by
  rw [body]
  simp only [Cursor.next?]
  cases c.take? (mark? .leftBrace) with
  | none => rfl
  | some opening =>
    refine (plain_bind fun b => rfl).trans ?_
    dsimp only [Option.map_some]
    cases plain (block opening.value.2 opening.cursor) <;> rfl

theorem plain_block (l : Location) (c : Cursor) :
    plain (block l c) = (do
      let (ds, c₁) ← plain (blockDecls c)
      let (ss, c₂) ← plain (stmts c₁)
      let (_, c₃) ← plain (expect .rightBrace .closeBlock c₂)
      .ok (.mk ds ss l, c₃)) := by
  rw [block]
  refine plain_bind fun ds => ?_
  refine plain_bind fun ss => ?_
  exact plain_bind fun closing => rfl

theorem plain_stmts (c : Cursor) :
    plain (stmts c) = (
      match c.rest.head? with
      | none => .ok ([], c)
      | some t =>
        if t.kind = .punctuator .rightBrace then .ok ([], c)
        else if startsDeclaration t.kind then c.fail .lateDeclaration
        else do
          let (s, c₁) ← plain (stmt c)
          let (ss, c₂) ← plain (stmts c₁)
          .ok (s :: ss, c₂)) := by
  rw [stmts]
  cases c.rest.head? with
  | none => rfl
  | some t =>
    dsimp only
    split
    · rfl
    · split
      · rfl
      · refine plain_bind fun s => ?_
        exact plain_bind fun more => rfl

/-! ## Units -/

theorem plain_external (c : Cursor) :
    plain (external c) = (do
      let (h, c₁) ← plain (heading c)
      match h with
      | .var v =>
        let (v, c₂) ← plain (variableEnd v c₁)
        .ok (External.decl (.var v), c₂)
      | .function p =>
        match c₁.next? (mark? .leftBrace) with
        | none =>
          let (p, c₂) ← plain (prototypeEnd p c₁)
          .ok (External.decl (.function p), c₂)
        | some ((_, l), c₂) =>
          if p.storage = .external then c₁.fail .externBody
          else
            let (b, c₃) ← plain (block l c₂)
            .ok (External.definition p b, c₃)) := by
  unfold external
  refine plain_bind fun h => ?_
  rcases h with ⟨p | v, c₁, hc⟩
  · dsimp only [Cursor.next?]
    cases c₁.take? (mark? .leftBrace) with
    | none => exact plain_bind fun p => rfl
    | some opening =>
      dsimp only [Option.map_some]
      split
      · rfl
      · exact plain_bind fun b => rfl
  · exact plain_bind fun v => rfl

end Parse

theorem Reading.from_eq (c : Cursor) :
    Reading.from c =
      if c.rest.isEmpty then ⟨[], none, c⟩
      else
        match Parse.plain (Parse.external c) with
        | .error f => ⟨[], some f.complaint, f.cursor⟩
        | .ok (d, c₁) =>
          { Reading.from c₁ with decls := d :: (Reading.from c₁).decls } := by
  rw [Reading.from]
  split
  · rfl
  · cases Parse.external c <;> rfl

end CSubset
