-- SUMMARY: The grammar of expressions as derivations over token lists, stated apart from the parser.
import CSubset.Syntax.Expr

/-!
# The grammar of expressions

A derivation of `Assignment i ts e j` says that the tokens `ts`, all of them, form the
expression `e`, and that its nodes are numbered from `i` up to `j`: a node takes the next
number once all tokens and nodes of its parts are complete. The nonterminals are stratified,
from assignments down to primary expressions, with one stratum for each precedence of a
binary operator; what groups to which side is written out in the productions.
-/

namespace CSubset

/-- A punctuator as a token. -/
abbrev Token.ofMark (m : Punctuator) (l : Location) : Token := ⟨.punctuator m, l⟩

/-- A keyword as a token. -/
abbrev Token.ofWord (w : Keyword) (l : Location) : Token := ⟨.keyword w, l⟩

/-! ## Operators as tokens -/

/-- The punctuator that writes a binary operator. -/
def BinaryOp.mark : BinaryOp → Punctuator
  | .arith .add => .plus
  | .arith .sub => .minus
  | .arith .mul => .star
  | .arith .div => .slash
  | .arith .mod => .percent
  | .order .less => .less
  | .order .lessEqual => .lessEqual
  | .order .greater => .greater
  | .order .greaterEqual => .greaterEqual
  | .equal => .equal
  | .notEqual => .notEqual
  | .and => .andAnd
  | .or => .orOr

theorem BinaryOp.precedence_le (op : BinaryOp) : op.precedence ≤ 6 := by
  rcases op with (_ | _ | _ | _ | _) | (_ | _ | _ | _) | _ | _ | _ | _ <;> decide

theorem BinaryOp.precedence_pos (op : BinaryOp) : 0 < op.precedence := by
  rcases op with (_ | _ | _ | _ | _) | (_ | _ | _ | _) | _ | _ | _ | _ <;> decide

/-- The punctuator that writes a unary operator. -/
def UnaryOp.mark : UnaryOp → Punctuator
  | .negate => .minus
  | .plus => .plus
  | .not => .bang
  | .dereference => .star
  | .addressOf => .ampersand

/-- The punctuator that writes an assignment operator. -/
def AssignOp.mark : AssignOp → Punctuator
  | .plain => .assign
  | .compound .add => .plusAssign
  | .compound .sub => .minusAssign
  | .compound .mul => .starAssign
  | .compound .div => .slashAssign
  | .compound .mod => .percentAssign

namespace Grammar

/-- The binary operators of a stratum, from the loosest, 1, to the tightest, 6. -/
def stratum : Nat → List BinaryOp
  | 1 => [.or]
  | 2 => [.and]
  | 3 => [.equal, .notEqual]
  | 4 => [.order .less, .order .lessEqual, .order .greater, .order .greaterEqual]
  | 5 => [.arith .add, .arith .sub]
  | 6 => [.arith .mul, .arith .div, .arith .mod]
  | _ => []

theorem mem_stratum {op : BinaryOp} {p : Nat} : op ∈ stratum p ↔ op.precedence = p := by
  constructor
  · intro h
    unfold stratum at h
    split at h <;> simp only [List.mem_cons, List.not_mem_nil, or_false] at h <;>
      grind [BinaryOp.precedence]
  · rintro rfl
    rcases op with (_ | _ | _ | _ | _) | (_ | _ | _ | _) | _ | _ | _ | _ <;>
      simp [stratum, BinaryOp.precedence]

/-! ## Productions -/

/-- String literals that stand one behind the other, perhaps none, and their joined text. -/
inductive Strings : List Token → String → Prop where
  | nil : Strings [] ""
  | cons {ts : List Token} {s s' : String} {l : Location} (h : Strings ts s') :
      Strings (⟨.stringLiteral s, l⟩ :: ts) (s ++ s')

mutual

/-- Assignments, which group to the right. -/
inductive Assignment : Nat → List Token → Expr → Nat → Prop where
  | operand {i j : Nat} {ts : List Token} {e : Expr} (h : Binary 1 i ts e j) : Assignment i ts e j
  | assign {i j k : Nat} {ts us : List Token} {op : AssignOp} {l : Location} {target value : Expr}
      (ht : Binary 1 i ts target j) (hv : Assignment j us value k) :
      Assignment i (ts ++ .ofMark op.mark l :: us) (.assign ⟨k, l⟩ op target value) (k + 1)

/-- Binary expressions of a stratum, which group to the left; the stratum behind the last one
is that of the unary expressions. -/
inductive Binary : Nat → Nat → List Token → Expr → Nat → Prop where
  | operand {i j : Nat} {ts : List Token} {e : Expr} (h : Unary i ts e j) : Binary 7 i ts e j
  | tighter {p i j : Nat} {ts : List Token} {e : Expr} (h : Binary (p + 1) i ts e j) :
      Binary p i ts e j
  | operator {p i j k : Nat} {ts us : List Token} {op : BinaryOp} {l : Location}
      {left right : Expr} (hop : op ∈ stratum p) (hl : Binary p i ts left j)
      (hr : Binary (p + 1) j us right k) :
      Binary p i (ts ++ .ofMark op.mark l :: us) (.binary ⟨k, l⟩ op left right) (k + 1)

/-- Expressions with any number of unary operators in front. -/
inductive Unary : Nat → List Token → Expr → Nat → Prop where
  | operand {i j : Nat} {ts : List Token} {e : Expr} (h : Suffixed i ts e j) : Unary i ts e j
  | operator {i j : Nat} {ts : List Token} {op : UnaryOp} {l : Location} {e : Expr}
      (h : Unary i ts e j) : Unary i (.ofMark op.mark l :: ts) (.unary ⟨j, l⟩ op e) (j + 1)

/-- Primary expressions with any number of calls and subscripts behind. -/
inductive Suffixed : Nat → List Token → Expr → Nat → Prop where
  | primary {i j : Nat} {ts : List Token} {e : Expr} (h : Primary i ts e j) : Suffixed i ts e j
  | call {i j k : Nat} {ts us : List Token} {l l' : Location} {callee : Expr} {args : List Expr}
      (hc : Suffixed i ts callee j) (ha : Arguments j us args k) :
      Suffixed i (ts ++ .ofMark .leftParen l :: (us ++ [.ofMark .rightParen l']))
        (.call ⟨k, l⟩ callee args) (k + 1)
  | index {i j k : Nat} {ts us : List Token} {l l' : Location} {base subscript : Expr}
      (hb : Suffixed i ts base j) (hs : Assignment j us subscript k) :
      Suffixed i (ts ++ .ofMark .leftBracket l :: (us ++ [.ofMark .rightBracket l']))
        (.index ⟨k, l⟩ base subscript) (k + 1)

/-- The arguments of a call, perhaps none. -/
inductive Arguments : Nat → List Token → List Expr → Nat → Prop where
  | none {i : Nat} : Arguments i [] [] i
  | some {i j : Nat} {ts : List Token} {es : List Expr} (h : ArgumentList i ts es j) :
      Arguments i ts es j

/-- One or more arguments with commas between them. -/
inductive ArgumentList : Nat → List Token → List Expr → Nat → Prop where
  | last {i j : Nat} {ts : List Token} {e : Expr} (h : Assignment i ts e j) :
      ArgumentList i ts [e] j
  | more {i j k : Nat} {ts us : List Token} {l : Location} {e : Expr} {es : List Expr}
      (h : Assignment i ts e j) (hs : ArgumentList j us es k) :
      ArgumentList i (ts ++ .ofMark .comma l :: us) (e :: es) k

/-- Literals, identifiers and expressions in parentheses. -/
inductive Primary : Nat → List Token → Expr → Nat → Prop where
  | int {i : Nat} {n : Int} {l : Location} :
      Primary i [⟨.intLiteral n, l⟩] (.literal ⟨i, l⟩ (.int n)) (i + 1)
  | float {i : Nat} {x : Binary64} {l : Location} :
      Primary i [⟨.floatLiteral x, l⟩] (.literal ⟨i, l⟩ (.float x)) (i + 1)
  | char {i : Nat} {c : Char} {l : Location} :
      Primary i [⟨.charLiteral c, l⟩] (.literal ⟨i, l⟩ (.char c)) (i + 1)
  | string {i : Nat} {ts : List Token} {s s' : String} {l : Location} (h : Strings ts s') :
      Primary i (⟨.stringLiteral s, l⟩ :: ts) (.literal ⟨i, l⟩ (.string (s ++ s'))) (i + 1)
  | ident {i : Nat} {name : String} {l : Location} :
      Primary i [⟨.identifier name, l⟩] (.ident ⟨i, l⟩ name) (i + 1)
  | group {i j : Nat} {ts : List Token} {l l' : Location} {e : Expr} (h : Assignment i ts e j) :
      Primary i (.ofMark .leftParen l :: (ts ++ [.ofMark .rightParen l'])) e j

end

/-- A stratum holds the expressions of every tighter one. -/
theorem Binary.loosen {p i j : Nat} {ts : List Token} {e : Expr} (d : Nat)
    (h : Binary (p + d) i ts e j) : Binary p i ts e j := by
  induction d generalizing p with
  | zero => exact h
  | succ d ih => exact .tighter (ih (by rwa [Nat.add_right_comm, Nat.add_assoc]))

theorem Binary.mono {p q i j : Nat} {ts : List Token} {e : Expr} (h : Binary q i ts e j)
    (hpq : p ≤ q) : Binary p i ts e j := by
  obtain ⟨d, rfl⟩ := Nat.exists_eq_add_of_le hpq
  exact h.loosen d

/-! ## First tokens -/

/-- The kinds of tokens that an expression can begin with. -/
def startsExpr : Token.Kind → Bool
  | .keyword _ => false
  | .punctuator m => m ∈ [.leftParen, .minus, .plus, .bang, .star, .ampersand]
  | _ => true

/-- A list of tokens that begins like an expression. -/
def BeginsExpr (ts : List Token) : Prop := ∃ t us, ts = t :: us ∧ startsExpr t.kind = true

theorem BeginsExpr.append {ts : List Token} (h : BeginsExpr ts) (us : List Token) :
    BeginsExpr (ts ++ us) := by
  obtain ⟨t, ts', rfl, ht⟩ := h
  exact ⟨t, ts' ++ us, rfl, ht⟩

theorem startsExpr_unaryOp (op : UnaryOp) : startsExpr (.punctuator op.mark) = true := by
  cases op <;> rfl

mutual

theorem Assignment.begins {i j : Nat} {ts : List Token} {e : Expr} :
    Assignment i ts e j → BeginsExpr ts
  | .operand h => h.begins
  | .assign ht _ => ht.begins.append _

theorem Binary.begins {p i j : Nat} {ts : List Token} {e : Expr} :
    Binary p i ts e j → BeginsExpr ts
  | .operand h => h.begins
  | .tighter h => h.begins
  | .operator _ hl _ => hl.begins.append _

theorem Unary.begins {i j : Nat} {ts : List Token} {e : Expr} : Unary i ts e j → BeginsExpr ts
  | .operand h => h.begins
  | .operator _ => ⟨_, _, rfl, startsExpr_unaryOp _⟩

theorem Suffixed.begins {i j : Nat} {ts : List Token} {e : Expr} :
    Suffixed i ts e j → BeginsExpr ts
  | .primary h => h.begins
  | .call hc _ => hc.begins.append _
  | .index hb _ => hb.begins.append _

theorem Primary.begins {i j : Nat} {ts : List Token} {e : Expr} :
    Primary i ts e j → BeginsExpr ts
  | .int => ⟨_, _, rfl, rfl⟩
  | .float => ⟨_, _, rfl, rfl⟩
  | .char => ⟨_, _, rfl, rfl⟩
  | .string _ => ⟨_, _, rfl, rfl⟩
  | .ident => ⟨_, _, rfl, rfl⟩
  | .group _ => ⟨_, _, rfl, rfl⟩

end

theorem ArgumentList.begins {i j : Nat} {ts : List Token} {es : List Expr}
    (h : ArgumentList i ts es j) : BeginsExpr ts := by
  cases h with
  | last h => exact h.begins
  | more h _ => exact h.begins.append _

end Grammar

end CSubset
