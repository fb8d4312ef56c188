-- SUMMARY: The prefix form of an expression is that of no other one, up to node numbers and positions.
import CSubset.Proofs.Binary64.Text
import CSubset.Proofs.Relabeling.Check
import CSubset.Proofs.Syntax.Nodes
import CSubset.Proofs.Token.Display

/-!
# Reading prefix forms

The first character of a prefix form tells a composite, a text, a character, a number and a name
apart, and a prefix form ends where its parts end, whatever follows that begins with a blank or a
closing parenthesis. The word at the head of a composite together with the number of its parts tells
what it is: signs are shared by operators of one and of two operands only. `read_unique` puts this
together, by induction on the expression.
-/

namespace CSubset

open Text

/-! ## Composites -/

/-- What a composite expression is, apart from its parts. -/
inductive Construct where
  | unary (op : UnaryOp)
  | binary (op : BinaryOp)
  | assign (op : AssignOp)
  | call
  | index
deriving DecidableEq, Repr

namespace Construct

/-- The word at the head of the prefix form. -/
def word : Construct → String
  | unary op => op.symbol
  | binary op => op.symbol
  | assign op => op.symbol
  | call => "call"
  | index => "index"

/-- The number of parts; a call can have any. -/
def arity? : Construct → Option Nat
  | unary _ => some 1
  | binary _ => some 2
  | assign _ => some 2
  | call => none
  | index => some 2

/-- All constructs. -/
def all : List Construct :=
  [.negate, .plus, .not, .dereference, .addressOf].map unary ++ BinaryOp.all.map binary ++
    [.plain, .compound .add, .compound .sub, .compound .mul, .compound .div, .compound .mod].map
      assign ++ [call, index]

theorem mem_all (x : Construct) : x ∈ all := by
  rcases x with (_ | _ | _ | _ | _) | ((_ | _ | _ | _ | _) | (_ | _ | _ | _) | _ | _ | _ | _) |
    (_ | (_ | _ | _ | _ | _)) | _ | _ <;> decide

/-- Constructs with one word differ in the number of their parts. -/
theorem eq_of_word {x y : Construct} (hword : x.word = y.word) (harity : x.arity? = y.arity?) :
    x = y := by
  have hall : ∀ x ∈ all, ∀ y ∈ all, x.word = y.word → x.arity? = y.arity? → x = y := by
    decide +kernel
  exact hall x x.mem_all y y.mem_all hword harity

/-- No operator is written like a call. -/
theorem arity?_eq_none {x y : Construct} (hword : x.word = y.word) (harity : x.arity? = none) :
    y.arity? = none := by
  have hall : ∀ x ∈ all, ∀ y ∈ all, x.word = y.word → x.arity? = none → y.arity? = none := by
    decide +kernel
  exact hall x x.mem_all y y.mem_all hword harity

theorem blank_not_mem_word (x : Construct) : ∀ c ∈ x.word.toList, decide (c ≠ ' ') = true := by
  have hall : ∀ x ∈ all, x.word.toList.all (· ≠ ' ') = true := by decide +kernel
  exact List.all_eq_true.mp (hall x x.mem_all)

end Construct

namespace Expr

/-- What a composite is; literals and identifiers are none. -/
def construct? : Expr → Option Construct
  | literal _ _ => none
  | ident _ _ => none
  | unary _ op _ => some (.unary op)
  | binary _ op _ _ => some (.binary op)
  | assign _ op _ _ => some (.assign op)
  | call _ _ _ => some .call
  | index _ _ _ => some .index

variable {e d : Expr} {x y : Construct}

theorem children_ne_nil (h : e.construct? = some x) : e.children ≠ [] := by
  cases e <;> cases h <;> exact List.cons_ne_nil _ _

/-- A construct with a number of parts has that many. -/
theorem arity?_length (h : e.construct? = some x) {n : Nat} (hn : x.arity? = some n) :
    e.children.length = n := by
  cases e <;> cases h <;> cases hn <;> rfl

/-- Composites with one word and equally many parts are of one construct. -/
theorem construct_unique (he : e.construct? = some x) (hd : d.construct? = some y)
    (hword : x.word = y.word) (hlength : e.children.length = d.children.length) : x = y := by
  refine Construct.eq_of_word hword ?_
  cases hx : x.arity? with
  | none => exact (Construct.arity?_eq_none hword hx).symm
  | some n =>
    cases hy : y.arity? with
    | none => exact hx.symm.trans (Construct.arity?_eq_none hword.symm hy)
    | some k => rw [← arity?_length he hx, ← arity?_length hd hy, hlength]

theorem relabelAll_eq_map (r : Relabeling) (es : List Expr) :
    relabelAll r es = es.map (relabel r) := by
  induction es with
  | nil => rfl
  | cons e rest ih => rw [relabelAll, ih, List.map_cons]

/-- A composite is made of what it is and of its parts. -/
theorem relabel_bare_eq (he : e.construct? = some x) (hd : d.construct? = some x)
    (hparts : e.children.map (relabel .bare) = d.children.map (relabel .bare)) :
    e.relabel .bare = d.relabel .bare := by
  cases e <;> cases he <;> cases d <;> cases hd <;>
    simp_all [children, relabel, relabelAll_eq_map, Anchor.relabel, Relabeling.bare]

/-! ## Characters of prefix forms -/

theorem toList_textArguments (es : List Expr) :
    (textArguments es).toList = es.flatMap fun e => ' ' :: e.text.toList := by
  induction es with
  | nil => rfl
  | cons e rest ih =>
    rw [textArguments, String.toList_append, String.toList_append, ih, List.flatMap_cons]
    rfl

/-- A composite is written as its word and its parts, each behind a blank, in parentheses. -/
theorem toList_text (h : e.construct? = some x) :
    e.text.toList = '(' :: (x.word.toList ++
      ((e.children.flatMap fun c => ' ' :: c.text.toList) ++ [')'])) := by
  cases e <;> cases h <;>
    simp [text, Construct.word, children, String.toList_append, toList_textArguments]

/-! ## Literals and identifiers -/

/-- The name of an identifier is a word, and a float is finite. -/
def Lexical : Expr → Prop
  | ident _ name => IsWord name.toList
  | literal _ (.float value) => ∃ negative m, value = .finite negative m
  | _ => True

end Expr

/-- What the first character of a prefix form tells about it. -/
inductive Opener where
  | composite | string | char | word | number
deriving DecidableEq, Repr

/-- What a first character tells. -/
def Opener.of (c : Char) : Opener :=
  if c = '(' then composite
  else if c = '"' then string
  else if c = '\'' then char
  else if Segment.isWordStart c then word
  else number

theorem Opener.of_isDigit {c : Char} (hc : c.isDigit = true) : of c = number := by
  have hne (d : Char) (hd : d.isDigit = false) : c ≠ d := Binary64.ne_of_isDigit d hd hc
  rw [of, if_neg (hne _ rfl), if_neg (hne _ rfl), if_neg (hne _ rfl),
    if_neg (by rw [isWordStart_of_isDigit hc]; decide)]

theorem Opener.of_isWordStart {c : Char} (hc : Segment.isWordStart c = true) : of c = word := by
  have hne (d : Char) (hd : Segment.isWordStart d = false) : c ≠ d := by
    rintro rfl
    cases hd.symm.trans hc
  rw [of, if_neg (hne _ rfl), if_neg (hne _ rfl), if_neg (hne _ rfl), if_pos hc]

/-- A character of a number or a name: one that does not end it. -/
def isInner (c : Char) : Bool := c ≠ ' ' && c ≠ ')'

theorem isInner_of {p : Char → Bool} (hblank : p ' ' = false) (hclose : p ')' = false) {c : Char}
    (hc : p c = true) : isInner c = true := by
  have hne : c ≠ ' ' ∧ c ≠ ')' := by
    constructor <;> rintro rfl
    · cases hblank.symm.trans hc
    · cases hclose.symm.trans hc
  rw [isInner, decide_eq_true hne.1, decide_eq_true hne.2]
  rfl

/-- An integer is written in digits, behind a sign if it is negative. -/
theorem toList_int (n : Int) :
    n.repr.toList = (if n < 0 then ['-'] else []) ++ Nat.toDigits 10 n.natAbs := by
  rw [Int.repr_eq_if]
  split
  · next hpos =>
    have habs : n.toNat = n.natAbs := by omega
    rw [if_neg (Int.not_lt.mpr hpos), Nat.repr_eq_ofList_toDigits, String.toList_ofList, habs,
      List.nil_append]
  · next hneg =>
    have habs : (-n).toNat = n.natAbs := by omega
    rw [if_pos (Int.not_le.mp hneg), String.toList_append, Nat.repr_eq_ofList_toDigits, habs]
    exact congrArg ('-' :: ·) String.toList_ofList

theorem isDigit_of_mem_natAbs {n : Int} {c : Char} (hc : c ∈ Nat.toDigits 10 n.natAbs) :
    c.isDigit = true :=
  Nat.isDigit_of_mem_toDigits (by decide) (by decide) hc

theorem mem_int {n : Int} {c : Char} (hc : c ∈ n.repr.toList) : c = '-' ∨ c.isDigit = true := by
  rw [toList_int] at hc
  refine (List.mem_append.mp hc).imp (fun hsign => ?_) isDigit_of_mem_natAbs
  split at hsign
  · exact List.mem_singleton.mp hsign
  · cases hsign

/-- Different integers are written differently. -/
theorem int_injective {m n : Int} (h : m.repr = n.repr) : m = n := by
  rw [← Binary64.powerValue_sign m, ← Binary64.powerValue_sign n, ← toList_int, ← toList_int, h]

namespace Expr

variable {e d : Expr} {x : Construct}

/-- What an expression is, as its first character tells. -/
def opener : Expr → Opener
  | literal _ (.int _) => .number
  | literal _ (.float _) => .number
  | literal _ (.char _) => .char
  | literal _ (.string _) => .string
  | ident _ _ => .word
  | _ => .composite

theorem opener_of_construct (h : e.construct? = some x) : e.opener = .composite := by
  cases e <;> cases h <;> rfl

theorem construct_of_opener (h : e.opener = .composite) : ∃ x, e.construct? = some x := by
  cases e with
  | literal a value => cases value <;> cases h
  | ident a name => cases h
  | _ => exact ⟨_, rfl⟩

theorem of_opener_char (h : e.opener = .char) : ∃ a c, e = literal a (.char c) := by
  cases e with
  | literal a value =>
    cases value with
    | char c => exact ⟨a, c, rfl⟩
    | _ => cases h
  | _ => cases h

theorem of_opener_string (h : e.opener = .string) : ∃ a s, e = literal a (.string s) := by
  cases e with
  | literal a value =>
    cases value with
    | string s => exact ⟨a, s, rfl⟩
    | _ => cases h
  | _ => cases h

theorem of_opener_word (h : e.opener = .word) : ∃ a name, e = ident a name := by
  cases e with
  | literal a value => cases value <;> cases h
  | ident a name => exact ⟨a, name, rfl⟩
  | _ => cases h

theorem of_opener_number (he : e.Lexical) (h : e.opener = .number) :
    (∃ a n, e = literal a (.int n)) ∨
      ∃ a negative m, e = literal a (.float (.finite negative m)) := by
  cases e with
  | literal a value =>
    cases value with
    | int n => exact .inl ⟨a, n, rfl⟩
    | float value =>
      obtain ⟨negative, m, rfl⟩ := he
      exact .inr ⟨a, negative, m, rfl⟩
    | _ => cases h
  | _ => cases h

theorem int_begins (n : Int) : ∃ c rest, n.repr.toList = c :: rest ∧ Opener.of c = .number := by
  rw [toList_int]
  split
  · exact ⟨'-', _, List.singleton_append, by decide⟩
  · obtain ⟨c, rest, hdigits⟩ := List.exists_cons_of_ne_nil
      (Nat.toDigits_ne_nil (n := n.natAbs) (b := 10))
    have hc : c ∈ Nat.toDigits 10 n.natAbs := hdigits ▸ List.mem_cons_self
    exact ⟨c, rest, hdigits, Opener.of_isDigit (isDigit_of_mem_natAbs hc)⟩

theorem float_begins (negative : Bool) (m : Binary64.Magnitude) :
    ∃ c rest, (Binary64.finite negative m).text.toList = c :: rest ∧ Opener.of c = .number := by
  obtain ⟨c, rest, hm, hc⟩ := m.text_begins
  rw [Binary64.text, String.toList_ofList, hm]
  cases negative with
  | false => exact ⟨c, rest, rfl, Opener.of_isDigit hc⟩
  | true => exact ⟨'-', c :: rest, rfl, by decide⟩

theorem text_begins (he : e.Lexical) :
    ∃ c rest, e.text.toList = c :: rest ∧ Opener.of c = e.opener := by
  cases hx : e.construct? with
  | some x => exact ⟨'(', _, toList_text hx, (opener_of_construct hx).symm⟩
  | none =>
    cases e with
    | literal a value =>
      cases value with
      | int n => exact int_begins n
      | float value =>
        obtain ⟨negative, m, rfl⟩ := he
        exact float_begins negative m
      | char c => exact ⟨'\'', _, toList_text_char c, rfl⟩
      | string s => exact ⟨'"', _, toList_text_string s, rfl⟩
    | ident a name =>
      obtain ⟨c, rest, hname, hc, -⟩ := he
      exact ⟨c, rest, hname, Opener.of_isWordStart hc⟩
    | _ => cases hx

/-- Prefix forms that begin alike are of one kind. -/
theorem opener_unique (he : e.Lexical) (hd : d.Lexical) {rest rest' : List Char}
    (h : e.text.toList ++ rest = d.text.toList ++ rest') : e.opener = d.opener := by
  obtain ⟨c, w, hw, hc⟩ := text_begins he
  obtain ⟨c', w', hw', hc'⟩ := text_begins hd
  rw [hw, hw'] at h
  rw [← hc, ← hc', (List.cons.inj h).1]

/-- Numbers and names are written without blanks and parentheses. -/
theorem isInner_text (he : e.Lexical) (hbare : e.opener = .number ∨ e.opener = .word) :
    ∀ c ∈ e.text.toList, isInner c = true := by
  intro c hc
  rcases hbare with hnumber | hword
  · obtain ⟨a, n, rfl⟩ | ⟨a, negative, m, rfl⟩ := of_opener_number he hnumber
    · rcases mem_int hc with rfl | hdigit
      · rfl
      · exact isInner_of rfl rfl hdigit
    · exact isInner_of (by decide) (by decide)
        (Binary64.isFigure_of_mem_text_finite negative m c hc)
  · obtain ⟨a, name, rfl⟩ := of_opener_word hword
    obtain ⟨first, rest, hname, hfirst, hrest⟩ := he
    have hchars : ∀ c ∈ first :: rest, Segment.isWordRest c = true :=
      List.forall_mem_cons.mpr ⟨isWordRest_of_isWordStart hfirst, hrest⟩
    exact isInner_of (by decide) (by decide) (hchars c (hname ▸ hc))

/-- An integer is written without the marks of a float. -/
theorem int_ne_float (n : Int) (negative : Bool) (m : Binary64.Magnitude) :
    n.repr ≠ (Binary64.finite negative m).text := by
  intro h
  have hmarked : '.' ∈ n.repr.toList ∨ 'e' ∈ n.repr.toList := by
    rw [h, Binary64.text, String.toList_ofList]
    exact m.text_marked.imp (List.mem_append_right _) (List.mem_append_right _)
  rcases hmarked with hmark | hmark <;> rcases mem_int hmark with h | h <;> cases h

/-- Different numbers and names are written differently. -/
theorem relabel_bare_of_text (he : e.Lexical) (hd : d.Lexical) (hopener : d.opener = e.opener)
    (hbare : e.opener = .number ∨ e.opener = .word) (h : e.text = d.text) :
    e.relabel .bare = d.relabel .bare := by
  rcases hbare with hnumber | hword
  · obtain ⟨a, n, rfl⟩ | ⟨a, negative, m, rfl⟩ := of_opener_number he hnumber <;>
      obtain ⟨b, n', rfl⟩ | ⟨b, negative', m', rfl⟩ :=
        of_opener_number hd (hopener.trans hnumber)
    · exact congrArg (fun n => literal _ (.int n)) (int_injective h)
    · exact absurd h (int_ne_float n negative' m')
    · exact absurd h.symm (int_ne_float n' negative m)
    · exact congrArg (fun x => literal _ (.float x)) (Binary64.text_finite_injective h)
  · obtain ⟨a, name, rfl⟩ := of_opener_word hword
    obtain ⟨b, name', rfl⟩ := of_opener_word (hopener.trans hword)
    exact congrArg (ident _) h

/-! ## Whole expressions -/

/-- What can follow a prefix form. -/
def Ends (rest : List Char) : Prop := ∀ c ∈ rest.head?, isInner c = false

/-- A prefix form can be told from what it is in front of, and so can the expression from it. -/
def ReadOnce (e : Expr) : Prop :=
  ∀ d : Expr, (∀ x ∈ d.nodes, x.Lexical) → ∀ rest rest', Ends rest → Ends rest' →
    e.text.toList ++ rest = d.text.toList ++ rest' →
      e.relabel .bare = d.relabel .bare ∧ rest = rest'

theorem lexical_self (he : ∀ x ∈ e.nodes, x.Lexical) : e.Lexical := he e e.self_mem_nodes

theorem lexical_children (he : ∀ x ∈ e.nodes, x.Lexical) :
    ∀ c ∈ e.children, ∀ x ∈ c.nodes, x.Lexical := by
  intro c hc x hx
  rw [nodes_eq] at he
  exact he x (List.mem_append_left _ (List.mem_flatMap.mpr ⟨c, hc, hx⟩))

/-- Parts one behind the other, each behind a blank, are read one after the other. -/
theorem parts_unique {es ds : List Expr} (hes : ∀ e ∈ es, ReadOnce e)
    (hds : ∀ d ∈ ds, ∀ x ∈ d.nodes, x.Lexical) {rest rest' : List Char}
    (h : (es.flatMap fun e => ' ' :: e.text.toList) ++ ')' :: rest =
      (ds.flatMap fun d => ' ' :: d.text.toList) ++ ')' :: rest') :
    es.map (relabel .bare) = ds.map (relabel .bare) ∧ rest = rest' := by
  have hends (cs : List Expr) (rest : List Char) :
      Ends ((cs.flatMap fun e => ' ' :: e.text.toList) ++ ')' :: rest) := by
    intro c hc
    cases cs <;> cases hc <;> rfl
  induction es generalizing ds with
  | nil =>
    cases ds with
    | nil => exact ⟨rfl, (List.cons.inj h).2⟩
    | cons d ds => cases (List.cons.inj h).1
  | cons e es ih =>
    cases ds with
    | nil => cases (List.cons.inj h).1
    | cons d ds =>
      obtain ⟨he, hes⟩ := List.forall_mem_cons.mp hes
      obtain ⟨hd, hds⟩ := List.forall_mem_cons.mp hds
      rw [List.flatMap_cons, List.flatMap_cons, List.append_assoc, List.append_assoc] at h
      obtain ⟨hfirst, hbehind⟩ :=
        he d hd _ _ (hends es rest) (hends ds rest') (List.cons.inj h).2
      obtain ⟨hothers, hrest⟩ := ih hes hds hbehind
      exact ⟨by rw [List.map_cons, List.map_cons, hfirst, hothers], hrest⟩

/-- Composites are read as one construct of the same parts. -/
theorem composite_unique {y : Construct} (hx : e.construct? = some x) (hy : d.construct? = some y)
    (hes : ∀ c ∈ e.children, ReadOnce c) (hds : ∀ c ∈ d.children, ∀ x ∈ c.nodes, x.Lexical)
    {rest rest' : List Char} (h : e.text.toList ++ rest = d.text.toList ++ rest') :
    e.relabel .bare = d.relabel .bare ∧ rest = rest' := by
  have hblank (e : Expr) {x : Construct} (hx : e.construct? = some x) (rest : List Char) :
      ∀ c ∈ ((e.children.flatMap fun c => ' ' :: c.text.toList) ++ ([')'] ++ rest)).head?,
        decide (c ≠ ' ') = false := by
    obtain ⟨first, others, hchildren⟩ := List.exists_cons_of_ne_nil (children_ne_nil hx)
    intro c hc
    rw [hchildren] at hc
    cases hc
    rfl
  rw [toList_text hx, toList_text hy] at h
  simp only [List.cons_append, List.append_assoc, List.cons.injEq, true_and] at h
  obtain ⟨hword, hparts⟩ := run_unique x.blank_not_mem_word y.blank_not_mem_word
    (hblank e hx rest) (hblank d hy rest') h
  obtain ⟨hchildren, hrest⟩ := parts_unique hes hds hparts
  have hlength : e.children.length = d.children.length := by
    have hlengths := congrArg List.length hchildren
    rwa [List.length_map, List.length_map] at hlengths
  obtain rfl := construct_unique hx hy (String.toList_inj.mp hword) hlength
  exact ⟨relabel_bare_eq hx hy hchildren, hrest⟩

/-- Numbers and names are read up to what cannot stand in them. -/
theorem bare_unique (he : e.Lexical) (hd : d.Lexical) (hopener : d.opener = e.opener)
    (hbare : e.opener = .number ∨ e.opener = .word) {rest rest' : List Char} (hrest : Ends rest)
    (hrest' : Ends rest') (h : e.text.toList ++ rest = d.text.toList ++ rest') :
    e.relabel .bare = d.relabel .bare ∧ rest = rest' := by
  obtain ⟨htext, hbehind⟩ := run_unique (isInner_text he hbare)
    (isInner_text hd (hopener.symm ▸ hbare)) hrest hrest' h
  exact ⟨relabel_bare_of_text he hd hopener hbare (String.toList_inj.mp htext), hbehind⟩

theorem char_unique (he : e.opener = .char) (hd : d.opener = .char) {rest rest' : List Char}
    (h : e.text.toList ++ rest = d.text.toList ++ rest') :
    e.relabel .bare = d.relabel .bare ∧ rest = rest' := by
  obtain ⟨a, c, rfl⟩ := of_opener_char he
  obtain ⟨b, c', rfl⟩ := of_opener_char hd
  have hspelling (a : Anchor) (c : Char) :
      (literal a (.char c)).text.toList = '\'' :: ([c].flatMap escapeChar ++ ['\'']) := by
    rw [List.flatMap_singleton]
    exact toList_text_char c
  rw [hspelling, hspelling] at h
  obtain ⟨hc, hbehind⟩ := quoted_unique (.inl rfl) h
  obtain rfl := List.singleton_inj.mp hc
  exact ⟨rfl, hbehind⟩

theorem string_unique (he : e.opener = .string) (hd : d.opener = .string)
    {rest rest' : List Char} (h : e.text.toList ++ rest = d.text.toList ++ rest') :
    e.relabel .bare = d.relabel .bare ∧ rest = rest' := by
  obtain ⟨a, s, rfl⟩ := of_opener_string he
  obtain ⟨b, s', rfl⟩ := of_opener_string hd
  have hspelling (a : Anchor) (s : String) :
      (literal a (.string s)).text.toList = '"' :: (s.toList.flatMap escapeChar ++ ['"']) :=
    toList_text_string s
  rw [hspelling, hspelling] at h
  obtain ⟨hs, hbehind⟩ := quoted_unique (.inr rfl) h
  obtain rfl := String.toList_inj.mp hs
  exact ⟨rfl, hbehind⟩

/-- Every expression is read once. -/
theorem read_unique (e : Expr) (he : ∀ x ∈ e.nodes, x.Lexical) : e.ReadOnce := by
  induction e using children_induction with
  | step e ih =>
    intro d hd rest rest' hrest hrest' h
    have he' := lexical_self he
    have hd' := lexical_self hd
    have hopener := opener_unique hd' he' h.symm
    cases hkind : e.opener with
    | composite =>
      obtain ⟨x, hx⟩ := construct_of_opener hkind
      obtain ⟨y, hy⟩ := construct_of_opener (hopener.trans hkind)
      exact composite_unique hx hy (fun c hc => ih c hc (lexical_children he c hc))
        (lexical_children hd) h
    | string => exact string_unique hkind (hopener.trans hkind) h
    | char => exact char_unique hkind (hopener.trans hkind) h
    | word => exact bare_unique he' hd' hopener (.inr hkind) hrest hrest' h
    | number => exact bare_unique he' hd' hopener (.inl hkind) hrest hrest' h

/-- Expressions whose names are words and whose floats are finite are written alike just when they
differ in nothing but node numbers and positions. -/
theorem text_eq_iff_relabel_bare (e d : Expr) (he : ∀ x ∈ e.nodes, x.Lexical)
    (hd : ∀ x ∈ d.nodes, x.Lexical) : e.text = d.text ↔ e.relabel .bare = d.relabel .bare := by
  constructor
  · intro h
    have hends : Ends [] := fun c hc => by cases hc
    exact (read_unique e he d hd [] [] hends hends (by rw [h])).1
  · intro h
    rw [← text_relabel (r := .bare) e, h, text_relabel]

/-- A call of `f` with a negation, a negative number and a text, all parts with one anchor. -/
def negativeCall (a : Anchor) : Expr :=
  .call a (.ident a "f") [.unary a .negate (.literal a (.float (.finite false .zero))),
    .literal a (.float (.finite true .zero)), .literal a (.string "\") ("), .ident a "call"]

theorem text_eq_iff_relabel_bare_negativeCall :
    (∀ x ∈ (negativeCall ⟨4, ⟨1, 1⟩⟩).nodes, x.Lexical) ∧
      (∀ x ∈ (negativeCall ⟨9, ⟨2, 7⟩⟩).nodes, x.Lexical) ∧
      (negativeCall ⟨4, ⟨1, 1⟩⟩).text = "(call f (- 0.0) -0.0 \"\\\") (\" call)" ∧
      (negativeCall ⟨9, ⟨2, 7⟩⟩).text = "(call f (- 0.0) -0.0 \"\\\") (\" call)" ∧
      (negativeCall ⟨4, ⟨1, 1⟩⟩).relabel .bare = (negativeCall ⟨9, ⟨2, 7⟩⟩).relabel .bare := by
  have hlexical (a : Anchor) : ∀ x ∈ (negativeCall a).nodes, x.Lexical := by
    have hf : IsWord "f".toList := ⟨'f', [], rfl, rfl, List.forall_mem_nil _⟩
    have hcall : IsWord "call".toList := ⟨'c', ['a', 'l', 'l'], rfl, rfl, List.all_eq_true.mp rfl⟩
    simp only [negativeCall, nodes, nodesAll, List.cons_append, List.nil_append,
      List.forall_mem_cons]
    exact ⟨hf, ⟨false, .zero, rfl⟩, trivial, ⟨true, .zero, rfl⟩, trivial, hcall, trivial,
      List.forall_mem_nil _⟩
  have htext (a : Anchor) :
      (negativeCall a).text = "(call f (- 0.0) -0.0 \"\\\") (\" call)" := by
    rfl
  exact ⟨hlexical _, hlexical _, htext _, htext _,
    (text_eq_iff_relabel_bare _ _ (hlexical _) (hlexical _)).mp ((htext _).trans (htext _).symm)⟩

end Expr

end CSubset
