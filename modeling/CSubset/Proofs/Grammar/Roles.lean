-- SUMMARY: What identifiers and literals are there for in a derived unit, told from the tokens alone.
import CSubset.Proofs.Grammar.Anchors
import Mathlib.Data.List.Forall2

/-!
# Roles of tokens

An identifier can be declared or used, and a literal can be an expression, the size of an array or
the continuation of a string. Which of these it is shows in the tokens in front of it: a name is
declared behind a type and its pointer marks, a size is in a bracket behind the declared name or
another size, and a string goes on behind a string. `roles` reads tokens in this way, from left to
right, and in a derived unit what it finds are the names and sizes of the declarations and the
literals and identifiers among the expressions, in the order of a walk.
-/

namespace CSubset

open Grammar

/-! ## Roles -/

/-- Where a token is. -/
inductive Standing where
  | elsewhere | behindType | behindName | inBracket | behindSize | behindString
deriving DecidableEq, Repr

/-- What an identifier or a literal is there for. -/
inductive Role where
  | leaf | name | size
deriving DecidableEq, Repr

namespace Standing

/-- Where what follows a token is. -/
def after (s : Standing) : Token.Kind → Standing
  | .keyword w => if w ∈ [.intKw, .floatKw, .charKw, .voidKw] then behindType else elsewhere
  | .punctuator m =>
    if s = behindType ∧ m = .star then behindType
    else if s = behindName ∧ m = .leftBracket then inBracket
    else if s = behindSize ∧ m = .rightBracket then behindName
    else elsewhere
  | .identifier _ => if s = behindType then behindName else elsewhere
  | .intLiteral _ => if s = inBracket then behindSize else elsewhere
  | .stringLiteral _ => behindString
  | _ => elsewhere

/-- The role of a token, if it is an identifier or a literal and does not continue a string. -/
def role? (s : Standing) : Token.Kind → Option Role
  | .keyword _ => none
  | .punctuator _ => none
  | .identifier _ => some (if s = behindType then .name else .leaf)
  | .intLiteral _ => some (if s = inBracket then .size else .leaf)
  | .stringLiteral _ => if s = behindString then none else some .leaf
  | _ => some .leaf

end Standing

namespace Token

/-- The string literals that go on with a token, if it is one itself. -/
def parts (t : Token) (rest : List Token) : List Token :=
  if t.isString then rest.takeWhile isString else []

/-- The tokens with a role, each with what goes on with it. -/
def roles : Standing → List Token → List (Role × Token × List Token)
  | _, [] => []
  | s, t :: rest =>
    (s.role? t.kind).toList.map (fun r => (r, t, t.parts rest)) ++ roles (s.after t.kind) rest

/-- The tokens with a given role, each with what goes on with it. -/
def playing (role : Role) (ts : List Token) : List (Token × List Token) :=
  (roles .elsewhere ts).filterMap fun x => if x.1 = role then some x.2 else none

end Token

/-- What a node needs a token for: itself, as an expression or by its declared name, or the size of
an array that it declares. -/
inductive Demand where
  | leaf (n : Node)
  | name (n : Node)
  | size (n : Nat)

/-- The token is what it is needed for. -/
inductive Demand.At : Demand → Role × Token × List Token → Prop where
  | leaf {n : Node} {t : Token} {parts : List Token} (h : n.StandsAt t parts) :
      At (.leaf n) (.leaf, t, parts)
  | name {n : Node} {t : Token} (h : n.StandsAt t []) : At (.name n) (.name, t, [])
  | size {n : Nat} {l : Location} : At (.size n) (.size, ⟨.intLiteral n, l⟩, [])

namespace Node

/-- Whether a node is a literal or an identifier. -/
def isLeaf : Node → Bool
  | expr (.literal _ _) => true
  | expr (.ident _ _) => true
  | _ => false

/-- Whether a node declares a name. -/
def declares : Node → Bool
  | function _ _ => true
  | parameter _ => true
  | var _ => true
  | _ => false

/-- The sizes of arrays in the type that a node declares a name with. -/
def sizes : Node → List Nat
  | function p _ => p.returnType.dimensions
  | parameter p => p.type.dimensions
  | var v => v.type.dimensions
  | _ => []

/-- What a node needs tokens for, apart from what is below it. -/
def ownDemands (n : Node) : List Demand :=
  (if n.isLeaf then [.leaf n] else []) ++ (if n.declares then [.name n] else []) ++
    n.sizes.map .size

/-- What the nodes from a node on need tokens for. -/
def demands (n : Node) : List Demand := (n.walk Walk.everywhere).flatMap ownDemands

theorem demands_eq (n : Node) : n.demands = n.ownDemands ++ n.children.flatMap demands := by
  rw [demands, n.walk_eq, Walk.everywhere, if_pos rfl, List.flatMap_cons, List.flatMap_assoc]
  rfl

theorem demands_literal (a : Anchor) (value : Literal) :
    (expr (.literal a value)).demands = [.leaf (expr (.literal a value))] := demands_eq _

theorem demands_ident (a : Anchor) (name : String) :
    (expr (.ident a name)).demands = [.leaf (expr (.ident a name))] := demands_eq _

/-- What needs no token itself needs what the nodes below it do. -/
theorem demands_of_unmarked {n : Node} (hn : n.ownDemands = []) :
    n.demands = n.children.flatMap demands := by
  rw [demands_eq, hn]
  rfl

end Node

namespace Grammar

/-! ## Readings -/

/-- What follows the end of strings is read alike behind a string and elsewhere. -/
theorem roles_behindString {ts : List Token} (h : EndsStrings ts) :
    Token.roles .behindString ts = Token.roles .elsewhere ts := by
  rcases ts with _ | ⟨⟨k, l⟩, rest⟩
  · rfl
  · cases k with
    | stringLiteral s => cases h
    | _ => rfl

/-- The tokens `ts` at `s` are needed for `us`, and what follows them is at `s'`, as long as it is
as `next` says. -/
def Reads (next : List Token → Prop) (s : Standing) (ts : List Token) (us : List Demand)
    (s' : Standing) : Prop :=
  ∀ rest, next rest → ∃ found,
    Token.roles s (ts ++ rest) = found ++ Token.roles s' rest ∧ List.Forall₂ Demand.At us found

namespace Reads

variable {next : List Token → Prop} {s s' s'' : Standing} {ts ts' : List Token}
  {us us' : List Demand} {t : Token} {u : Demand}

theorem nil : Reads next s [] [] s := fun _ _ => ⟨[], rfl, .nil⟩

theorem weaken (h : Reads Always s ts us s') : Reads next s ts us s' := fun rest _ => h rest trivial

theorem append (h : Reads Always s ts us s') (h' : Reads next s' ts' us' s'') :
    Reads next s (ts ++ ts') (us ++ us') s'' := by
  intro rest hrest
  obtain ⟨behind, hbehind, hus'⟩ := h' rest hrest
  obtain ⟨found, hfound, hus⟩ := h (ts' ++ rest) trivial
  refine ⟨found ++ behind, ?_, List.rel_append hus hus'⟩
  rw [List.append_assoc, hfound, hbehind, List.append_assoc]

/-- A token that is no string literal can stand in between. -/
theorem follow (h : Reads EndsStrings s ts us s') (h' : Reads next s' (t :: ts') us' s'')
    (ht : t.isString = false) : Reads next s (ts ++ t :: ts') (us ++ us') s'' := by
  intro rest hrest
  obtain ⟨behind, hbehind, hus'⟩ := h' rest hrest
  obtain ⟨found, hfound, hus⟩ := h (t :: ts' ++ rest) ht
  refine ⟨found ++ behind, ?_, List.rel_append hus hus'⟩
  rw [List.append_assoc, hfound, hbehind, List.append_assoc]

/-- A token without a role adds nothing. -/
theorem skip (h : Reads next s' ts us s'') (ht : s.role? t.kind = none)
    (hs : s.after t.kind = s') : Reads next s (t :: ts) us s'' := by
  intro rest hrest
  obtain ⟨found, hfound, hus⟩ := h rest hrest
  refine ⟨found, ?_, hus⟩
  rw [List.cons_append, Token.roles, ht, hs, hfound]
  rfl

/-- A token with a role is what is needed next. -/
theorem mark (h : Reads next s' ts us s'') {r : Role} (hu : u.At (r, t, []))
    (hr : s.role? t.kind = some r) (ht : t.isString = false) (hs : s.after t.kind = s') :
    Reads next s (t :: ts) (u :: us) s'' := by
  intro rest hrest
  obtain ⟨found, hfound, hus⟩ := h rest hrest
  refine ⟨(r, t, []) :: found, ?_, .cons hu hus⟩
  rw [List.cons_append, Token.roles, hr, hs, hfound, Token.parts, if_neg (by simp [ht])]
  rfl

theorem single {n : Node} (h : Reads next s ts n.demands s') :
    Reads next s ts ([n].flatMap Node.demands) s' := by
  rwa [List.flatMap_singleton]

/-- A token without a role can stand behind. -/
theorem close (h : Reads EndsStrings s ts us s') (ht : t.isString = false)
    (hr : s'.role? t.kind = none) (hs : s'.after t.kind = s'') :
    Reads next s (ts ++ [t]) us s'' := by
  have hfollow : Reads next s (ts ++ [t]) (us ++ []) s'' := h.follow (nil.skip hr hs) ht
  rwa [List.append_nil] at hfollow

/-- A node that needs no token adds nothing to the nodes below it. -/
theorem below {n : Node} (h : Reads next s ts (n.children.flatMap Node.demands) s')
    (hn : n.ownDemands = []) : Reads next s ts n.demands s' := by
  rwa [Node.demands_of_unmarked hn]

/-- An operator between the operands has no role. -/
theorem between {e : Expr}
    (hf : Reads EndsStrings s ts ((e.inFront.map Node.expr).flatMap Node.demands) s')
    (hb : Reads next s' (t :: ts') ((e.behind.map Node.expr).flatMap Node.demands) s'')
    (ht : t.isString = false) (he : (Node.expr e).ownDemands = []) :
    Reads next s (ts ++ t :: ts') (Node.expr e).demands s'' := by
  refine below ?_ he
  rw [Node.children, ← e.inFront_append_behind, List.map_append, List.flatMap_append]
  exact hf.follow hb ht

/-- Nothing has to follow. -/
theorem alone (h : Reads next s ts us s') (hnext : next []) :
    List.Forall₂ Demand.At us (Token.roles s ts) := by
  obtain ⟨found, hfound, hus⟩ := h [] hnext
  rw [List.append_nil] at hfound
  rw [hfound, Token.roles, List.append_nil]
  exact hus

end Reads

/-! ## Expressions -/

theorem after_mark (m : Punctuator) : Standing.elsewhere.after (.punctuator m) = .elsewhere := by
  cases m <;> rfl

theorem Reads.leaf {e : Expr} {t : Token} (he : e.StandsAt t [])
    (hleaf : (Node.expr e).demands = [.leaf (.expr e)]) (ht : t.isString = false)
    (hr : Standing.elsewhere.role? t.kind = some .leaf)
    (hs : Standing.elsewhere.after t.kind = .elsewhere) :
    Reads EndsStrings .elsewhere [t] (Node.expr e).demands .elsewhere := by
  rw [hleaf]
  exact nil.mark (.leaf (.expr he)) hr ht hs

theorem takeWhile_isString {ts : List Token} (h : EndsStrings ts) :
    ts.takeWhile Token.isString = [] := by
  rcases ts with _ | ⟨t, rest⟩
  · rfl
  · exact List.takeWhile_cons_of_neg (by simpa [EndsStrings] using h)

/-- String literals one behind the other are the parts of the first of them. -/
theorem Strings.parts {ts rest : List Token} {s : String} (h : Strings ts s)
    (hrest : EndsStrings rest) : (ts ++ rest).takeWhile Token.isString = ts := by
  induction h with
  | nil => exact takeWhile_isString hrest
  | cons _ ih => exact (List.takeWhile_cons_of_pos rfl).trans (congrArg _ ih)

/-- String literals behind a string literal have no role. -/
theorem Strings.roles {ts rest : List Token} {s : String} (h : Strings ts s)
    (hrest : EndsStrings rest) :
    Token.roles .behindString (ts ++ rest) = Token.roles .elsewhere rest := by
  induction h with
  | nil => exact roles_behindString hrest
  | cons _ ih => exact ih

theorem Strings.reads {ts : List Token} {s s' : String} (h : Strings ts s') (i : Nat)
    (l : Location) :
    Reads EndsStrings .elsewhere (⟨.stringLiteral s, l⟩ :: ts)
      (Node.expr (.literal ⟨i, l⟩ (.string (s ++ s')))).demands .elsewhere := by
  intro rest hrest
  rw [Node.demands_literal]
  refine ⟨[(.leaf, ⟨.stringLiteral s, l⟩, ts)], ?_, .cons (.leaf (.expr (.string h))) .nil⟩
  have hparts : Token.parts ⟨.stringLiteral s, l⟩ (ts ++ rest) = ts := h.parts hrest
  rw [List.cons_append, Token.roles, hparts]
  exact congrArg _ (h.roles hrest)

mutual

theorem Assignment.reads {i j : Nat} {ts : List Token} {e : Expr} :
    Assignment i ts e j → Reads EndsStrings .elsewhere ts (Node.expr e).demands .elsewhere
  | .operand h => h.reads
  | .assign ht hv => .between ht.reads.single (hv.reads.single.skip rfl (after_mark _)) rfl rfl

theorem Binary.reads {p i j : Nat} {ts : List Token} {e : Expr} :
    Binary p i ts e j → Reads EndsStrings .elsewhere ts (Node.expr e).demands .elsewhere
  | .operand h => h.reads
  | .tighter h => h.reads
  | .operator _ hl hr => .between hl.reads.single (hr.reads.single.skip rfl rfl) rfl rfl

theorem Unary.reads {i j : Nat} {ts : List Token} {e : Expr} :
    Unary i ts e j → Reads EndsStrings .elsewhere ts (Node.expr e).demands .elsewhere
  | .operand h => h.reads
  | .operator h => .below (h.reads.single.skip rfl rfl) rfl

theorem Suffixed.reads {i j : Nat} {ts : List Token} {e : Expr} :
    Suffixed i ts e j → Reads EndsStrings .elsewhere ts (Node.expr e).demands .elsewhere
  | .primary h => h.reads
  | .call hc ha =>
    .between hc.reads.single ((ha.reads.close rfl rfl rfl).skip rfl rfl) rfl rfl
  | .index hb hs =>
    .between hb.reads.single ((hs.reads.single.close rfl rfl rfl).skip rfl rfl) rfl rfl

theorem Arguments.reads {i j : Nat} {ts : List Token} {es : List Expr} :
    Arguments i ts es j →
      Reads EndsStrings .elsewhere ts ((es.map Node.expr).flatMap Node.demands) .elsewhere
  | .none => .nil
  | .some h => h.reads

theorem ArgumentList.reads {i j : Nat} {ts : List Token} {es : List Expr} :
    ArgumentList i ts es j →
      Reads EndsStrings .elsewhere ts ((es.map Node.expr).flatMap Node.demands) .elsewhere
  | .last h => h.reads.single
  | .more h hs => h.reads.follow (hs.reads.skip rfl rfl) rfl

theorem Primary.reads {i j : Nat} {ts : List Token} {e : Expr} :
    Primary i ts e j → Reads EndsStrings .elsewhere ts (Node.expr e).demands .elsewhere
  | .int => .leaf .int (Node.demands_literal _ _) rfl rfl rfl
  | .float => .leaf .float (Node.demands_literal _ _) rfl rfl rfl
  | .char => .leaf .char (Node.demands_literal _ _) rfl rfl rfl
  | .string h => h.reads _ _
  | .ident => .leaf .ident (Node.demands_ident _ _) rfl rfl rfl
  | .group h => (h.reads.close rfl rfl rfl).skip rfl rfl

end

theorem Clause.reads {i j : Nat} {ts : List Token} {e : Option Expr} (h : Clause i ts e j) :
    Reads EndsStrings .elsewhere ts ((e.toList.map Node.expr).flatMap Node.demands) .elsewhere := by
  cases h with
  | none => exact .nil
  | some h => exact h.reads.single

/-! ## Declarations -/

theorem StorageClass.reads {ts : List Token} {storage : Storage} (h : StorageClass ts storage) :
    Reads Always .elsewhere ts [] .elsewhere := by
  cases h with
  | none => exact .nil
  | static => exact .skip .nil rfl rfl
  | external => exact .skip .nil rfl rfl

theorem after_type (s : Standing) (b : BaseType) : s.after (.keyword b.keyword) = .behindType := by
  cases b <;> rfl

theorem TypeSpecifier.reads {ts : List Token} {type : DeclaredType} (h : TypeSpecifier ts type) :
    Reads Always .elsewhere ts [] .behindType := by
  cases h with
  | plain => exact .skip .nil rfl (after_type _ _)
  | const => exact .skip (.skip .nil rfl (after_type _ _)) rfl rfl

theorem Stars.reads {ts : List Token} {n : Nat} (h : Stars ts n) :
    Reads Always .behindType ts [] .behindType := by
  induction h with
  | nil => exact .nil
  | cons _ ih => exact ih.skip rfl rfl

theorem Dimensions.reads {ts : List Token} {ns : List Nat} (h : Dimensions ts ns) :
    Reads Always .behindName ts (ns.map Demand.size) .behindName := by
  induction h with
  | nil => exact .nil
  | cons _ ih => exact ((ih.skip rfl rfl).mark .size rfl rfl rfl).skip rfl rfl

theorem Typed.reads {ts : List Token} {type : DeclaredType} {name : String} {l : Location}
    (h : Typed ts type name l) {n : Node} (hn : n.StandsAt ⟨.identifier name, l⟩ []) :
    Reads Always .elsewhere ts (.name n :: type.dimensions.map Demand.size) .behindName := by
  cases h with
  | mk ht hp hd =>
    exact ht.reads.append (hp.reads.append (hd.reads.mark (.name hn) rfl rfl rfl))

theorem Param.reads {ts : List Token} {p : Parameter} (h : Param ts p) :
    Reads Always .elsewhere ts (Node.parameter p).demands .behindName := by
  cases h with
  | mk h =>
    rw [Node.demands_eq, Node.children, List.flatMap_nil, List.append_nil]
    exact h.reads .parameter

theorem Params.reads {ts : List Token} {ps : List Parameter} {variadic : Bool}
    (h : Params ts ps variadic) (l : Location) :
    Reads Always .elsewhere (ts ++ [.ofMark .rightParen l])
      ((ps.map Node.parameter).flatMap Node.demands) .elsewhere := by
  induction h with
  | last h => exact h.reads.single.weaken.close rfl rfl rfl
  | @variadic ts p m m' h =>
    have hend : Reads Always .behindName
        [.ofMark .comma m, .ofMark .ellipsis m', .ofMark .rightParen l] [] .elsewhere :=
      .skip (.skip (.skip .nil rfl rfl) rfl rfl) rfl rfl
    have hall := h.reads.single.append hend
    rw [List.append_nil] at hall
    rwa [List.append_assoc]
  | more h _ ih =>
    rw [List.append_assoc]
    exact h.reads.append (ih.skip rfl rfl)

theorem ParamList.reads {ts : List Token} {ps : List Parameter} {variadic : Bool}
    (h : ParamList ts ps variadic) (l : Location) :
    Reads Always .elsewhere (ts ++ [.ofMark .rightParen l])
      ((ps.map Node.parameter).flatMap Node.demands) .elsewhere := by
  cases h with
  | nothing => exact .skip .nil rfl rfl
  | void => exact .skip (.skip .nil rfl rfl) rfl rfl
  | params h => exact h.reads l

/-- A heading says nothing yet about an initializer. -/
theorem VarHeading.reads {ts us : List Token} {v : Variable} (h : VarHeading ts v)
    {initializer : Option Expr} {s : Standing}
    (he : Reads Always .behindName us
      ((initializer.toList.map Node.expr).flatMap Node.demands) s) :
    Reads Always .elsewhere (ts ++ us)
      (Node.var { v with initializer := initializer }).demands s := by
  have hhead : Reads Always .elsewhere ts
      (Node.var { v with initializer := initializer }).ownDemands .behindName := by
    cases h with
    | mk hs h => exact hs.reads.append (h.reads .var)
  rw [Node.demands_eq]
  exact hhead.append he

/-- A heading says nothing yet about a body. -/
theorem FunHeading.reads {ts us : List Token} {p : Prototype} (h : FunHeading ts p)
    {body : Option Block} {s : Standing}
    (hb : Reads Always .elsewhere us ((body.toList.map Node.block).flatMap Node.demands) s) :
    Reads Always .elsewhere (ts ++ us) (Node.function p body).demands s := by
  have hname : (Node.function p body).StandsAt ⟨.identifier p.name, p.location⟩ [] := .function
  have hhead : Reads Always .elsewhere ts ((Node.function p body).ownDemands ++
      (p.parameters.map Node.parameter).flatMap Node.demands) .elsewhere := by
    cases h with
    | mk hs ht hp hq =>
      refine hs.reads.append (ht.reads.append (hp.reads.append ?_))
      exact ((hq.reads _).skip rfl rfl).mark (.name hname) rfl rfl rfl
  rw [Node.demands_eq, Node.children, List.flatMap_append, ← List.append_assoc]
  exact hhead.append hb

theorem LocalDecl.reads {i j : Nat} {ts : List Token} {d : Decl} (h : LocalDecl i ts d j) :
    Reads Always .elsewhere ts (Node.decl (.decl d)).demands .elsewhere := by
  cases h with
  | var h =>
    cases h with
    | mk hs h =>
      exact .below (.single ((VarHeading.mk hs h).reads (.skip .nil rfl rfl))) rfl
  | initialized h he =>
    exact .below (.single (h.reads ((he.reads.single.close rfl rfl rfl).skip rfl rfl))) rfl
  | prototype h => exact .below (.single (h.reads (.skip .nil rfl rfl))) rfl

theorem Many.reads {α : Type} {phrase : Nat → List Token → α → Nat → Prop} {node : α → Node}
    {i j : Nat} {ts : List Token} {xs : List α} (h : Many phrase i ts xs j)
    (hphrase : ∀ i j ts x, phrase i ts x j →
      Reads Always .elsewhere ts (node x).demands .elsewhere) :
    Reads Always .elsewhere ts ((xs.map node).flatMap Node.demands) .elsewhere := by
  induction h with
  | nil => exact .nil
  | cons h _ ih => exact (hphrase _ _ _ _ h).append ih

/-! ## Statements and units -/

theorem after_jump (s : Standing) (kind : Jump) : s.after (.keyword kind.keyword) = .elsewhere := by
  cases kind <;> rfl

mutual

theorem Statement.reads {i j : Nat} {ts : List Token} {s : Stmt} :
    Statement i ts s j → Reads Always .elsewhere ts (Node.stmt s).demands .elsewhere
  | .block h => .below h.reads.single rfl
  | .ifThen he hb =>
    .below (.skip (.skip (he.reads.follow (hb.reads.single.skip rfl rfl) rfl) rfl rfl) rfl rfl) rfl
  | .ifElse he hb ha =>
    have hbodies := hb.reads.append (ha.reads.single.skip rfl rfl)
    .below (.skip (.skip (he.reads.follow (hbodies.skip rfl rfl) rfl) rfl rfl) rfl rfl) rfl
  | .whileLoop he hb =>
    .below (.skip (.skip (he.reads.follow (hb.reads.single.skip rfl rfl) rfl) rfl rfl) rfl rfl) rfl
  | .forLoop h₁ h₂ h₃ hb => by
    refine .below ?_ rfl
    simp only [Node.children, List.flatMap_append, List.append_assoc]
    refine .skip (.skip (h₁.reads.follow (.skip (h₂.reads.follow (.skip ?_ rfl rfl) rfl) rfl rfl)
      rfl) rfl rfl) rfl rfl
    exact h₃.reads.follow (hb.reads.single.skip rfl rfl) rfl
  | .jump => .below (.skip (.skip .nil rfl rfl) rfl (after_jump _ _)) rfl
  | .returnStmt h => .below (.skip (h.reads.close rfl rfl rfl) rfl rfl) rfl
  | .expr h => .below (h.reads.single.close rfl rfl rfl) rfl

theorem Statements.reads {i j : Nat} {ts : List Token} {ss : List Stmt} :
    Statements i ts ss j →
      Reads Always .elsewhere ts ((ss.map Node.stmt).flatMap Node.demands) .elsewhere
  | .nil => .nil
  | .cons h hs => h.reads.append hs.reads

theorem Compound.reads {i j : Nat} {ts : List Token} {b : Block} :
    Compound i ts b j → Reads Always .elsewhere ts (Node.block b).demands .elsewhere
  | .mk hd hs => by
    have hdecls := hd.reads fun _ _ _ _ h => h.reads
    refine .below (.skip ?_ rfl rfl) rfl
    rw [Node.children, List.flatMap_append]
    exact hdecls.append (hs.reads.weaken.close rfl rfl rfl)

end

theorem FileDecl.reads {i j : Nat} {ts : List Token} {d : External} (h : FileDecl i ts d j) :
    Reads Always .elsewhere ts (Node.decl d).demands .elsewhere := by
  cases h with
  | decl h => exact h.reads
  | definition h _ hb => exact .below (.single (h.reads hb.reads.single)) rfl

/-- The tokens with a role are those that the nodes of a derived unit need, in the order of a
walk. -/
theorem TranslationUnit.reads {ts : List Token} {u : CompilationUnit} (h : TranslationUnit ts u) :
    List.Forall₂ Demand.At (Node.unit u).demands (Token.roles .elsewhere ts) := by
  obtain ⟨j, h⟩ := h
  have hdecls := h.reads fun _ _ _ _ h => h.reads
  exact (Reads.below hdecls rfl).alone trivial

end Grammar

end CSubset
