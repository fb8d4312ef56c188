-- SUMMARY: The tokens that the nodes of a derived unit stand at, each at its own and in their order.
import CSubset.Proofs.Grammar.Unit
import CSubset.Proofs.Syntax.Inorder

/-!
# Tokens of nodes

A derivation tells for every node which token stands for it, and `StandsAt` says what kind of token
that is. Listed in order, the nodes of a phrase stand at tokens of the phrase from left to right,
with tokens that stand for no node around and between them. Each string literal belongs to the node
of all those around it, and a node begins with the first of them. So what follows a phrase matters
where the phrase can end in a string literal: `AnchorsBefore` is about phrases in front of others.
-/

namespace CSubset

open Grammar

/-- Whether a token is a string literal. -/
def Token.isString (t : Token) : Bool :=
  match t.kind with
  | .stringLiteral _ => true
  | _ => false

/-- The expression has the token for its own: the literal or identifier that it is, the operator or
the opening bracket. Only a string literal can go on, with other string literals behind it. -/
inductive Expr.StandsAt : Expr → Token → List Token → Prop where
  | int {i : Nat} {n : Int} {l : Location} :
      StandsAt (.literal ⟨i, l⟩ (.int n)) ⟨.intLiteral n, l⟩ []
  | float {i : Nat} {x : Binary64} {l : Location} :
      StandsAt (.literal ⟨i, l⟩ (.float x)) ⟨.floatLiteral x, l⟩ []
  | char {i : Nat} {c : Char} {l : Location} :
      StandsAt (.literal ⟨i, l⟩ (.char c)) ⟨.charLiteral c, l⟩ []
  | string {i : Nat} {s s' : String} {l : Location} {ts : List Token} (h : Strings ts s') :
      StandsAt (.literal ⟨i, l⟩ (.string (s ++ s'))) ⟨.stringLiteral s, l⟩ ts
  | ident {i : Nat} {name : String} {l : Location} :
      StandsAt (.ident ⟨i, l⟩ name) ⟨.identifier name, l⟩ []
  | unary {i : Nat} {op : UnaryOp} {operand : Expr} {l : Location} :
      StandsAt (.unary ⟨i, l⟩ op operand) (.ofMark op.mark l) []
  | binary {i : Nat} {op : BinaryOp} {left right : Expr} {l : Location} :
      StandsAt (.binary ⟨i, l⟩ op left right) (.ofMark op.mark l) []
  | assign {i : Nat} {op : AssignOp} {target value : Expr} {l : Location} :
      StandsAt (.assign ⟨i, l⟩ op target value) (.ofMark op.mark l) []
  | call {i : Nat} {callee : Expr} {args : List Expr} {l : Location} :
      StandsAt (.call ⟨i, l⟩ callee args) (.ofMark .leftParen l) []
  | index {i : Nat} {base subscript : Expr} {l : Location} :
      StandsAt (.index ⟨i, l⟩ base subscript) (.ofMark .leftBracket l) []

/-- The node has the token for its own: the name that it declares, its opening brace, its keyword,
or the token of the expression that it is, which can go on. -/
inductive Node.StandsAt : Node → Token → List Token → Prop where
  | function {p : Prototype} {body : Option Block} :
      StandsAt (.function p body) ⟨.identifier p.name, p.location⟩ []
  | parameter {p : Parameter} : StandsAt (.parameter p) ⟨.identifier p.name, p.location⟩ []
  | var {v : Variable} : StandsAt (.var v) ⟨.identifier v.name, v.location⟩ []
  | block {b : Block} : StandsAt (.block b) (.ofMark .leftBrace b.location) []
  | stmt {s : Stmt} {w : Keyword} (h : s.keyword? = some w) :
      StandsAt (.stmt s) (.ofWord w s.location) []
  | expr {e : Expr} {t : Token} {parts : List Token} (h : e.StandsAt t parts) :
      StandsAt (.expr e) t parts

theorem Expr.StandsAt.location {e : Expr} {t : Token} {parts : List Token}
    (h : e.StandsAt t parts) : e.location = t.location := by
  cases h <;> rfl

namespace Node.StandsAt

variable {n : Node} {t : Token} {parts : List Token}

theorem location? (h : n.StandsAt t parts) : n.location? = some t.location := by
  cases h with
  | @stmt s w h => exact congrArg (Option.map fun _ => s.location) h
  | expr h => exact congrArg some h.location
  | _ => rfl

/-- Only string literals go on. -/
theorem parts_eq_nil (h : n.StandsAt t parts) (ht : t.isString = false) : parts = [] := by
  cases h with
  | expr h =>
    cases h with
    | string h => cases ht
    | _ => rfl
  | _ => rfl

end Node.StandsAt

namespace Grammar

/-! ## Nodes along tokens -/

/-- No string literal goes on with these tokens. -/
def EndsStrings (ts : List Token) : Prop := ts.head?.any Token.isString = false

/-- The nodes stand at tokens of `ts`, at different ones and in their order. No string literal is
left out, and where one stands for a node all those that follow it at once belong to it. -/
inductive Anchors : List Token → List Node → Prop where
  | nil : Anchors [] []
  | skip {t : Token} {ts : List Token} {ns : List Node} (ht : t.isString = false)
      (h : Anchors ts ns) : Anchors (t :: ts) ns
  | mark {t : Token} {parts ts : List Token} {n : Node} {ns : List Node} (hn : n.StandsAt t parts)
      (hts : t.isString = true → EndsStrings ts) (h : Anchors ts ns) :
      Anchors (t :: (parts ++ ts)) (n :: ns)

namespace Anchors

variable {ts : List Token} {ns : List Node} {n : Node}

theorem locations (h : Anchors ts ns) :
    (ns.filterMap Node.location?).Sublist (ts.map Token.location) := by
  induction h with
  | nil => exact .refl []
  | skip _ _ ih => exact ih.cons _
  | mark hn _ _ ih =>
    rw [List.filterMap_cons_some hn.location?, List.map_cons, List.map_append]
    exact (ih.trans (List.sublist_append_right _ _)).cons_cons _

/-- The token that a node stands at. If it is a string literal, the run of string literals that it
is in begins with it and consists of it and its other parts. -/
theorem exists_token (h : Anchors ts ns) (hn : n ∈ ns) :
    ∃ before t parts after, ts = before ++ t :: (parts ++ after) ∧ n.StandsAt t parts ∧
      (t.isString = true → before.getLast?.any Token.isString = false ∧ EndsStrings after) := by
  induction h with
  | nil => cases hn
  | @skip s _ _ hs _ ih =>
    obtain ⟨before, t, parts, after, rfl, ht, hbounds⟩ := ih hn
    refine ⟨s :: before, t, parts, after, rfl, ht, fun hstring => ⟨?_, (hbounds hstring).2⟩⟩
    cases before with
    | nil => exact hs
    | cons b rest => exact (hbounds hstring).1
  | @mark s front _ m _ hs hts _ ih =>
    rcases List.mem_cons.mp hn with rfl | hn
    · exact ⟨[], s, front, _, rfl, hs, fun hstring => ⟨rfl, hts hstring⟩⟩
    · obtain ⟨before, t, parts, after, rfl, ht, hbounds⟩ := ih hn
      refine ⟨s :: (front ++ before), t, parts, after, by simp, ht,
        fun hstring => ⟨?_, (hbounds hstring).2⟩⟩
      cases before with
      | nil =>
        cases hs' : s.isString with
        | true =>
          -- another literal right in front would go on with this one
          cases hstring.symm.trans (hts hs')
        | false =>
          obtain rfl := hs.parts_eq_nil hs'
          exact hs'
      | cons b rest =>
        rw [← List.cons_append, List.getLast?_append_cons]
        exact (hbounds hstring).1

end Anchors

/-- The nodes stand at tokens of `ts` if what follows is as `next` says. -/
def AnchorsBefore (next : List Token → Prop) (ts : List Token) (ns : List Node) : Prop :=
  ∀ us ms, next us → Anchors us ms → Anchors (ts ++ us) (ns ++ ms)

/-- Anything can follow. -/
def Always (_ : List Token) : Prop := True

namespace AnchorsBefore

variable {next : List Token → Prop} {ts us : List Token} {ns ms : List Node} {n : Node} {t : Token}

theorem nil : AnchorsBefore next [] [] := fun _ _ _ h => h

theorem skip (h : AnchorsBefore next ts ns) (ht : t.isString = false) :
    AnchorsBefore next (t :: ts) ns :=
  fun us ms hus hms => .skip ht (h us ms hus hms)

theorem mark (h : AnchorsBefore next ts ns) (hn : n.StandsAt t []) (ht : t.isString = false) :
    AnchorsBefore next (t :: ts) (n :: ns) := by
  intro us ms hus hms
  have hmark := Anchors.mark hn (fun hstring => by cases ht.symm.trans hstring) (h us ms hus hms)
  exact hmark

theorem append (h : AnchorsBefore Always ts ns) (h' : AnchorsBefore next us ms) :
    AnchorsBefore next (ts ++ us) (ns ++ ms) := by
  intro vs ks hvs hks
  rw [List.append_assoc, List.append_assoc]
  exact h _ _ trivial (h' vs ks hvs hks)

theorem weaken (h : AnchorsBefore Always ts ns) : AnchorsBefore next ts ns :=
  fun us ms _ hms => h us ms trivial hms

/-- A token that is no string literal can stand in between. -/
theorem follow (h : AnchorsBefore EndsStrings ts ns) (h' : AnchorsBefore next (t :: us) ms)
    (ht : t.isString = false) : AnchorsBefore next (ts ++ t :: us) (ns ++ ms) := by
  intro vs ks hvs hks
  rw [List.append_assoc, List.append_assoc]
  exact h _ _ ht (h' vs ks hvs hks)

theorem close (h : AnchorsBefore EndsStrings ts ns) (ht : t.isString = false) :
    AnchorsBefore next (ts ++ [t]) ns := by
  have hfollow : AnchorsBefore next (ts ++ [t]) (ns ++ []) := h.follow (nil.skip ht) ht
  rwa [List.append_nil] at hfollow

theorem single (h : AnchorsBefore next ts n.inorder) :
    AnchorsBefore next ts ([n].flatMap Node.inorder) := by
  rwa [List.flatMap_singleton]

/-- A node without a token of its own adds nothing to the nodes below it. -/
theorem unmarked (h : AnchorsBefore next ts (n.children.flatMap Node.inorder))
    (hexpr : n.expr? = none) (hn : n.location? = none) : AnchorsBefore next ts n.inorder := by
  rw [Node.inorder_eq hexpr, List.filter_cons_of_neg (by simp [hn])]
  exact h

/-- A node that is no expression stands in front of the nodes below it. -/
theorem marked (h : AnchorsBefore next ts (n.children.flatMap Node.inorder))
    (hexpr : n.expr? = none) (hn : n.StandsAt t []) (ht : t.isString = false) :
    AnchorsBefore next (t :: ts) n.inorder := by
  rw [Node.inorder_eq hexpr, List.filter_cons_of_pos (by simp [hn.location?])]
  exact h.mark hn ht

/-- An expression stands between its parts. -/
theorem between {e : Expr}
    (hf : AnchorsBefore EndsStrings ts ((e.inFront.map Node.expr).flatMap Node.inorder))
    (he : e.StandsAt t []) (ht : t.isString = false)
    (hb : AnchorsBefore next us ((e.behind.map Node.expr).flatMap Node.inorder)) :
    AnchorsBefore next (ts ++ t :: us) (Node.expr e).inorder := by
  rw [Node.inorder_expr_eq]
  exact hf.follow (hb.mark (.expr he) ht) ht

/-- An expression without parts in front stands before the others. -/
theorem front {e : Expr} (he : e.StandsAt t []) (ht : t.isString = false) (hf : e.inFront = [])
    (hb : AnchorsBefore next ts ((e.behind.map Node.expr).flatMap Node.inorder)) :
    AnchorsBefore next (t :: ts) (Node.expr e).inorder := by
  rw [Node.inorder_expr_eq, hf]
  exact hb.mark (.expr he) ht

/-- Nothing has to follow. -/
theorem alone (h : AnchorsBefore next ts ns) (hnext : next []) : Anchors ts ns := by
  have hnil := h [] [] hnext .nil
  rwa [List.append_nil, List.append_nil] at hnil

end AnchorsBefore

/-! ## Expressions -/

mutual

theorem Assignment.anchors {i j : Nat} {ts : List Token} {e : Expr} :
    Assignment i ts e j → AnchorsBefore EndsStrings ts (Node.expr e).inorder
  | .operand h => h.anchors
  | .assign ht hv => .between ht.anchors.single .assign rfl hv.anchors.single

theorem Binary.anchors {p i j : Nat} {ts : List Token} {e : Expr} :
    Binary p i ts e j → AnchorsBefore EndsStrings ts (Node.expr e).inorder
  | .operand h => h.anchors
  | .tighter h => h.anchors
  | .operator _ hl hr => .between hl.anchors.single .binary rfl hr.anchors.single

theorem Unary.anchors {i j : Nat} {ts : List Token} {e : Expr} :
    Unary i ts e j → AnchorsBefore EndsStrings ts (Node.expr e).inorder
  | .operand h => h.anchors
  | .operator h => .front .unary rfl rfl h.anchors.single

theorem Suffixed.anchors {i j : Nat} {ts : List Token} {e : Expr} :
    Suffixed i ts e j → AnchorsBefore EndsStrings ts (Node.expr e).inorder
  | .primary h => h.anchors
  | .call hc ha => .between hc.anchors.single .call rfl (ha.anchors.close rfl)
  | .index hb hs => .between hb.anchors.single .index rfl (hs.anchors.single.close rfl)

theorem Arguments.anchors {i j : Nat} {ts : List Token} {es : List Expr} :
    Arguments i ts es j →
      AnchorsBefore EndsStrings ts ((es.map Node.expr).flatMap Node.inorder)
  | .none => .nil
  | .some h => h.anchors

theorem ArgumentList.anchors {i j : Nat} {ts : List Token} {es : List Expr} :
    ArgumentList i ts es j →
      AnchorsBefore EndsStrings ts ((es.map Node.expr).flatMap Node.inorder)
  | .last h => h.anchors.single
  | .more h hs => h.anchors.follow (hs.anchors.skip rfl) rfl

theorem Primary.anchors {i j : Nat} {ts : List Token} {e : Expr} :
    Primary i ts e j → AnchorsBefore EndsStrings ts (Node.expr e).inorder
  | .int => .front .int rfl rfl .nil
  | .float => .front .float rfl rfl .nil
  | .char => .front .char rfl rfl .nil
  | .string h => fun _ _ hus hms => .mark (.expr (.string h)) (fun _ => hus) hms
  | .ident => .front .ident rfl rfl .nil
  | .group h => (h.anchors.close rfl).skip rfl

end

theorem Clause.anchors {i j : Nat} {ts : List Token} {e : Option Expr} (h : Clause i ts e j) :
    AnchorsBefore EndsStrings ts ((e.toList.map Node.expr).flatMap Node.inorder) := by
  cases h with
  | none => exact .nil
  | some h => exact h.anchors.single

/-! ## Declarations -/

theorem StorageClass.anchors {ts : List Token} {storage : Storage} (h : StorageClass ts storage) :
    AnchorsBefore Always ts [] := by
  cases h with
  | none => exact .nil
  | static => exact .skip .nil rfl
  | external => exact .skip .nil rfl

theorem TypeSpecifier.anchors {ts : List Token} {type : DeclaredType}
    (h : TypeSpecifier ts type) : AnchorsBefore Always ts [] := by
  cases h with
  | plain => exact .skip .nil rfl
  | const => exact .skip (.skip .nil rfl) rfl

theorem Stars.anchors {ts : List Token} {n : Nat} (h : Stars ts n) :
    AnchorsBefore Always ts [] := by
  induction h with
  | nil => exact .nil
  | cons _ ih => exact ih.skip rfl

theorem Dimensions.anchors {ts : List Token} {ns : List Nat} (h : Dimensions ts ns) :
    AnchorsBefore Always ts [] := by
  induction h with
  | nil => exact .nil
  | cons _ ih => exact ((ih.skip rfl).skip rfl).skip rfl

theorem Typed.anchors {ts : List Token} {type : DeclaredType} {name : String} {l : Location}
    (h : Typed ts type name l) {n : Node} (hn : n.StandsAt ⟨.identifier name, l⟩ []) :
    AnchorsBefore Always ts [n] := by
  cases h with
  | mk ht hp hd => exact ht.anchors.append (hp.anchors.append (hd.anchors.mark hn rfl))

theorem Param.anchors {ts : List Token} {p : Parameter} (h : Param ts p) :
    AnchorsBefore Always ts (Node.parameter p).inorder := by
  cases h with
  | mk h => exact h.anchors .parameter

theorem Params.anchors {ts : List Token} {ps : List Parameter} {variadic : Bool}
    (h : Params ts ps variadic) :
    AnchorsBefore Always ts ((ps.map Node.parameter).flatMap Node.inorder) := by
  induction h with
  | last h => exact h.anchors.single
  | variadic h => exact h.anchors.append (.skip (.skip .nil rfl) rfl)
  | more h _ ih => exact h.anchors.append (ih.skip rfl)

theorem ParamList.anchors {ts : List Token} {ps : List Parameter} {variadic : Bool}
    (h : ParamList ts ps variadic) :
    AnchorsBefore Always ts ((ps.map Node.parameter).flatMap Node.inorder) := by
  cases h with
  | nothing => exact .nil
  | void => exact .skip .nil rfl
  | params h => exact h.anchors

/-- A heading says nothing yet about an initializer. -/
theorem VarHeading.anchors {ts us : List Token} {v : Variable} (h : VarHeading ts v)
    {initializer : Option Expr}
    (he : AnchorsBefore Always us ((initializer.toList.map Node.expr).flatMap Node.inorder)) :
    AnchorsBefore Always (ts ++ us) (Node.var { v with initializer := initializer }).inorder := by
  have hhead : AnchorsBefore Always ts [Node.var { v with initializer := initializer }] := by
    cases h with
    | mk hs h => exact hs.anchors.append (h.anchors .var)
  rw [Node.inorder_eq rfl]
  exact hhead.append he

/-- A heading says nothing yet about a body. -/
theorem FunHeading.anchors {ts us : List Token} {p : Prototype} (h : FunHeading ts p)
    {body : Option Block}
    (hb : AnchorsBefore Always us ((body.toList.map Node.block).flatMap Node.inorder)) :
    AnchorsBefore Always (ts ++ us) (Node.function p body).inorder := by
  have hname : (Node.function p body).StandsAt ⟨.identifier p.name, p.location⟩ [] := .function
  have hhead : AnchorsBefore Always ts
      (Node.function p body :: (p.parameters.map Node.parameter).flatMap Node.inorder) := by
    cases h with
    | mk hs ht hp hq =>
      refine hs.anchors.append (ht.anchors.append (hp.anchors.append ?_))
      exact ((hq.anchors.weaken.close rfl).skip rfl).mark hname rfl
  rw [Node.inorder_eq rfl, Node.children, List.flatMap_append]
  exact hhead.append hb

theorem LocalDecl.anchors {i j : Nat} {ts : List Token} {d : Decl} (h : LocalDecl i ts d j) :
    AnchorsBefore Always ts (Node.decl (.decl d)).inorder := by
  cases h with
  | var h =>
    cases h with
    | mk hs h =>
      exact .unmarked (.single ((VarHeading.mk hs h).anchors (.skip .nil rfl))) rfl rfl
  | initialized h he =>
    exact .unmarked (.single (h.anchors ((he.anchors.single.close rfl).skip rfl))) rfl rfl
  | prototype h => exact .unmarked (.single (h.anchors (.skip .nil rfl))) rfl rfl

theorem Many.anchors {α : Type} {phrase : Nat → List Token → α → Nat → Prop} {node : α → Node}
    {i j : Nat} {ts : List Token} {xs : List α} (h : Many phrase i ts xs j)
    (hphrase : ∀ i j ts x, phrase i ts x j → AnchorsBefore Always ts (node x).inorder) :
    AnchorsBefore Always ts ((xs.map node).flatMap Node.inorder) := by
  induction h with
  | nil => exact .nil
  | cons h _ ih => exact (hphrase _ _ _ _ h).append ih

/-! ## Statements and units -/

mutual

theorem Statement.anchors {i j : Nat} {ts : List Token} {s : Stmt} :
    Statement i ts s j → AnchorsBefore Always ts (Node.stmt s).inorder
  | .block h => .unmarked h.anchors.single rfl rfl
  | .ifThen he hb =>
    .marked ((he.anchors.follow (hb.anchors.single.skip rfl) rfl).skip rfl) rfl (.stmt rfl) rfl
  | .ifElse he hb ha =>
    have hbodies := hb.anchors.append (ha.anchors.single.skip rfl)
    .marked ((he.anchors.follow (hbodies.skip rfl) rfl).skip rfl) rfl (.stmt rfl) rfl
  | .whileLoop he hb =>
    .marked ((he.anchors.follow (hb.anchors.single.skip rfl) rfl).skip rfl) rfl (.stmt rfl) rfl
  | .forLoop h₁ h₂ h₃ hb => by
    refine .marked ?_ rfl (.stmt rfl) rfl
    simp only [Node.children, List.flatMap_append, List.append_assoc]
    refine (h₁.anchors.follow (.skip (h₂.anchors.follow (.skip ?_ rfl) rfl) rfl) rfl).skip rfl
    exact h₃.anchors.follow (hb.anchors.single.skip rfl) rfl
  | .jump => .marked (.skip .nil rfl) rfl (.stmt rfl) rfl
  | .returnStmt h => .marked (h.anchors.close rfl) rfl (.stmt rfl) rfl
  | .expr h => .unmarked (h.anchors.single.close rfl) rfl rfl

theorem Statements.anchors {i j : Nat} {ts : List Token} {ss : List Stmt} :
    Statements i ts ss j → AnchorsBefore Always ts ((ss.map Node.stmt).flatMap Node.inorder)
  | .nil => .nil
  | .cons h hs => h.anchors.append hs.anchors

theorem Compound.anchors {i j : Nat} {ts : List Token} {b : Block} :
    Compound i ts b j → AnchorsBefore Always ts (Node.block b).inorder
  | .mk hd hs => by
    have hdecls := hd.anchors fun _ _ _ _ h => h.anchors
    refine .marked ?_ rfl .block rfl
    rw [Node.children, List.flatMap_append]
    exact hdecls.append (hs.anchors.weaken.close rfl)

end

theorem FileDecl.anchors {i j : Nat} {ts : List Token} {d : External} (h : FileDecl i ts d j) :
    AnchorsBefore Always ts (Node.decl d).inorder := by
  cases h with
  | decl h => exact h.anchors
  | definition h _ hb => exact .unmarked (.single (h.anchors hb.anchors.single)) rfl rfl

/-- The nodes of a derived unit stand at tokens, each at its own and in their order. -/
theorem TranslationUnit.anchors {ts : List Token} {u : CompilationUnit}
    (h : TranslationUnit ts u) : Anchors ts (Node.unit u).inorder := by
  obtain ⟨j, h⟩ := h
  have hdecls := h.anchors fun _ _ _ _ h => h.anchors
  exact (AnchorsBefore.unmarked hdecls rfl rfl).alone trivial

end Grammar

end CSubset
