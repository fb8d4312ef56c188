-- SUMMARY: A function is reported for a missing return exactly if its body holds no live return of a value.
import Mathlib.Tactic
import CSubset.Proofs.Check.Unit
import CSubset.Proofs.Parse.Exactness
import CSubset.Proofs.Syntax.Statements

/-!
# Missing returns

What stands behind a return or a jump in the same list of statements is dead, and so is everything
inside it. `Block.Leads` names the way to a statement: what stands in front of it, and in front of
each statement around it, in their lists. A return of a value is live if the way to it can be gone,
and a body can reach a return of a value exactly if it holds a live one
(`Block.returnsValue_iff_hasLiveReturn`).
-/

namespace CSubset

open Grammar

/-! ## The way to a statement -/

/-- A statement somewhere in a block. The lists hold what stands before it in its own list and
before each statement around it, the outermost first. -/
inductive Block.Leads : Block → List (List Stmt) → Stmt → Prop where
  | here {b : Block} {before after : List Stmt} {s : Stmt} (hb : b.stmts = before ++ s :: after) :
      b.Leads [before] s
  | inside {b c : Block} {before after : List Stmt} {s r : Stmt} {way : List (List Stmt)}
      (hb : b.stmts = before ++ s :: after) (hc : c ∈ s.bodies) (h : c.Leads way r) :
      b.Leads (before :: way) r

/-- Some way leads to every statement that a walk through the block meets, and to no other. -/
theorem Block.exists_leads_iff (b : Block) (r : Stmt) :
    (∃ way, b.Leads way r) ↔ .stmt r ∈ (Node.block b).walk fun _ => true := by
  have hlisted (nodes : List Node) : .stmt r ∈ nodes ↔ r ∈ nodes.flatMap Walk.stmtList := by
    rw [List.mem_flatMap]
    constructor
    · exact fun h => ⟨_, h, List.mem_singleton_self r⟩
    · rintro ⟨n, hn, hr⟩
      cases n with
      | stmt s => exact List.mem_singleton.mp hr ▸ hn
      | _ => cases hr
  rw [hlisted, Node.walk]
  induction b using Block.bodies_induction with
  | step b ih =>
    have hstmts : (Walk.block (fun _ => true) b).flatMap Walk.stmtList = b.stmts.flatMap fun s =>
        s :: s.bodies.flatMap fun c => (Walk.block (fun _ => true) c).flatMap Walk.stmtList := by
      rw [Walk.ofBlocks_stmtList.block b rfl]
      exact List.flatMap_congr fun s _ => Walk.ofBlocks_stmtList.stmt s rfl
    rw [hstmts, List.mem_flatMap]
    constructor
    · rintro ⟨way, h⟩
      cases h with
      | here hb => exact ⟨r, hb ▸ List.mem_append_right _ List.mem_cons_self, List.mem_cons_self⟩
      | @inside _ c _ _ s _ _ hb hc h =>
        have hs : s ∈ b.stmts := hb ▸ List.mem_append_right _ List.mem_cons_self
        have hr := (ih s hs c hc).mp ⟨_, h⟩
        exact ⟨s, hs, List.mem_cons_of_mem _ (List.mem_flatMap.mpr ⟨c, hc, hr⟩)⟩
    · rintro ⟨s, hs, hr⟩
      obtain ⟨before, after, hb⟩ := List.append_of_mem hs
      rcases List.mem_cons.mp hr with rfl | hr
      · exact ⟨_, .here hb⟩
      · obtain ⟨c, hc, hr⟩ := List.mem_flatMap.mp hr
        obtain ⟨way, h⟩ := (ih s hs c hc).mpr hr
        exact ⟨_, .inside hb hc h⟩

/-! ## Live returns -/

/-- A statement behind which its list goes on: neither a jump nor a return. -/
def Stmt.GoesOn (s : Stmt) : Prop := s.jump? = none ∧ s.return? = none

/-- A block holds a return of a value such that no list on the way to it has ended before. -/
def Block.HasLiveReturn (b : Block) : Prop :=
  ∃ way e l, b.Leads way (.returnStmt (some e) l) ∧ ∀ before ∈ way, ∀ s ∈ before, s.GoesOn

theorem Stmt.leaves_eq_false_iff (s : Stmt) : s.leaves = false ↔ s.GoesOn := by
  cases s <;> simp [leaves, GoesOn, jump?, return?]

theorem Stmt.returnsValue_iff (s : Stmt) : s.returnsValue = true ↔
    (∃ e l, s = .returnStmt (some e) l) ∨ ∃ c ∈ s.bodies, c.returnsValue = true := by
  rcases s with _ | _ | _ | _ | _ | _ | ⟨_ | _, _⟩ | _ <;> simp [returnsValue, bodies]

theorem Stmt.anyReturnsValue_iff (ss : List Stmt) : Stmt.anyReturnsValue ss = true ↔
    ∃ before s after, ss = before ++ s :: after ∧ (∀ x ∈ before, x.GoesOn) ∧
      s.returnsValue = true := by
  induction ss with
  | nil => simp [anyReturnsValue]
  | cons s rest ih =>
    rw [anyReturnsValue, Bool.or_eq_true, Bool.and_eq_true, Bool.not_eq_true', ih,
      s.leaves_eq_false_iff]
    constructor
    · rintro (h | ⟨hs, before, r, after, rfl, hbefore, hr⟩)
      · exact ⟨[], s, rest, rfl, List.forall_mem_nil _, h⟩
      · exact ⟨s :: before, r, after, rfl, List.forall_mem_cons.mpr ⟨hs, hbefore⟩, hr⟩
    · rintro ⟨before, r, after, hsplit, hbefore, hr⟩
      cases before with
      | nil =>
        cases hsplit
        exact .inl hr
      | cons x before =>
        cases hsplit
        obtain ⟨hx, hbefore⟩ := List.forall_mem_cons.mp hbefore
        exact .inr ⟨hx, before, r, after, rfl, hbefore, hr⟩

/-- A live return of a value stands in the block's own list or in a block of a statement there, and
that list has not ended before. -/
theorem Block.hasLiveReturn_iff (b : Block) : b.HasLiveReturn ↔
    ∃ before s after, b.stmts = before ++ s :: after ∧ (∀ x ∈ before, x.GoesOn) ∧
      ((∃ e l, s = .returnStmt (some e) l) ∨ ∃ c ∈ s.bodies, c.HasLiveReturn) := by
  constructor
  · rintro ⟨way, e, l, hway, hgoes⟩
    cases hway with
    | here hb => exact ⟨_, _, _, hb, hgoes _ (.head _), .inl ⟨e, l, rfl⟩⟩
    | inside hb hc h =>
      obtain ⟨hbefore, hway⟩ := List.forall_mem_cons.mp hgoes
      exact ⟨_, _, _, hb, hbefore, .inr ⟨_, hc, _, e, l, h, hway⟩⟩
  · rintro ⟨before, s, after, hb, hbefore, ⟨e, l, rfl⟩ | ⟨c, hc, way, e, l, h, hway⟩⟩
    · exact ⟨_, e, l, .here hb, List.forall_mem_singleton.mpr hbefore⟩
    · exact ⟨_, e, l, .inside hb hc h, List.forall_mem_cons.mpr ⟨hbefore, hway⟩⟩

theorem Block.returnsValue_iff_hasLiveReturn (b : Block) :
    b.returnsValue = true ↔ b.HasLiveReturn := by
  induction b using Block.bodies_induction with
  | step b ih =>
    have hlist : b.returnsValue = Stmt.anyReturnsValue b.stmts := by
      cases b
      rfl
    rw [hlist, Stmt.anyReturnsValue_iff, b.hasLiveReturn_iff]
    -- both sides name the same place of the list, and differ in what they ask of what stands there
    refine exists_congr fun before => exists_congr fun s => exists_congr fun after =>
      and_congr_right fun hb => and_congr_right fun _ => ?_
    have hs : s ∈ b.stmts := hb ▸ List.mem_append_right before List.mem_cons_self
    rw [s.returnsValue_iff]
    exact or_congr_right (exists_congr fun c => and_congr_right fun hc => ih s hs c hc)

instance (b : Block) : Decidable b.HasLiveReturn :=
  decidable_of_iff _ b.returnsValue_iff_hasLiveReturn

/-! ## Reports -/

namespace CompilationUnit

/-- The functions that a unit defines, each with its body, in order. -/
def definitions (u : CompilationUnit) : List (Prototype × Block) :=
  u.functions.filterMap fun f => f.2.map (f.1, ·)

/-- Whether a definition is to return a value and does not. -/
def lacksReturn (f : Prototype × Block) : Bool := !f.1.returnType.isVoid && !f.2.returnsValue

/-- The reports of missing returns in declarations at file level. -/
def missingReturns (ds : List External) : List Diagnostic :=
  ((definitions ⟨ds⟩).filter lacksReturn).map fun f => .missingReturn f.1.name f.1.location

theorem missingReturns_decl (d : Decl) (ds : List External) :
    missingReturns (.decl d :: ds) = missingReturns ds := by
  cases d <;> rfl

theorem missingReturns_definition (p : Prototype) (body : Block) (ds : List External) :
    missingReturns (.definition p body :: ds) = p.missingReturn body ++ missingReturns ds := by
  have hdefinitions : definitions ⟨.definition p body :: ds⟩ = (p, body) :: definitions ⟨ds⟩ := rfl
  have hlacks : lacksReturn (p, body) = !(p.returnType.isVoid || body.returnsValue) :=
    (Bool.not_or ..).symm
  rw [missingReturns, hdefinitions, List.filter_cons, hlacks, Prototype.missingReturn]
  cases p.returnType.isVoid || body.returnsValue <;> rfl

end CompilationUnit

open CompilationUnit (missingReturns missingReturns_decl missingReturns_definition)

theorem Prototype.checkBody_missingReturns (returnTypes : Bool) (p : Prototype) (body : Block)
    (t : ScopeTree) :
    (p.checkBody returnTypes body t).findings.reportsOf .missingReturn = p.missingReturn body := by
  have hname : Diagnostic.Kind.missingReturn ≠ .duplicateSymbol := by decide
  have hjump : Diagnostic.Kind.missingReturn ≠ .invalidJump := by decide
  simp only [checkBody, Checked.prepend, Checked.andThen, Findings.reportsOf_append,
    Parameter.checkAll_reportsOf rfl hname, Decl.checkAll_reportsOf rfl hname,
    Stmt.checkAll_reportsOf rfl hname hjump, missingReturn]
  split <;> rfl

theorem External.checkAll_missingReturns (returnTypes : Bool) (ds : List External)
    (t : ScopeTree) :
    (External.checkAll returnTypes ds t).findings.reportsOf .missingReturn = missingReturns ds := by
  have hname : Diagnostic.Kind.missingReturn ≠ .duplicateSymbol := by decide
  induction ds generalizing t with
  | nil => rfl
  | cons d rest ih =>
    rw [checkAll, Checked.andThen, Findings.reportsOf_append, ih]
    cases d with
    | decl d =>
      rw [check, d.check_reportsOf rfl hname, List.nil_append, missingReturns_decl]
    | definition p body =>
      rw [check, Checked.andThen, Findings.reportsOf_append, t.declare_reportsOf hname,
        p.checkBody_missingReturns, List.nil_append, missingReturns_definition]

/-- The missing returns that are reported are those of the unit's definitions. -/
theorem CompilationUnit.check_missingReturns (u : CompilationUnit) (returnTypes : Bool) :
    (u.check returnTypes).findings.reportsOf .missingReturn = missingReturns u.decls := by
  have hmain : (Findings.ofDiagnostics u.mainFaults).reportsOf .missingReturn = [] := by
    unfold mainFaults
    dsimp only
    split <;> rfl
  rw [check, Findings.reportsOf_append, hmain, List.append_nil]
  exact External.checkAll_missingReturns returnTypes u.decls .initial

/-! ## Functions of a unit that was read -/

/-- What stands in a list of phrases was derived as one. -/
theorem Grammar.Many.derives_of_mem {α : Type} {phrase : Nat → List Token → α → Nat → Prop}
    {i j : Nat} {ts : List Token} {xs : List α} (h : Many phrase i ts xs j) :
    ∀ x ∈ xs, ∃ i ts j, phrase i ts x j := by
  induction h with
  | nil => exact List.forall_mem_nil _
  | cons h _ ih => exact List.forall_mem_cons.mpr ⟨⟨_, _, _, h⟩, ih⟩

/-- Functions return no arrays. -/
theorem Grammar.FileDecl.dimensions_nil {i j : Nat} {ts : List Token} {d : External}
    (h : FileDecl i ts d j) {f : Prototype × Option Block} (hf : d.function? = some f) :
    f.1.returnType.dimensions = [] := by
  have hheading {ts : List Token} {p : Prototype} (h : FunHeading ts p) :
      p.returnType.dimensions = [] := by
    cases h
    rfl
  cases h with
  | decl h =>
    cases h with
    | prototype h =>
      cases hf
      exact hheading h
    | _ => cases hf
  | definition h _ _ =>
    cases hf
    exact hheading h

theorem CompilationUnit.mem_functions_of_mem_definitions {u : CompilationUnit} {p : Prototype}
    {body : Block} (h : (p, body) ∈ u.definitions) : (p, some body) ∈ u.functions := by
  obtain ⟨⟨p', body'⟩, hf, hsome⟩ := List.mem_filterMap.mp h
  obtain ⟨b, rfl, hb⟩ := Option.map_eq_some_iff.mp hsome
  cases hb
  exact hf

theorem CompilationUnit.isVoid_iff {ts : List Token} {u : CompilationUnit}
    (h : TranslationUnit ts u) {f : Prototype × Option Block} (hf : f ∈ u.functions) :
    f.1.returnType.isVoid = true ↔ f.1.returnType.base = .void ∧ f.1.returnType.pointers = 0 := by
  obtain ⟨n, hmany⟩ := h
  obtain ⟨d, hd, hfd⟩ := List.mem_filterMap.mp hf
  obtain ⟨_, _, _, hphrase⟩ := hmany.derives_of_mem d hd
  simp [DeclaredType.isVoid, hphrase.dimensions_nil hfd]

theorem CompilationUnit.lacksReturn_iff {ts : List Token} {u : CompilationUnit}
    (h : TranslationUnit ts u) {f : Prototype × Block} (hf : f ∈ u.definitions) :
    lacksReturn f = true ↔
      (f.1.returnType.base ≠ .void ∨ f.1.returnType.pointers ≠ 0) ∧ ¬ f.2.HasLiveReturn := by
  have hvoid := u.isVoid_iff h (u.mem_functions_of_mem_definitions hf)
  rw [lacksReturn, Bool.and_eq_true, Bool.not_eq_true', Bool.not_eq_true', ← Bool.not_eq_true,
    ← Bool.not_eq_true, hvoid, f.2.returnsValue_iff_hasLiveReturn, not_and_or]

/-- The names of functions stand among the positions of a unit. -/
theorem CompilationUnit.functions_sublist (u : CompilationUnit) :
    (u.functions.map fun f => f.1.location).Sublist u.positions := by
  rw [functions, List.filterMap_eq_flatMap_toList, List.map_flatMap]
  refine List.Sublist.flatMap_right _ fun d _ => ?_
  rcases d with (p | v) | ⟨p, body⟩
  · exact List.singleton_sublist.mpr (.head _)
  · exact List.nil_sublist _
  · exact List.singleton_sublist.mpr (.head _)

/-- The ways through the body of a function lead to the statements that a walk through it meets.
A function is reported for a missing return exactly if it is defined, its return type is not `void`
itself, and its body holds no live return of a value; the reports come in the order of the
definitions, each with the name and position of its function. Where tokens stand at different
positions, none of them is at a function that is only declared or returns `void`. -/
theorem check_reports_missing_returns {ts : List Token} {u : CompilationUnit}
    (h : CompilationUnit.ofTokens? ts = .ok u) (returnTypes : Bool) :
    (∀ f ∈ u.definitions, ∀ s, (∃ way, f.2.Leads way s) ↔
        .stmt s ∈ (Node.block f.2).walk fun _ => true) ∧
      ((u.check returnTypes).diagnostics.filter fun d => d.kind = .missingReturn) =
        ((u.definitions.filter fun f =>
          (f.1.returnType.base ≠ .void ∨ f.1.returnType.pointers ≠ 0) ∧
            ¬ f.2.HasLiveReturn).map fun f => .missingReturn f.1.name f.1.location) ∧
      ((ts.map Token.location).Nodup → ∀ f ∈ u.functions,
        f.2 = none ∨ (f.1.returnType.base = .void ∧ f.1.returnType.pointers = 0) →
          ∀ d ∈ (u.check returnTypes).diagnostics, d.kind = .missingReturn →
            d.location? ≠ some f.1.location) := by
  have hunit : TranslationUnit ts u := Parse.translationUnit_of_ofTokens? h
  have hreports : ((u.check returnTypes).diagnostics.filter fun d => d.kind = .missingReturn) =
      missingReturns u.decls := u.check_missingReturns returnTypes
  refine ⟨fun f _ s => f.2.exists_leads_iff s, ?_, ?_⟩
  · rw [hreports, missingReturns]
    refine congrArg _ (List.filter_congr fun f hf => ?_)
    rw [Bool.eq_iff_iff, u.lacksReturn_iff hunit hf, decide_eq_true_iff]
  · intro hts f hf hexcused d hd hkind hlocation
    have hreport : d ∈ missingReturns u.decls := by
      rw [← hreports]
      exact List.mem_filter.mpr ⟨hd, decide_eq_true hkind⟩
    obtain ⟨⟨p, body⟩, hmem, rfl⟩ := List.mem_map.mp hreport
    obtain ⟨hdefined, hlacks⟩ := List.mem_filter.mp hmem
    have hfunction := u.mem_functions_of_mem_definitions hdefined
    have hnodup : (u.functions.map fun f => f.1.location).Nodup :=
      u.functions_sublist.nodup (hunit.marks.nodup hts)
    obtain rfl : (p, some body) = f :=
      List.inj_on_of_nodup_map hnodup hfunction hf (Option.some.inj hlocation)
    rcases hexcused with hnone | hvoid
    · cases hnone
    · have hisVoid := (u.isVoid_iff hunit hfunction).mpr hvoid
      rw [CompilationUnit.lacksReturn, hisVoid] at hlacks
      cases hlacks

/-- The tokens of `int f() { while (1) { break; return 1; } }`, `int g() { { return; } return 2; }`
and `void h();`, a line each. -/
def returnBehindBreakTokens : List Token :=
  [.ofWord .intKw ⟨1, 1⟩, ⟨.identifier "f", ⟨1, 5⟩⟩, .ofMark .leftParen ⟨1, 6⟩,
    .ofMark .rightParen ⟨1, 7⟩, .ofMark .leftBrace ⟨1, 9⟩, .ofWord .whileKw ⟨1, 11⟩,
    .ofMark .leftParen ⟨1, 17⟩, ⟨.intLiteral 1, ⟨1, 18⟩⟩, .ofMark .rightParen ⟨1, 19⟩,
    .ofMark .leftBrace ⟨1, 21⟩, .ofWord .breakKw ⟨1, 23⟩, .ofMark .semicolon ⟨1, 28⟩,
    .ofWord .returnKw ⟨1, 30⟩, ⟨.intLiteral 1, ⟨1, 37⟩⟩, .ofMark .semicolon ⟨1, 38⟩,
    .ofMark .rightBrace ⟨1, 40⟩, .ofMark .rightBrace ⟨1, 42⟩,
    .ofWord .intKw ⟨2, 1⟩, ⟨.identifier "g", ⟨2, 5⟩⟩, .ofMark .leftParen ⟨2, 6⟩,
    .ofMark .rightParen ⟨2, 7⟩, .ofMark .leftBrace ⟨2, 9⟩, .ofMark .leftBrace ⟨2, 11⟩,
    .ofWord .returnKw ⟨2, 13⟩, .ofMark .semicolon ⟨2, 19⟩, .ofMark .rightBrace ⟨2, 21⟩,
    .ofWord .returnKw ⟨2, 23⟩, ⟨.intLiteral 2, ⟨2, 30⟩⟩, .ofMark .semicolon ⟨2, 31⟩,
    .ofMark .rightBrace ⟨2, 33⟩,
    .ofWord .voidKw ⟨3, 1⟩, ⟨.identifier "h", ⟨3, 6⟩⟩, .ofMark .leftParen ⟨3, 7⟩,
    .ofMark .rightParen ⟨3, 8⟩, .ofMark .semicolon ⟨3, 9⟩]

/-- The loop of `f`, in which the return stands behind the jump. -/
def returnBehindBreak : Stmt :=
  .whileLoop (.literal ⟨0, ⟨1, 18⟩⟩ (.int 1))
    (.mk [] [.jump .breakLoop ⟨1, 23⟩, .returnStmt (some (.literal ⟨1, ⟨1, 37⟩⟩ (.int 1))) ⟨1, 30⟩]
      ⟨1, 21⟩) ⟨1, 11⟩

/-- The unit that the three lines are read as. -/
def returnBehindBreakUnit : CompilationUnit :=
  ⟨[.definition ⟨⟨.int, false, 0, []⟩, "f", [], false, .none, ⟨1, 5⟩⟩
      (.mk [] [returnBehindBreak] ⟨1, 9⟩),
    .definition ⟨⟨.int, false, 0, []⟩, "g", [], false, .none, ⟨2, 5⟩⟩
      (.mk [] [.block (.mk [] [.returnStmt none ⟨2, 13⟩] ⟨2, 11⟩),
        .returnStmt (some (.literal ⟨2, ⟨2, 30⟩⟩ (.int 2))) ⟨2, 23⟩] ⟨2, 9⟩),
    .decl (.function ⟨⟨.void, false, 0, []⟩, "h", [], false, .none, ⟨3, 6⟩⟩)]⟩

/-- A return behind a jump is dead, and one behind a block that returns is live. -/
theorem check_reports_missing_returns_behindBreak :
    CompilationUnit.ofTokens? returnBehindBreakTokens = .ok returnBehindBreakUnit ∧
      (returnBehindBreakTokens.map Token.location).Nodup ∧
      ((returnBehindBreakUnit.check true).diagnostics.filter fun d => d.kind = .missingReturn) =
        [.missingReturn "f" ⟨1, 5⟩] ∧
      ∀ d ∈ (returnBehindBreakUnit.check true).diagnostics, d.kind = .missingReturn →
        d.location? ≠ some ⟨3, 6⟩ := by
  have hparse : CompilationUnit.ofTokens? returnBehindBreakTokens = .ok returnBehindBreakUnit := by
    cbv
  have hnodup : (returnBehindBreakTokens.map Token.location).Nodup := by decide +kernel
  obtain ⟨-, hreports, hexcused⟩ := check_reports_missing_returns hparse true
  refine ⟨hparse, hnodup, hreports.trans rfl, ?_⟩
  exact hexcused hnodup ⟨⟨⟨.void, false, 0, []⟩, "h", [], false, .none, ⟨3, 6⟩⟩, none⟩
    (.tail _ (.tail _ (.head _))) (.inl rfl)

end CSubset
