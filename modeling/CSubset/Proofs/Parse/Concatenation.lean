-- SUMMARY: Tokens of a unit in front of others are parsed as that unit, with what the others are behind it.
import Mathlib.Tactic
import CSubset.Proofs.Grammar.Numbering
import CSubset.Proofs.Parse.Exactness
import CSubset.Proofs.Relabeling.Parse

/-!
# Units one behind the other

A declaration is complete with its last token, and nothing behind it changes how it is read. So
the tokens of a unit can stand in front of any others: first the declarations of that unit are
read, and then reading goes on with the other tokens as if they stood alone, except that numbers
go on as well. What the parser objects to in the other tokens it objects to in both together, as
the end of both is the end of the others.
-/

namespace CSubset

open Grammar

/-! ## Numbers that go on -/

/-- Numbers that begin later by `n`; positions stay. -/
def Relabeling.shift (n : Nat) : Relabeling := ⟨(· + n), id⟩

theorem Relabeling.shift_counts (n : Nat) : (shift n).Counts := fun i => Nat.succ_add i n

/-- A complaint bears no numbers. -/
theorem Complaint.relabel_shift (complaint : Complaint) (n : Nat) :
    complaint.relabel (.shift n) = complaint := by
  cases complaint <;> rfl

theorem Cursor.ofTokens_shift (ts : List Token) (n : Nat) :
    (ofTokens ts).relabel (.shift n) = ⟨ts, n⟩ := by
  have hts : ts.map (Token.relabel (.shift n)) = ts := List.map_id ts
  have hn : (Relabeling.shift n).number 0 = n := Nat.zero_add n
  rw [ofTokens, relabel, hts, hn]

/-- Reading from a later number on takes the same course. -/
theorem Reading.from_shift (ts : List Token) (n : Nat) :
    Reading.from ⟨ts, n⟩ = (Reading.from (.ofTokens ts)).relabel (.shift n) := by
  rw [← Reading.from_relabel (Relabeling.shift_counts n), Cursor.ofTokens_shift]

/-- The numbers of a parsed unit end where the walk through it has met all expressions. -/
theorem CompilationUnit.numbered {ts : List Token} {u : CompilationUnit} {n : Nat}
    (h : Many FileDecl 0 ts u.decls n) :
    n = (((Node.unit u).walk fun _ => true).filterMap Node.expr?).length := by
  have hcount := (h.completes fun _ _ _ _ hd => hd.completes).carries.count
  have hwalk : (((Node.unit u).walk fun _ => true).filterMap Node.expr?).length =
      (u.exprs.flatMap Expr.nodes).length := (Walk.found_unit_perm u).length_eq
  rw [hwalk, hcount, Nat.zero_add]
  rfl

/-! ## Concatenation -/

/-- Tokens in front move the end of the input only if nothing stands behind them. -/
theorem Complaint.report_append (complaint : Complaint) (rest front : List Token) {ts : List Token}
    (hts : ts ≠ []) : complaint.report rest (front ++ ts) = complaint.report rest ts := by
  have hlast : (front ++ ts).getLast? = ts.getLast? := by
    rw [List.getLast?_append, List.getLast?_eq_some_getLast hts, Option.some_or]
  cases complaint with
  | functionParameter => rfl
  | _ =>
    cases rest with
    | nil => simp only [report, hlast]
    | cons t rest => rfl

/-- A list that does not form a unit is not empty. -/
theorem Reading.ne_nil_of_failure {ts : List Token} {complaint : Complaint}
    (h : (Reading.from (.ofTokens ts)).failure = some complaint) : ts ≠ [] := by
  rintro rfl
  rw [Reading.from_eq] at h
  cases h

/-- The tokens `s` of a unit `u` with `n` expression nodes can stand in front of any tokens `t`. If
those form a unit, both together form the declarations of the two units, those of the second with
numbers increased by `n`; and if those are objected to, so are both together, in the same words and
at the same position. -/
theorem ofTokens?_append {s : List Token} {u : CompilationUnit}
    (h : CompilationUnit.ofTokens? s = .ok u) (t : List Token) :
    let n := (((Node.unit u).walk fun _ => true).filterMap Node.expr?).length
    (∀ v, CompilationUnit.ofTokens? t = .ok v →
      CompilationUnit.ofTokens? (s ++ t) = .ok ⟨u.decls ++ (v.relabel (.shift n)).decls⟩) ∧
    ∀ e, CompilationUnit.ofTokens? t = .error e →
      CompilationUnit.ofTokens? (s ++ t) = .error e := by
  intro n
  obtain ⟨m, hs⟩ := Parse.translationUnit_of_ofTokens? h
  obtain rfl : m = n := CompilationUnit.numbered hs
  -- reading both together is reading `t` from the number `n` on, behind the declarations of `u`
  have hread : Reading.from (.ofTokens (s ++ t)) =
      { (Reading.from (.ofTokens t)).relabel (.shift n) with
        decls := u.decls ++
          (Reading.from (.ofTokens t)).decls.map (External.relabel (.shift n)) } := by
    rw [Cursor.ofTokens, Parse.reading_append t hs, Reading.from_shift t n]
    rfl
  simp only [CompilationUnit.ofTokens?, Cursor.readUnit, Reading.result, hread, Reading.relabel]
  cases hf : (Reading.from (.ofTokens t)).failure with
  | none =>
    refine ⟨fun v hv => ?_, fun e he => ?_⟩
    · cases hv
      rfl
    · cases he
  | some complaint =>
    refine ⟨fun v hv => ?_, fun e he => ?_⟩
    · cases hv
    · cases he
      have hrest : ((Reading.from (.ofTokens t)).cursor.relabel (.shift n)).rest =
          (Reading.from (.ofTokens t)).cursor.rest := List.map_id _
      rw [Option.map_some, Complaint.relabel_shift, hrest]
      exact congrArg _ (complaint.report_append _ s (Reading.ne_nil_of_failure hf))

/-- The tokens of `int a = 1 + 2;`. -/
def initializedSumTokens : List Token :=
  [.ofWord .intKw ⟨1, 1⟩, ⟨.identifier "a", ⟨1, 5⟩⟩, .ofMark .assign ⟨1, 7⟩,
    ⟨.intLiteral 1, ⟨1, 9⟩⟩, .ofMark .plus ⟨1, 11⟩, ⟨.intLiteral 2, ⟨1, 13⟩⟩,
    .ofMark .semicolon ⟨1, 14⟩]

/-- The unit that `int a = 1 + 2;` is read as. -/
def initializedSumUnit : CompilationUnit :=
  ⟨[.decl (.var ⟨⟨.int, false, 0, []⟩, "a",
    some (.binary ⟨2, ⟨1, 11⟩⟩ (.arith .add) (.literal ⟨0, ⟨1, 9⟩⟩ (.int 1))
      (.literal ⟨1, ⟨1, 13⟩⟩ (.int 2))), .none, ⟨1, 5⟩⟩)]⟩

/-- Behind the three nodes of `int a = 1 + 2;` the node of `int b = a;` has the number 3, and
`int b =` still ends too early. -/
theorem ofTokens?_append_initializedSum :
    CompilationUnit.ofTokens? initializedSumTokens = .ok initializedSumUnit ∧
      CompilationUnit.ofTokens? (initializedSumTokens ++
        [.ofWord .intKw ⟨2, 1⟩, ⟨.identifier "b", ⟨2, 5⟩⟩, .ofMark .assign ⟨2, 7⟩,
          ⟨.identifier "a", ⟨2, 9⟩⟩, .ofMark .semicolon ⟨2, 10⟩]) =
        .ok ⟨initializedSumUnit.decls ++
          [.decl (.var ⟨⟨.int, false, 0, []⟩, "b", some (.ident ⟨3, ⟨2, 9⟩⟩ "a"), .none,
            ⟨2, 5⟩⟩)]⟩ ∧
      CompilationUnit.ofTokens? (initializedSumTokens ++
        [.ofWord .intKw ⟨2, 1⟩, ⟨.identifier "b", ⟨2, 5⟩⟩, .ofMark .assign ⟨2, 7⟩]) =
        .error ⟨"Expected expression", "EOF", some ⟨2, 7⟩⟩ := by
  have hparse : CompilationUnit.ofTokens? initializedSumTokens = .ok initializedSumUnit := by
    cbv
  exact ⟨hparse, (ofTokens?_append hparse _).1
      ⟨[.decl (.var ⟨⟨.int, false, 0, []⟩, "b", some (.ident ⟨0, ⟨2, 9⟩⟩ "a"), .none, ⟨2, 5⟩⟩)]⟩
      (by cbv),
    (ofTokens?_append hparse _).2 _ (by cbv)⟩

end CSubset
