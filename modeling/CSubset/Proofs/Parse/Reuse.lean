-- SUMMARY: A parser that is called again reads what a fresh parser would read of the remaining tokens.
import CSubset.Proofs.Parse.Concatenation
import CSubset.Proofs.Parse.Readings

/-!
# Calling a parser again

A parser keeps all its tokens, its position among them and the number of the next node, also where a
call has failed in the middle of a declaration. `Parser.call_eq` says that nothing else of a call is
left for the next one: it takes the course of a fresh parser on the remaining tokens, with numbers
that go on. Only the report of an early end looks at tokens that have been passed, for the last one,
and that is also the last of those that remain.
-/

namespace CSubset

/-- A parser between its calls: all its tokens, how many of them it has passed, and the number of
the next node. -/
structure Parser where
  tokens : List Token
  position : Nat
  nextId : Nat
  within : position ≤ tokens.length

namespace Parser

/-- A parser that has not been called yet. -/
def new (ts : List Token) : Parser := ⟨ts, 0, 0, Nat.zero_le _⟩

/-- The tokens that have not been passed. -/
def rest (p : Parser) : List Token := p.tokens.drop p.position

/-- Where the parser stands. -/
def cursor (p : Parser) : Cursor := ⟨p.rest, p.nextId⟩

/-- Reads declarations up to the end of the tokens or to the first failure, which is reported as one
among all tokens. The parser then stands where the reading has stopped. -/
def call (p : Parser) : Except SyntaxError CompilationUnit × Parser :=
  let r := Reading.from p.cursor
  (r.result p.tokens,
    ⟨p.tokens, p.tokens.length - r.cursor.rest.length, r.cursor.nextId, Nat.sub_le _ _⟩)

/-- The parser after so many calls. -/
def afterCalls (p : Parser) : Nat → Parser
  | 0 => p
  | n + 1 => (p.afterCalls n).call.2

/-- A fresh parser on the tokens that have not been passed. -/
def fresh (p : Parser) : Parser := new p.rest

variable {p q : Parser}

theorem length_rest (p : Parser) : p.rest.length = p.tokens.length - p.position :=
  List.length_drop ..

/-! ## One call -/

/-- What a reading leaves of the tokens stands at their end. -/
theorem from_suffix (c : Cursor) : (Reading.from c).cursor.rest <:+ c.rest := by
  obtain ⟨es, ⟨ts, hts, -⟩, -⟩ := Parse.reading_completes c
  exact ⟨ts, hts.symm⟩

theorem rest_eq_nil_of_ok {c : Cursor} {tokens : List Token} {u : CompilationUnit}
    (h : (Reading.from c).result tokens = .ok u) : (Reading.from c).cursor.rest = [] := by
  obtain ⟨es, -, hlast⟩ := Parse.reading_completes c
  refine (hlast ?_).2
  simp only [Reading.result] at h
  split at h
  · assumption
  · cases h

theorem cursor_call (p : Parser) : p.call.2.cursor = (Reading.from p.cursor).cursor := by
  have hsuffix : (Reading.from p.cursor).cursor.rest <:+ p.tokens :=
    (from_suffix p.cursor).trans (List.drop_suffix ..)
  have hrest : p.call.2.rest = (Reading.from p.cursor).cursor.rest :=
    (List.suffix_iff_eq_drop.mp hsuffix).symm
  rw [cursor, hrest]
  rfl

/-- A reading from a later number on gives the same unit with later numbers, or the same report. -/
theorem result_shift (ts tokens : List Token) (n : Nat) :
    (Reading.from ⟨ts, n⟩).result tokens =
      ((Reading.from (.ofTokens ts)).result tokens).map (CompilationUnit.relabel (.shift n)) := by
  have hrest : ((Reading.from (.ofTokens ts)).cursor.relabel (.shift n)).rest =
      (Reading.from (.ofTokens ts)).cursor.rest := List.map_id _
  rw [Reading.from_shift]
  simp only [Reading.result, Reading.relabel, hrest]
  cases (Reading.from (.ofTokens ts)).failure with
  | none => rfl
  | some complaint =>
    rw [Option.map_some, Complaint.relabel_shift]
    rfl

/-- Tokens that have been passed make no difference to a report. -/
theorem result_append (front ts : List Token) :
    (Reading.from (.ofTokens ts)).result (front ++ ts) =
      (Reading.from (.ofTokens ts)).result ts := by
  simp only [Reading.result]
  cases hf : (Reading.from (.ofTokens ts)).failure with
  | none => rfl
  | some complaint =>
    exact congrArg Except.error (complaint.report_append _ front (Reading.ne_nil_of_failure hf))

/-- A call is that of a fresh parser on the remaining tokens, from the parser's position and number
on. -/
theorem call_eq (p : Parser) :
    p.call.1 = p.fresh.call.1.map (CompilationUnit.relabel (.shift p.nextId)) ∧
      p.call.2.position = p.position + p.fresh.call.2.position ∧
      p.call.2.nextId = p.nextId + p.fresh.call.2.nextId := by
  have hshift : Reading.from p.cursor = (Reading.from p.fresh.cursor).relabel (.shift p.nextId) :=
    Reading.from_shift p.rest p.nextId
  refine ⟨?_, ?_, ?_⟩
  · have hreport := result_append (p.tokens.take p.position) p.rest
    rw [rest, List.take_append_drop] at hreport
    exact (result_shift p.rest p.tokens p.nextId).trans (congrArg (Except.map _) hreport)
  · have hlength : (Reading.from p.cursor).cursor.rest.length =
        (Reading.from p.fresh.cursor).cursor.rest.length := by
      rw [hshift]
      exact List.length_map _
    have hle := (from_suffix p.fresh.cursor).length_le
    have hrest := p.length_rest
    have hwithin := p.within
    change p.tokens.length - _ = p.position + (p.rest.length - _)
    replace hle : (Reading.from p.fresh.cursor).cursor.rest.length ≤ p.rest.length := hle
    omega
  · have hid : (Reading.from p.cursor).cursor.nextId =
        (Reading.from p.fresh.cursor).cursor.nextId + p.nextId := by
      rw [hshift]
      rfl
    exact hid.trans (Nat.add_comm _ _)

/-- At the end of the tokens there is nothing to read. -/
theorem call_of_rest_eq_nil (h : p.rest = []) :
    p.call.1 = .ok ⟨[]⟩ ∧ p.call.2.rest = [] := by
  have hcursor : Reading.from p.cursor = ⟨[], none, p.cursor⟩ := by
    rw [Reading.from_eq, cursor, h]
    rfl
  refine ⟨?_, ?_⟩
  · simp only [call, hcursor, Reading.result]
  · have hcall := congrArg Cursor.rest p.cursor_call
    rw [hcursor] at hcall
    exact hcall.trans h

theorem call_error_iff {e : SyntaxError} : p.call.1 = .error e ↔ p.fresh.call.1 = .error e := by
  rw [p.call_eq.1]
  cases p.fresh.call.1 <;> simp [Except.map]

/-- A parser with the same tokens ahead fails alike and gets as far. -/
theorem call_error_congr (h : p.rest = q.rest) {e : SyntaxError} (hp : p.call.1 = .error e)
    (hstay : p.call.2.position = p.position) :
    q.call.1 = .error e ∧ q.call.2.position = q.position := by
  have hfresh : p.fresh = q.fresh := congrArg new h
  refine ⟨call_error_iff.mpr (hfresh ▸ call_error_iff.mp hp), ?_⟩
  have hq := q.call_eq.2.1
  have hp' := p.call_eq.2.1
  rw [hfresh] at hp'
  omega

/-! ## Several calls -/

theorem tokens_afterCalls (p : Parser) (n : Nat) : (p.afterCalls n).tokens = p.tokens := by
  induction n with
  | zero => rfl
  | succ n ih => exact ih

theorem afterCalls_add (p : Parser) (m n : Nat) :
    p.afterCalls (m + n) = (p.afterCalls m).afterCalls n := by
  induction n with
  | zero => rfl
  | succ n ih => exact congrArg (fun q => q.call.2) ih

/-- Behind the end of the tokens every call returns a unit without declarations. -/
theorem calls_of_rest_eq_nil (h : p.rest = []) (n : Nat) :
    (p.afterCalls n).call.1 = .ok ⟨[]⟩ := by
  have hrest : (p.afterCalls n).rest = [] := by
    induction n with
    | zero => exact h
    | succ n ih => exact (call_of_rest_eq_nil ih).2
  exact (call_of_rest_eq_nil hrest).1

/-- A call that fails on the spot is repeated by all later ones. -/
theorem calls_of_error {e : SyntaxError} (h : p.call.1 = .error e)
    (hstay : p.call.2.position = p.position) (n : Nat) :
    (p.afterCalls n).call.1 = .error e := by
  have hposition : (p.afterCalls n).position = p.position ∧
      (p.afterCalls n).call.1 = .error e ∧
      (p.afterCalls n).call.2.position = (p.afterCalls n).position := by
    induction n with
    | zero => exact ⟨rfl, h, hstay⟩
    | succ n ih =>
      obtain ⟨hsame, -, hn⟩ := ih
      have hsucc : (p.afterCalls (n + 1)).position = p.position := hn.trans hsame
      refine ⟨hsucc, call_error_congr ?_ h hstay⟩
      rw [rest, rest, hsucc, p.tokens_afterCalls]
  exact hposition.2.1

/-- The running parser keeps no more than the tokens ahead, which makes no difference. -/
theorem cursor_afterCalls (ts : List Token) (n : Nat) :
    ((new ts).afterCalls n).cursor = (Cursor.ofTokens ts).afterReadings n := by
  induction n with
  | zero => rfl
  | succ n ih =>
    rw [afterCalls, cursor_call, ih]
    rfl

theorem readUnit_cursor (p : Parser) : p.cursor.readUnit.1 = p.call.1 :=
  (result_shift p.rest p.rest p.nextId).trans p.call_eq.1.symm

end Parser

/-- A parser on a list of tokens is called any number of times. Each call returns what a fresh
parser on the tokens from its position on returns, its nodes numbered from the parser's number on,
or the same syntax error, and moves the parser on as far as it moves the fresh one; and so does a
reading from the cursor there. The position never decreases and stays within the list. After a call
that returns a unit all later ones return a unit without declarations, and after one that fails
where it starts all later ones fail with the same error. -/
theorem calls_read_remaining (ts : List Token) (n : Nat) :
    let p := (Parser.new ts).afterCalls n
    let remaining := ts.drop p.position
    p.call.1 = (CompilationUnit.ofTokens? remaining).map
        (CompilationUnit.relabel (.shift p.nextId)) ∧
      p.call.2.position = p.position + (Parser.new remaining).call.2.position ∧
      p.call.2.nextId = p.nextId + (Parser.new remaining).call.2.nextId ∧
      ((Cursor.ofTokens ts).afterReadings n).rest = remaining ∧
      ((Cursor.ofTokens ts).afterReadings n).readUnit.1 = p.call.1 ∧
      p.position ≤ p.call.2.position ∧ p.call.2.position ≤ ts.length ∧
      (∀ u, p.call.1 = .ok u →
        ∀ m, n < m → ((Parser.new ts).afterCalls m).call.1 = .ok ⟨[]⟩) ∧
      ∀ e, p.call.1 = .error e → p.call.2.position = p.position →
        ∀ m, n < m → ((Parser.new ts).afterCalls m).call.1 = .error e := by
  intro p remaining
  have htokens : p.tokens = ts := (Parser.new ts).tokens_afterCalls n
  have hrest : p.rest = remaining := congrArg (List.drop p.position) htokens
  have hfresh : p.fresh = Parser.new remaining := congrArg Parser.new hrest
  obtain ⟨hresult, hposition, hnumber⟩ := p.call_eq
  rw [hfresh] at hresult hposition hnumber
  have hcursor := Parser.cursor_afterCalls ts n
  have hlater (m : Nat) (hm : n < m) :
      (Parser.new ts).afterCalls m = p.call.2.afterCalls (m - (n + 1)) := by
    have hsum := (Parser.new ts).afterCalls_add (n + 1) (m - (n + 1))
    rwa [Nat.add_sub_of_le hm] at hsum
  refine ⟨hresult, hposition, hnumber, ?_, ?_, ?_, ?_, ?_, ?_⟩
  · rw [← hcursor, ← hrest]
    rfl
  · rw [← hcursor]
    exact p.readUnit_cursor
  · exact Nat.le.intro hposition.symm
  · rw [← htokens]
    exact p.call.2.within
  · intro u hu m hm
    have hend : p.call.2.rest = [] :=
      (congrArg Cursor.rest p.cursor_call).trans (Parser.rest_eq_nil_of_ok hu)
    rw [hlater m hm]
    exact Parser.calls_of_rest_eq_nil hend _
  · intro e he hstay m hm
    have hsame : p.call.2.rest = p.rest := by
      rw [Parser.rest, hstay]
      rfl
    obtain ⟨he', hstay'⟩ := Parser.call_error_congr hsame.symm he hstay
    rw [hlater m hm]
    exact Parser.calls_of_error he' hstay' _

/-- The first call stops at the second `int` of `int a = ("x" "y") + int b = -2;`, the second goes
on there as a fresh parser would, with its numbers moved by one, and the third finds nothing. -/
theorem calls_read_remaining_resumed :
    ((Parser.new brokenInitializerTokens).afterCalls 1).position = 8 ∧
      ((Parser.new brokenInitializerTokens).afterCalls 1).call.1 =
        (CompilationUnit.ofTokens? (brokenInitializerTokens.drop 8)).map
          (CompilationUnit.relabel (.shift 1)) ∧
      ((Parser.new brokenInitializerTokens).afterCalls 1).call.1 =
        .ok initializedNegationUnit ∧
      ((Parser.new brokenInitializerTokens).afterCalls 2).call.1 = .ok ⟨[]⟩ := by
  have hposition : ((Parser.new brokenInitializerTokens).afterCalls 1).position = 8 := by cbv
  have hnumber : ((Parser.new brokenInitializerTokens).afterCalls 1).nextId = 1 := by cbv
  have hread : ((Parser.new brokenInitializerTokens).afterCalls 1).call.1 =
      .ok initializedNegationUnit := by cbv
  obtain ⟨hresult, -, -, -, -, -, -, hend, -⟩ := calls_read_remaining brokenInitializerTokens 1
  rw [hposition, hnumber] at hresult
  exact ⟨hposition, hresult, hread, hend _ hread 2 (by decide)⟩

end CSubset
