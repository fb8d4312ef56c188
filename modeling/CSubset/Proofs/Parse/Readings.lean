-- SUMMARY: Units that are read one behind the other share one numbering of their nodes, in post-order.
import Mathlib.Tactic
import CSubset.Proofs.Parse.Progress

/-!
# Numbers over several readings

Where a reading stops another one can go on, with the next tokens and the next number. Each reading
gives out the numbers from its start to the start of the next one, all of them to nodes of
expressions that it has completed; if it does not fail, those are the expressions of its unit. So
the numbers of all readings together are one increasing sequence, and no number is given out twice.
-/

namespace CSubset

open Grammar Parse

namespace Cursor

/-- Where a parser stands after so many readings from `c` on. -/
def afterReadings (c : Cursor) : Nat → Cursor
  | 0 => c
  | n + 1 => (c.afterReadings n).readUnit.2

/-- The units among so many readings from `c` on; the other readings fail. -/
def unitsOf (c : Cursor) (n : Nat) : List CompilationUnit :=
  (List.range n).filterMap fun k => (c.afterReadings k).readUnit.1.toOption

/-- Expressions that one reading from `c` on completes, whether it fails or not. They account for
all tokens that are read and for all numbers that are given out. -/
def CompletesIn (c : Cursor) (es : List Expr) : Prop := c.Spans Completes es c.readUnit.2

/-! ## One reading -/

variable {c : Cursor} {u : CompilationUnit} {es : List Expr}

theorem readUnit_eq_ok (h : c.readUnit.1 = .ok u) :
    (Reading.from c).failure = none ∧ u.decls = (Reading.from c).decls := by
  simp only [readUnit, Reading.result] at h
  cases hf : (Reading.from c).failure with
  | none =>
    rw [hf] at h
    cases h
    exact ⟨rfl, rfl⟩
  | some complaint =>
    rw [hf] at h
    cases h

/-- Besides the expressions of the declarations before a failure there may be some in the
declaration that fails. -/
theorem exists_completesIn (c : Cursor) :
    ∃ es, c.CompletesIn ((Reading.from c).decls.flatMap External.exprs ++ es) := by
  obtain ⟨es, hes, -⟩ := reading_completes c
  exact ⟨es, hes⟩

theorem completesIn_of_ok (h : c.readUnit.1 = .ok u) : c.CompletesIn u.exprs := by
  obtain ⟨hnone, hdecls⟩ := readUnit_eq_ok h
  obtain ⟨es, hes, hlast⟩ := reading_completes c
  obtain ⟨rfl, -⟩ := hlast hnone
  rw [List.append_nil, ← hdecls] at hes
  exact hes

theorem CompletesIn.carries (h : c.CompletesIn es) : ∃ ts,
    Carries c.nextId ts (es.flatMap Expr.nodes) c.readUnit.2.nextId := by
  obtain ⟨ts, -, hes⟩ := h
  exact ⟨ts, hes.carries⟩

theorem CompletesIn.ids (h : c.CompletesIn es) :
    (es.flatMap Expr.nodes).map Expr.id =
      List.range' c.nextId (es.flatMap Expr.nodes).length := by
  obtain ⟨ts, hcarries⟩ := h.carries
  exact hcarries.ids

theorem CompletesIn.count (h : c.CompletesIn es) :
    c.readUnit.2.nextId = c.nextId + (es.flatMap Expr.nodes).length := by
  obtain ⟨ts, hcarries⟩ := h.carries
  exact hcarries.count

theorem CompletesIn.id_lt (h : c.CompletesIn es) {e : Expr} (he : e ∈ es.flatMap Expr.nodes) :
    c.nextId ≤ e.id ∧ e.id < c.readUnit.2.nextId := by
  have hid : e.id ∈ (es.flatMap Expr.nodes).map Expr.id := List.mem_map_of_mem he
  rw [h.ids, List.mem_range'_1] at hid
  rw [h.count]
  exact hid

theorem CompletesIn.increasing (h : c.CompletesIn es) :
    ((es.flatMap Expr.nodes).map Expr.id).Pairwise (· < ·) := by
  rw [h.ids]
  exact List.pairwise_lt_range'

/-- A node is complete behind its parts, and so has a greater number. -/
theorem CompletesIn.child_lt (h : c.CompletesIn es) {e d : Expr}
    (he : e ∈ es.flatMap Expr.nodes) (hd : d ∈ e.children) : d.id < e.id := by
  obtain ⟨r, hr, her⟩ := List.mem_flatMap.mp he
  have hpair := ((Expr.pair_sublist_nodes her hd).trans (sublist_flatMap_of_mem hr)).map Expr.id
  exact List.rel_of_pairwise_cons (h.increasing.sublist hpair) (List.mem_singleton_self _)

/-! ## Several readings -/

theorem nextId_le_readUnit (c : Cursor) : c.nextId ≤ c.readUnit.2.nextId := by
  obtain ⟨es, hes⟩ := c.exists_completesIn
  exact Nat.le.intro hes.count.symm

theorem nextId_mono (c : Cursor) : Monotone fun n => (c.afterReadings n).nextId :=
  monotone_nat_of_le_succ fun n => (c.afterReadings n).nextId_le_readUnit

theorem id_lt_of_completesIn {m n : Nat} (hmn : m < n) (h : (c.afterReadings m).CompletesIn es)
    {e : Expr} (he : e ∈ es.flatMap Expr.nodes) : e.id < (c.afterReadings n).nextId :=
  Nat.lt_of_lt_of_le (h.id_lt he).2 (c.nextId_mono (Nat.succ_le_of_lt hmn))

theorem mem_unitsOf {n : Nat} :
    u ∈ c.unitsOf n ↔ ∃ k < n, (c.afterReadings k).readUnit.1 = .ok u := by
  simp only [unitsOf, List.mem_filterMap, List.mem_range]
  refine exists_congr fun k => and_congr_right fun _ => ?_
  cases (c.afterReadings k).readUnit.1 <;> simp [Except.toOption]

/-- The numbers in all units together increase from each to the next. -/
theorem unitsOf_increasing (c : Cursor) (n : Nat) :
    (((c.unitsOf n).flatMap fun u => u.exprs.flatMap Expr.nodes).map Expr.id).Pairwise (· < ·) := by
  induction n with
  | zero => exact .nil
  | succ n ih =>
    have hsplit : c.unitsOf (n + 1) =
        c.unitsOf n ++ (c.afterReadings n).readUnit.1.toOption.toList := by
      rw [unitsOf, List.range_succ, List.filterMap_append, List.filterMap_cons]
      cases (c.afterReadings n).readUnit.1.toOption <;> rfl
    rw [hsplit, List.flatMap_append, List.map_append]
    cases h : (c.afterReadings n).readUnit.1 with
    | error e => simpa [Except.toOption] using ih
    | ok u =>
      have hu := completesIn_of_ok h
      have hlast : (Except.toOption (.ok u : Except SyntaxError CompilationUnit)).toList.flatMap
          (fun u => u.exprs.flatMap Expr.nodes) = u.exprs.flatMap Expr.nodes :=
        List.flatMap_singleton ..
      rw [hlast]
      refine List.pairwise_append.mpr ⟨ih, hu.increasing, ?_⟩
      intro i hi j hj
      obtain ⟨d, hd, rfl⟩ := List.mem_map.mp hi
      obtain ⟨e, he, rfl⟩ := List.mem_map.mp hj
      obtain ⟨v, hv, hd⟩ := List.mem_flatMap.mp hd
      obtain ⟨k, hk, hv⟩ := mem_unitsOf.mp hv
      have hbefore := id_lt_of_completesIn hk (completesIn_of_ok hv) hd
      exact Nat.lt_of_lt_of_le hbefore (hu.id_lt he).1

end Cursor

/-- A list of tokens is read several times, each time going on where the last reading has stopped.
The nodes of a unit are listed part by part: each behind its parts, expression by expression in the
order of a walk. In that order they have the numbers from the start of their reading on, one by one
and up to the start of the next reading. What a failing reading has given numbers to are also nodes
of completed expressions, first of all those of the declarations before the failure. So parts have
smaller numbers than what they are parts of, later readings start above all numbers given out by
then, and over all units the numbers increase. -/
theorem readings_number_nodes (ts : List Token) :
    let start := (Cursor.ofTokens ts).afterReadings
    (∀ n u, (start n).readUnit.1 = .ok u → (start n).CompletesIn u.exprs ∧
        ((Node.unit u).walk fun n => n.expr?.isNone).filterMap Node.expr? = u.exprs) ∧
      (∀ e : Expr, e.nodes = e.children.flatMap Expr.nodes ++ [e]) ∧
      (∀ n, ∃ es, (start n).CompletesIn
        ((Reading.from (start n)).decls.flatMap External.exprs ++ es)) ∧
      (∀ n es, (start n).CompletesIn es →
        (es.flatMap Expr.nodes).map Expr.id =
            List.range' (start n).nextId (es.flatMap Expr.nodes).length ∧
          (start (n + 1)).nextId = (start n).nextId + (es.flatMap Expr.nodes).length ∧
          ∀ e ∈ es.flatMap Expr.nodes,
            (∀ d ∈ e.children, d.id < e.id) ∧ ∀ k, n < k → e.id < (start k).nextId) ∧
      ∀ n, ((((Cursor.ofTokens ts).unitsOf n).flatMap fun u =>
        u.exprs.flatMap Expr.nodes).map Expr.id).Pairwise (· < ·) := by
  intro start
  refine ⟨fun n u h => ⟨Cursor.completesIn_of_ok h, Walk.found_unit_outermost u⟩, Expr.nodes_eq,
    fun n => (start n).exists_completesIn, fun n es h => ⟨h.ids, h.count, fun e he => ?_⟩,
    (Cursor.ofTokens ts).unitsOf_increasing⟩
  exact ⟨fun d hd => h.child_lt he hd, fun k hk => Cursor.id_lt_of_completesIn hk h he⟩

/-- The tokens of `int a = ("x" "y") + int b = -2;`. -/
def brokenInitializerTokens : List Token :=
  [.ofWord .intKw ⟨1, 1⟩, ⟨.identifier "a", ⟨1, 5⟩⟩, .ofMark .assign ⟨1, 7⟩,
    .ofMark .leftParen ⟨1, 9⟩, ⟨.stringLiteral "x", ⟨1, 10⟩⟩, ⟨.stringLiteral "y", ⟨1, 14⟩⟩,
    .ofMark .rightParen ⟨1, 17⟩, .ofMark .plus ⟨1, 19⟩,
    .ofWord .intKw ⟨1, 21⟩, ⟨.identifier "b", ⟨1, 25⟩⟩, .ofMark .assign ⟨1, 27⟩,
    .ofMark .minus ⟨1, 29⟩, ⟨.intLiteral 2, ⟨1, 30⟩⟩, .ofMark .semicolon ⟨1, 31⟩]

/-- The unit that `int b = -2;` is read as where one number has been given out. -/
def initializedNegationUnit : CompilationUnit :=
  ⟨[.decl (.var ⟨⟨.int, false, 0, []⟩, "b",
    some (.unary ⟨2, ⟨1, 29⟩⟩ .negate (.literal ⟨1, ⟨1, 30⟩⟩ (.int 2))), .none, ⟨1, 25⟩⟩)]⟩

/-- The first reading fails at the second `int`, with one number given to the text in parentheses;
the second reading goes on with the next two. -/
theorem readings_number_nodes_resumed :
    ((Cursor.ofTokens brokenInitializerTokens).afterReadings 0).readUnit.1 =
        .error ⟨"Expected expression", "int", some ⟨1, 21⟩⟩ ∧
      ((Cursor.ofTokens brokenInitializerTokens).afterReadings 1).readUnit.1 =
        .ok initializedNegationUnit ∧
      (initializedNegationUnit.exprs.flatMap Expr.nodes).map Expr.id = List.range' 1 2 ∧
      ((Cursor.ofTokens brokenInitializerTokens).afterReadings 2).nextId = 3 := by
  have hread : ((Cursor.ofTokens brokenInitializerTokens).afterReadings 1).readUnit.1 =
      .ok initializedNegationUnit := by cbv
  have hfirst : ((Cursor.ofTokens brokenInitializerTokens).afterReadings 1).nextId = 1 := by cbv
  obtain ⟨hunits, -, -, hnumbers, -⟩ := readings_number_nodes brokenInitializerTokens
  obtain ⟨hids, hcount, -⟩ := hnumbers 1 _ (hunits 1 _ hread).1
  rw [hfirst] at hids hcount
  exact ⟨by cbv, hread, hids, hcount⟩

end CSubset
