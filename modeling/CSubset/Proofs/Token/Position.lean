-- SUMMARY: The position behind a text in closed form, and the order of positions in a text.
import CSubset.Token.Scan

/-!
# Positions

The scanner carries a position along. `Location.behind` says directly which position stands
behind a text: one line more than the text has newlines, and one column more than characters
follow the last of them. Positions grow along a text, so no two places of it share one.
-/

namespace CSubset

namespace Location

/-- The position behind a text that starts in line 1 and column 1. -/
def behind (text : List Char) : Location :=
  ⟨1 + text.count '\n', 1 + (text.reverse.takeWhile (· ≠ '\n')).length⟩

theorem behind_concat (text : List Char) (c : Char) :
    behind (text ++ [c]) = (behind text).next c := by
  by_cases hc : c = '\n'
  · subst hc
    simp [behind, next, Nat.add_assoc]
  · simp [behind, next, hc, Nat.add_assoc]

/-- Carried along from the start, the position is the one in closed form. -/
theorem after_start (text : List Char) : start.after text = behind text := by
  have step (rest : List Char) :
      ∀ before, (behind before).after rest = behind (before ++ rest) := by
    induction rest with
    | nil => simp
    | cons c rest ih =>
      intro before
      rw [after_cons, ← behind_concat, ih, List.append_assoc, List.singleton_append]
  exact step text []

/-! ## Order -/

/-- A position is before another in an earlier line, or in the same line and an earlier column. -/
def Before (l m : Location) : Prop := l.line < m.line ∨ l.line = m.line ∧ l.column < m.column

instance (l m : Location) : Decidable (l.Before m) := inferInstanceAs (Decidable (_ ∨ _))

theorem Before.trans {l m n : Location} (h : l.Before m) (h' : m.Before n) : l.Before n := by
  unfold Before at *
  omega

theorem Before.ne {l m : Location} (h : l.Before m) : l ≠ m := by
  rintro rfl
  unfold Before at h
  omega

/-- What is before a position is before those that are not before it. -/
theorem Before.of_not_before {l m n : Location} (h : l.Before m) (hn : ¬ n.Before m) :
    l.Before n := by
  unfold Before at *
  omega

theorem before_next (l : Location) (c : Char) : l.Before (l.next c) := by
  unfold next Before
  split
  · exact .inl (Nat.lt_succ_self _)
  · exact .inr ⟨rfl, Nat.lt_succ_self _⟩

/-- A text that is not empty leads to a later position. -/
theorem before_after {text : List Char} (h : text ≠ []) (l : Location) :
    l.Before (l.after text) := by
  induction text generalizing l with
  | nil => exact absurd rfl h
  | cons c rest ih =>
    cases rest with
    | nil => exact before_next l c
    | cons d rest => exact (before_next l c).trans (ih (List.cons_ne_nil _ _) _)

/-- A text does not lead back. -/
theorem not_before_after (l : Location) (text : List Char) : ¬ (l.after text).Before l := by
  cases text with
  | nil => exact fun h => h.ne rfl
  | cons c rest => exact fun h => (h.trans (before_after (List.cons_ne_nil c rest) l)).ne rfl

/-- A position inside a text is before the end of the text. -/
theorem after_take_before {n : Nat} {text : List Char} (h : n < text.length) (l : Location) :
    (l.after (text.take n)).Before (l.after text) := by
  have hend : l.after text = (l.after (text.take n)).after (text.drop n) := by
    rw [← after_append, List.take_append_drop]
  rw [hend]
  refine before_after (fun hnil => ?_) _
  exact Nat.not_le.mpr h (List.drop_eq_nil_iff.mp hnil)

end Location

end CSubset
