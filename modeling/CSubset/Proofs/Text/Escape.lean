-- SUMMARY: Escaped text between quotes is read in one way only.
import CSubset.Proofs.Text.PlainAscii
import Mathlib.Data.List.Basic
import Mathlib.Data.List.TakeWhile

/-!
# Reading escaped text

Of the spellings of characters in escaped text none begins with another one, and none begins with a
quote. So what stands between two quotes spells one text only, and it can be told where it ends.
-/

namespace CSubset.Text

/-! ## Runs of characters -/

section runs

variable {p : Char → Bool} {xs ys rest rest' : List Char}

theorem takeWhile_run (hx : ∀ c ∈ xs, p c = true) (hr : ∀ c ∈ rest.head?, p c = false) :
    (xs ++ rest).takeWhile p = xs := by
  rw [List.takeWhile_append_of_pos hx]
  cases rest with
  | nil => exact List.append_nil xs
  | cons c rest => rw [List.takeWhile_cons_of_neg (by simp [hr c rfl]), List.append_nil]

theorem dropWhile_run (hx : ∀ c ∈ xs, p c = true) (hr : ∀ c ∈ rest.head?, p c = false) :
    (xs ++ rest).dropWhile p = rest := by
  rw [List.dropWhile_append_of_pos hx]
  cases rest with
  | nil => rfl
  | cons c rest => rw [List.dropWhile_cons_of_neg (by simp [hr c rfl])]

/-- It can be told where a run of characters ends. -/
theorem run_unique (hx : ∀ c ∈ xs, p c = true) (hy : ∀ c ∈ ys, p c = true)
    (hr : ∀ c ∈ rest.head?, p c = false) (hr' : ∀ c ∈ rest'.head?, p c = false)
    (h : xs ++ rest = ys ++ rest') : xs = ys ∧ rest = rest' := by
  have hrun := congrArg (List.takeWhile p) h
  have hbehind := congrArg (List.dropWhile p) h
  rw [takeWhile_run hx hr, takeWhile_run hy hr'] at hrun
  rw [dropWhile_run hx hr, dropWhile_run hy hr'] at hbehind
  exact ⟨hrun, hbehind⟩

end runs

/-! ## Digits -/

theorem digitChar_injective : ∀ m < 16, ∀ n < 16, m.digitChar = n.digitChar → m = n := by decide

/-- Different numbers have different digits, in every base up to that of hexadecimal numbers. -/
theorem toDigits_injective {base : Nat} (hbase : 1 < base) (hle : base ≤ 16) {m n : Nat}
    (h : Nat.toDigits base m = Nat.toDigits base n) : m = n := by
  have hpos : 0 < base := Nat.lt_trans Nat.one_pos hbase
  have hlast (k : Nat) : Nat.toDigits base k =
      (if k < base then [] else Nat.toDigits base (k / base)) ++ [(k % base).digitChar] := by
    rw [Nat.toDigits_eq_if hbase]
    split
    · next hk => rw [Nat.mod_eq_of_lt hk, List.nil_append]
    · rfl
  have hdigit (k : Nat) : k % base < 16 := Nat.lt_of_lt_of_le (Nat.mod_lt k hpos) hle
  induction m using Nat.strongRecOn generalizing n with
  | ind m ih =>
    rw [hlast m, hlast n] at h
    obtain ⟨hfront, hback⟩ := List.append_singleton_inj.mp h
    have hmod : m % base = n % base :=
      digitChar_injective _ (hdigit m) _ (hdigit n) hback
    have hdiv : m / base = n / base := by
      split at hfront <;> split at hfront
      · next hm hn => rw [Nat.div_eq_of_lt hm, Nat.div_eq_of_lt hn]
      · exact absurd hfront.symm Nat.toDigits_ne_nil
      · exact absurd hfront Nat.toDigits_ne_nil
      · next hm _ =>
        exact ih _ (Nat.div_lt_self (by omega) hbase) hfront
    rw [← Nat.div_add_mod m base, ← Nat.div_add_mod n base, hdiv, hmod]

/-! ## Spellings -/

/-- The letters behind a backslash, with the characters that they spell. -/
def letterEscapes : List (Char × Char) :=
  [('t', '\t'), ('r', '\r'), ('n', '\n'), ('\'', '\''), ('"', '"'), ('\\', '\\')]

/-- The ways in which escaped text spells a character: as it is, by a letter or by its number. -/
inductive Escaped : Char → List Char → Prop where
  | plain {c : Char} (hback : c ≠ '\\') (hchar : c ≠ '\'') (hstring : c ≠ '"') : Escaped c [c]
  | letter {l c : Char} (h : (l, c) ∈ letterEscapes) : Escaped c ['\\', l]
  | number {c : Char} : Escaped c (spellNumber c)

theorem escapeChar_escaped (c : Char) : Escaped c (escapeChar c) := by
  unfold escapeChar
  split
  · next hc => exact .letter (l := 't') (hc ▸ by decide)
  split
  · next hc => exact .letter (l := 'r') (hc ▸ by decide)
  split
  · next hc => exact .letter (l := 'n') (hc ▸ by decide)
  split
  · next hc => exact .letter (by rcases hc with rfl | rfl | rfl <;> decide)
  next hquotes =>
  split
  · obtain ⟨hchar, hquotes⟩ := not_or.mp hquotes
    obtain ⟨hstring, hback⟩ := not_or.mp hquotes
    exact .plain hback hchar hstring
  · exact .number

namespace Escaped

variable {c d : Char} {v w x y : List Char}

theorem letter_unique : ∀ p ∈ letterEscapes, ∀ q ∈ letterEscapes, p.1 = q.1 → p.2 = q.2 := by
  decide

theorem letter_ne_u : ∀ p ∈ letterEscapes, p.1 ≠ 'u' := by decide

theorem number_unique (h : spellNumber c ++ x = spellNumber d ++ y) : c = d ∧ x = y := by
  have hinside (c : Char) : ∀ e ∈ Nat.toDigits 16 c.toNat, decide (e ≠ '\x7d') = true := by
    intro e he
    obtain ⟨k, hk, rfl⟩ := exists_digit_of_mem_toDigits (by decide) _ e he
    have hdigits : ∀ k < 16, decide (Nat.digitChar k ≠ '\x7d') = true := by decide
    exact hdigits k hk
  have hstop (rest : List Char) : ∀ e ∈ ('\x7d' :: rest).head?, decide (e ≠ '\x7d') = false := by
    simp
  simp only [spellNumber, List.append_assoc, List.cons_append, List.cons.injEq, true_and,
    List.nil_append] at h
  obtain ⟨hdigits, hrest⟩ := run_unique (hinside c) (hinside d) (hstop x) (hstop y) h
  exact ⟨Char.toNat_inj.mp (toDigits_injective (by decide) (by decide) hdigits),
    (List.cons.inj hrest).2⟩

/-- Of two spellings none begins with the other. -/
theorem unique (hc : Escaped c v) (hd : Escaped d w) (h : v ++ x = w ++ y) : c = d ∧ x = y := by
  cases hc with
  | plain hback _ _ =>
    cases hd with
    | plain _ _ _ => exact List.cons.inj h
    | letter _ => exact absurd (List.cons.inj h).1 hback
    | number => exact absurd (List.cons.inj h).1 hback
  | letter hl =>
    cases hd with
    | plain hback _ _ => exact absurd (List.cons.inj h).1.symm hback
    | letter hl' =>
      obtain ⟨hletter, hrest⟩ := List.cons.inj (List.cons.inj h).2
      exact ⟨letter_unique _ hl _ hl' hletter, hrest⟩
    | number => exact absurd (List.cons.inj (List.cons.inj h).2).1 (letter_ne_u _ hl)
  | number =>
    cases hd with
    | plain hback _ _ => exact absurd (List.cons.inj h).1.symm hback
    | letter hl => exact absurd (List.cons.inj (List.cons.inj h).2).1.symm (letter_ne_u _ hl)
    | number => exact number_unique h

/-- No spelling begins with a quote. -/
theorem not_quote (hc : Escaped c v) {q : Char} (hq : q = '\'' ∨ q = '"') : v ++ x ≠ q :: y := by
  intro h
  cases hc with
  | plain _ hchar hstring =>
    obtain rfl := (List.cons.inj h).1
    rcases hq with hq | hq
    · exact hchar hq
    · exact hstring hq
  | letter _ =>
    rcases hq with rfl | rfl <;> cases (List.cons.inj h).1
  | number =>
    rcases hq with rfl | rfl <;> cases (List.cons.inj h).1

end Escaped

/-- Escaped text in front of a quote is the spelling of one text. -/
theorem escape_unique {q : Char} (hq : q = '\'' ∨ q = '"') {s s' rest rest' : List Char}
    (h : s.flatMap escapeChar ++ q :: rest = s'.flatMap escapeChar ++ q :: rest') :
    s = s' ∧ rest = rest' := by
  induction s generalizing s' with
  | nil =>
    cases s' with
    | nil => exact ⟨rfl, (List.cons.inj h).2⟩
    | cons d s' =>
      rw [List.flatMap_cons, List.append_assoc] at h
      exact absurd h.symm ((escapeChar_escaped d).not_quote hq)
  | cons c s ih =>
    rw [List.flatMap_cons, List.append_assoc] at h
    cases s' with
    | nil => exact absurd h ((escapeChar_escaped c).not_quote hq)
    | cons d s' =>
      rw [List.flatMap_cons, List.append_assoc] at h
      obtain ⟨rfl, hrest⟩ := (escapeChar_escaped c).unique (escapeChar_escaped d) h
      obtain ⟨rfl, hbehind⟩ := ih hrest
      exact ⟨rfl, hbehind⟩

/-- Between quotes there is one text only. -/
theorem quoted_unique {q : Char} (hq : q = '\'' ∨ q = '"') {s s' rest rest' : List Char}
    (h : q :: (s.flatMap escapeChar ++ [q]) ++ rest =
      q :: (s'.flatMap escapeChar ++ [q]) ++ rest') : s = s' ∧ rest = rest' := by
  rw [List.cons_append, List.cons_append, List.append_assoc, List.append_assoc] at h
  exact escape_unique hq (List.cons.inj h).2

end CSubset.Text
