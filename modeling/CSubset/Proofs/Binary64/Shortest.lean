-- SUMMARY: The digits that a double is written with are found, read back to it, and to no other one.
import CSubset.Binary64.Shortest
import Mathlib.Tactic

/-!
# Shortest digits

The digits of a double are those of a decimal in the interval around it. This interval is wider than
the distance of decimals with 17 digits, so the search always ends with one of them
(`shortest_readsBack`). And the intervals of different doubles have no decimal in common
(`readsBack_unique`): they touch at their ends at most, and of two neighbours one is odd and its
interval open.
-/

namespace CSubset.Binary64

theorem twoPow_pos (n : Nat) : 0 < twoPow n := Nat.pow_pos (by decide)

theorem tenPow_pos (n : Nat) : 0 < tenPow n := Nat.pow_pos (by decide)

theorem tenPow_add (m n : Nat) : tenPow (m + n) = tenPow m * tenPow n := Nat.pow_add 10 m n

namespace Magnitude

variable {m n : Magnitude} {x y : Nat}

/-! ## Intervals -/

/-- The fourth part of the distance to the next larger magnitude, in biased quarter units. -/
def quarter (m : Magnitude) : Nat := twoPow m.scale * tenPow bias

/-- How many quarters the lower end of the interval is away from the value. -/
def margin (m : Magnitude) : Nat := if m.significand = twoPow 52 ∧ 0 < m.scale then 1 else 2

theorem gridUnit_pos : 0 < gridUnit := twoPow_pos (unitExponent + 2)

theorem quarter_pos (m : Magnitude) : 0 < m.quarter := Nat.mul_pos (twoPow_pos _) (tenPow_pos _)

theorem margin_cases (m : Magnitude) :
    m.margin = 2 ∨ m.margin = 1 ∧ m.significand = twoPow 52 := by
  unfold margin
  split
  · next h => exact .inr ⟨rfl, h.1⟩
  · exact .inl rfl

theorem point_eq (m : Magnitude) : m.point = 4 * m.significand * m.quarter := by
  rw [point, units, quarter, ← Nat.mul_assoc, ← Nat.mul_assoc]

theorem lowerEnd_eq (m : Magnitude) : m.lowerEnd = (4 * m.significand - m.margin) * m.quarter :=
  Nat.mul_assoc _ _ _

theorem upperEnd_eq (m : Magnitude) : m.upperEnd = (4 * m.significand + 2) * m.quarter :=
  Nat.mul_assoc _ _ _

theorem readsBack_of_between (hlow : m.lowerEnd < x) (hhigh : x < m.upperEnd) :
    m.ReadsBack x := by
  unfold ReadsBack
  split
  · exact ⟨hlow.le, hhigh.le⟩
  · exact ⟨hlow, hhigh⟩

theorem ReadsBack.bounds (h : m.ReadsBack x) : m.lowerEnd ≤ x ∧ x ≤ m.upperEnd := by
  unfold ReadsBack at h
  split at h
  · exact h
  · exact ⟨h.1.le, h.2.le⟩

theorem ReadsBack.strict (h : m.ReadsBack x) (hodd : m.significand % 2 = 1) :
    m.lowerEnd < x ∧ x < m.upperEnd := by
  unfold ReadsBack at h
  rwa [if_neg (by omega)] at h

theorem lowerEnd_add (hm : m.significand ≠ 0) : m.lowerEnd + m.margin * m.quarter = m.point := by
  have hle : m.margin ≤ 4 * m.significand := by
    rcases m.margin_cases with h | ⟨h, -⟩ <;> omega
  rw [lowerEnd_eq, point_eq, ← Nat.add_mul, Nat.sub_add_cancel hle]

theorem upperEnd_add (m : Magnitude) : m.upperEnd = m.point + 2 * m.quarter := by
  rw [upperEnd_eq, point_eq, Nat.add_mul]

/-! ## The search -/

theorem hit?_readsBack {step digits : Nat} (h : m.hit? step = some digits) :
    m.ReadsBack (digits * step) := by
  unfold hit? at h
  dsimp only at h
  split at h
  · next hbelow =>
    split at h
    · next habove =>
      cases h
      exact habove.1
    · cases h
      exact hbelow
  · split at h
    · next habove =>
      cases h
      exact habove
    · cases h

/-- A grid that is finer than the interval is wide has a point in it. -/
theorem hit?_isSome {step : Nat} (hm : m.significand ≠ 0) (hpos : 0 < step)
    (hstep : step < (m.margin + 2) * m.quarter) : (m.hit? step).isSome = true := by
  have hfloor : m.point / step * step ≤ m.point := Nat.div_mul_le_self _ _
  have hnext : m.point < (m.point / step + 1) * step := by
    rw [Nat.mul_comm]
    exact Nat.lt_mul_div_succ _ hpos
  rw [Nat.add_mul, Nat.one_mul] at hnext
  have hlow := lowerEnd_add hm
  have hhigh := m.upperEnd_add
  have hquarter := m.quarter_pos
  rw [Nat.add_mul] at hstep
  have hmargin : 0 < m.margin * m.quarter :=
    Nat.mul_pos (by rcases m.margin_cases with h | ⟨h, -⟩ <;> omega) hquarter
  unfold hit?
  dsimp only
  split
  · split <;> rfl
  · next hbelow =>
    have hbelow' : m.point / step * step ≤ m.lowerEnd := by
      by_contra hlt
      exact hbelow (readsBack_of_between (by omega) (by omega))
    have habove : m.ReadsBack ((m.point / step + 1) * step) := by
      rw [Nat.add_mul, Nat.one_mul]
      exact readsBack_of_between (by omega) (by omega)
    rw [if_pos habove]
    rfl

theorem searchDigits_hit (m : Magnitude) (count tries : Nat) {k : Nat} (hle : count ≤ k)
    (hlt : k < count + tries) (hk : (m.hit? (m.gridStep k)).isSome = true) :
    ∃ k' digits, k' ≤ k ∧ m.hit? (m.gridStep k') = some digits ∧
      m.searchDigits count tries = ⟨digits, (m.biasedLength : Int) - k' - bias⟩ := by
  induction tries generalizing count with
  | zero => omega
  | succ tries ih =>
    cases h : m.hit? (m.gridStep count) with
    | some digits => exact ⟨count, digits, hle, h, by rw [searchDigits, h]⟩
    | none =>
      have hne : count ≠ k := by
        rintro rfl
        rw [h] at hk
        cases hk
      obtain ⟨k', digits, hk', hhit, hsearch⟩ := ih (count + 1) (by omega) (by omega)
      exact ⟨k', digits, hk', hhit, by rw [searchDigits, h]; exact hsearch⟩

theorem tenPow_le_of_length {n k : Nat} (hpos : 0 < k) (h : k < decimalLength n) :
    tenPow k ≤ n := by
  by_contra hlt
  have hle := (Nat.length_toDigits_le_iff (by decide) hpos).mpr (Nat.lt_of_not_le hlt)
  exact absurd h (Nat.not_lt.mpr hle)

/-- The bias makes even the whole part of the smallest value long. -/
theorem lt_biasedLength (hm : m.significand ≠ 0) : 17 < m.biasedLength := by
  have hunits : 0 < m.units := Nat.mul_pos (Nat.pos_of_ne_zero hm) (twoPow_pos _)
  have hbias : tenPow 17 * gridUnit ≤ 4 * tenPow bias := by decide +kernel
  have hpoint : tenPow 17 * gridUnit ≤ m.point := by
    refine hbias.trans ?_
    rw [point, Nat.mul_right_comm]
    exact Nat.le_mul_of_pos_right _ hunits
  by_contra hle
  have hlt := (Nat.length_toDigits_le_iff (by decide) (by decide)).mp (Nat.le_of_not_lt hle)
  exact absurd ((Nat.le_div_iff_mul_le gridUnit_pos).mpr hpoint) (Nat.not_le.mpr hlt)

/-- With 17 digits, decimals are closer to each other than the interval is wide. -/
theorem gridStep_lt (hm : m.significand ≠ 0) :
    m.gridStep 17 < (m.margin + 2) * m.quarter := by
  have hlength := lt_biasedLength hm
  have hwhole : tenPow (m.biasedLength - 1) ≤ m.point / gridUnit :=
    tenPow_le_of_length (by omega) (Nat.sub_one_lt (by omega))
  have hstep : m.gridStep 17 * tenPow 16 ≤ 4 * m.significand * m.quarter := by
    have hsplit : m.biasedLength - 17 + 16 = m.biasedLength - 1 := by omega
    rw [gridStep, Nat.mul_assoc, ← tenPow_add, hsplit, ← point_eq]
    exact (Nat.mul_le_mul_left _ hwhole).trans (Nat.mul_div_le _ _)
  by_contra hle
  have hquarters : (m.margin + 2) * tenPow 16 * m.quarter ≤ 4 * m.significand * m.quarter := by
    rw [Nat.mul_right_comm]
    exact (Nat.mul_le_mul_right _ (Nat.le_of_not_lt hle)).trans hstep
  have hdigits := Nat.le_of_mul_le_mul_right hquarters m.quarter_pos
  have hbits := m.canonical.1
  simp only [tenPow, twoPow, Nat.pow_eq] at hdigits hbits
  rcases m.margin_cases with hmargin | ⟨hmargin, hpower⟩
  · omega
  · rw [hpower, twoPow, Nat.pow_eq] at hdigits
    omega

/-- The digits that are found make a decimal that reads back. -/
theorem shortest_readsBack (hm : m.significand ≠ 0) :
    ∃ k : Nat, m.shortest.exponent = k - bias ∧
      m.ReadsBack (m.shortest.digits * (gridUnit * tenPow k)) := by
  have hpos : 0 < m.gridStep 17 := Nat.mul_pos gridUnit_pos (tenPow_pos _)
  have hlength := lt_biasedLength hm
  obtain ⟨count, digits, hcount, hhit, hsearch⟩ :=
    m.searchDigits_hit 1 17 (k := 17) (by decide) (by decide)
      (hit?_isSome hm hpos (gridStep_lt hm))
  rw [shortest, hsearch]
  refine ⟨m.biasedLength - count, ?_, hit?_readsBack hhit⟩
  rw [Nat.cast_sub (by omega)]

theorem shortest_digits_ne_zero (hm : m.significand ≠ 0) : m.shortest.digits ≠ 0 := by
  intro hzero
  obtain ⟨k, -, hback⟩ := shortest_readsBack hm
  rw [hzero, Nat.zero_mul] at hback
  have hmargin : 0 < 4 * m.significand - m.margin := by
    rcases m.margin_cases with h | ⟨h, -⟩ <;> omega
  have hlow : 0 < m.lowerEnd := by
    rw [lowerEnd_eq]
    exact Nat.mul_pos hmargin m.quarter_pos
  exact absurd hback.bounds.1 (Nat.not_le.mpr hlow)

/-! ## One magnitude for each decimal -/

theorem quarter_lt (h : m.scale < n.scale) : 2 * m.quarter ≤ n.quarter := by
  have hpow : 2 * twoPow m.scale ≤ twoPow n.scale := by
    rw [Nat.mul_comm]
    exact Nat.pow_le_pow_right Nat.two_pos h
  rw [quarter, ← Nat.mul_assoc]
  exact Nat.mul_le_mul_right _ hpow

/-- Above the smallest scale the least interval begins a quarter below a power of two. -/
theorem full_lowerEnd (h : 0 < n.scale) : (2 ^ 54 - 1) * n.quarter ≤ n.lowerEnd := by
  have hfull := n.canonical.2.1.resolve_right (Nat.ne_of_gt h)
  rw [lowerEnd_eq]
  refine Nat.mul_le_mul_right _ ?_
  unfold margin
  simp only [twoPow, Nat.pow_eq] at hfull
  split
  · omega
  · next hpower =>
    have hne : n.significand ≠ 2 ^ 52 := fun heq => hpower ⟨heq, h⟩
    omega

/-- The interval of a smaller magnitude ends before that of a larger one begins, or they touch and
one of them is open. -/
theorem upperEnd_lowerEnd
    (h : m.scale < n.scale ∨ m.scale = n.scale ∧ m.significand < n.significand) :
    m.upperEnd < n.lowerEnd ∨
      m.upperEnd = n.lowerEnd ∧ (m.significand % 2 = 1 ∨ n.significand % 2 = 1) := by
  have hquarter := m.quarter_pos
  rcases h with hlt | ⟨hscale, hlt⟩
  · have hlow := full_lowerEnd (Nat.zero_lt_of_lt hlt)
    have hhigh := m.upperEnd_eq
    have hdouble := quarter_lt hlt
    have hbits := m.canonical.1
    simp only [twoPow, Nat.pow_eq] at hbits
    have hnext : (2 ^ 55 - 2) * m.quarter ≤ n.lowerEnd := by omega
    rcases Nat.lt_or_ge m.significand (2 ^ 53 - 1) with hless | hfull
    · have hbelow : (4 * m.significand + 2) * m.quarter < (2 ^ 55 - 2) * m.quarter :=
        Nat.mul_lt_mul_of_pos_right (by omega) hquarter
      exact .inl (by omega)
    · have hlast : m.significand = 2 ^ 53 - 1 := by omega
      rw [hlast] at hhigh ⊢
      rcases Nat.lt_or_eq_of_le (hhigh.le.trans hnext) with hstrict | htouch
      · exact .inl hstrict
      · exact .inr ⟨htouch, .inl rfl⟩
  · have hsame : m.quarter = n.quarter := by rw [quarter, quarter, hscale]
    rw [upperEnd_eq, lowerEnd_eq, ← hsame]
    rcases Nat.lt_or_ge (4 * m.significand + 2) (4 * n.significand - n.margin) with hapart | hnear
    · exact .inl (Nat.mul_lt_mul_of_pos_right hapart hquarter)
    · have hmargin : n.margin ≤ 2 := by rcases n.margin_cases with h | ⟨h, -⟩ <;> omega
      have htouch : 4 * m.significand + 2 = 4 * n.significand - n.margin := by omega
      exact .inr ⟨congrArg (· * m.quarter) htouch, by omega⟩

/-- Decimals that read as a smaller magnitude are smaller. -/
theorem lt_of_readsBack
    (h : m.scale < n.scale ∨ m.scale = n.scale ∧ m.significand < n.significand)
    (hx : m.ReadsBack x) (hy : n.ReadsBack y) : x < y := by
  have hhigh := hx.bounds.2
  have hlow := hy.bounds.1
  rcases upperEnd_lowerEnd h with hlt | ⟨heq, hodd | hodd⟩
  · omega
  · have := (hx.strict hodd).2
    omega
  · have := (hy.strict hodd).1
    omega

/-- A decimal reads as one magnitude only. -/
theorem readsBack_unique (hm : m.ReadsBack x) (hn : n.ReadsBack x) : m = n := by
  rcases Nat.lt_trichotomy m.scale n.scale with hlt | hscale | hlt
  · exact absurd (lt_of_readsBack (.inl hlt) hm hn) (Nat.lt_irrefl x)
  · rcases Nat.lt_trichotomy m.significand n.significand with hlt | hsignificand | hlt
    · exact absurd (lt_of_readsBack (.inr ⟨hscale, hlt⟩) hm hn) (Nat.lt_irrefl x)
    · cases m
      cases n
      cases hscale
      cases hsignificand
      rfl
    · exact absurd (lt_of_readsBack (.inr ⟨hscale.symm, hlt⟩) hn hm) (Nat.lt_irrefl x)
  · exact absurd (lt_of_readsBack (.inl hlt) hn hm) (Nat.lt_irrefl x)

end Magnitude

end CSubset.Binary64
