-- SUMMARY: The text of a double shows its value, so different doubles are written differently.
import CSubset.Binary64.Numeral
import CSubset.Proofs.Binary64.Shortest
import CSubset.Proofs.Text.Escape

/-!
# Texts of doubles

A double is written positionally or with an exponent, and trailing zeros are left out. In either
form the text is a numeral for the decimal that was found (`numeralValue_text`), and this decimal
reads back as one double only.
-/

namespace CSubset.Binary64

open Text

/-! ## Values of numerals -/

/-- The power of ten that is written behind the mark of an exponent. -/
def powerValue : List Char → Int
  | '-' :: digits => -digitsValue digits
  | digits => digitsValue digits

/-- The number that digits stand for, with a point among them or a power of ten behind them. -/
def numeralValue (text : List Char) : ℚ :=
  let mantissa := text.takeWhile (· ≠ 'e')
  let whole := mantissa.takeWhile (· ≠ '.')
  let fraction := (mantissa.dropWhile (· ≠ '.')).tail
  let power := powerValue (text.dropWhile (· ≠ 'e')).tail
  digitsValue (whole ++ fraction) * 10 ^ (power - fraction.length)

theorem digitsValue_append (xs ys : List Char) :
    digitsValue (xs ++ ys) = 10 ^ ys.length * digitsValue xs + digitsValue ys := by
  have hsplit : digitsValue (xs ++ ys) = Nat.ofDigitChars 10 ys (digitsValue xs) :=
    List.foldl_append
  rw [hsplit, Nat.ofDigitChars_eq_ofDigitChars_zero]
  rfl

theorem digitsValue_zeros (k : Nat) : digitsValue (List.replicate k '0') = 0 :=
  Nat.ofDigitChars_replicate_zero.trans (Nat.mul_zero _)

theorem digitsValue_zeros_append (k : Nat) (xs : List Char) :
    digitsValue (List.replicate k '0' ++ xs) = digitsValue xs := by
  rw [digitsValue_append, digitsValue_zeros, Nat.mul_zero, Nat.zero_add]

theorem digitsValue_append_zeros (xs : List Char) (k : Nat) :
    digitsValue (xs ++ List.replicate k '0') = 10 ^ k * digitsValue xs := by
  rw [digitsValue_append, digitsValue_zeros, List.length_replicate, Nat.add_zero]

/-- Powers of ten can be moved between the digits and the exponent. -/
theorem cast_mul_zpow (n k : Nat) (power : Int) :
    ((10 ^ k * n : Nat) : ℚ) * 10 ^ power = n * 10 ^ (k + power) := by
  rw [zpow_add₀ (by norm_num), zpow_natCast]
  push_cast
  ring

theorem digitsValue_toDigits (n : Nat) : digitsValue (Nat.toDigits 10 n) = n :=
  Nat.ofDigitChars_toDigits (by decide) (by decide)

theorem powerValue_eq {digits : List Char} (h : '-' ∉ digits) :
    powerValue digits = digitsValue digits := by
  unfold powerValue
  split
  · exact absurd List.mem_cons_self h
  · rfl

section numerals

variable {whole fraction exponent : List Char}

theorem ne_of_isDigit {c : Char} (d : Char) (hd : d.isDigit = false) (hc : c.isDigit = true) :
    c ≠ d := by
  rintro rfl
  cases hd.symm.trans hc

/-- The value of a numeral with a point. -/
theorem numeralValue_pointed (hw : ∀ c ∈ whole, c.isDigit = true)
    (hf : ∀ c ∈ fraction, c.isDigit = true) (he : ∀ c ∈ exponent.head?, c = 'e') :
    numeralValue (whole ++ '.' :: fraction ++ exponent) =
      digitsValue (whole ++ fraction) * 10 ^ (powerValue exponent.tail - fraction.length) := by
  have hmark : ∀ c ∈ whole ++ '.' :: fraction, decide (c ≠ 'e') = true := by
    intro c hc
    rcases List.mem_append.mp hc with hc | hc
    · exact decide_eq_true (ne_of_isDigit 'e' rfl (hw c hc))
    · rcases List.mem_cons.mp hc with rfl | hc
      · rfl
      · exact decide_eq_true (ne_of_isDigit 'e' rfl (hf c hc))
  have hend : ∀ c ∈ exponent.head?, decide (c ≠ 'e') = false := fun c hc => by simp [he c hc]
  have hpoint : ∀ c ∈ whole, decide (c ≠ '.') = true :=
    fun c hc => decide_eq_true (ne_of_isDigit '.' rfl (hw c hc))
  have hstop : ∀ c ∈ ('.' :: fraction).head?, decide (c ≠ '.') = false := by simp
  rw [numeralValue, takeWhile_run hmark hend, dropWhile_run hmark hend,
    takeWhile_run hpoint hstop, dropWhile_run hpoint hstop]
  rfl

/-- The value of a numeral with a point and without an exponent. -/
theorem numeralValue_point (hw : ∀ c ∈ whole, c.isDigit = true)
    (hf : ∀ c ∈ fraction, c.isDigit = true) :
    numeralValue (whole ++ '.' :: fraction) =
      digitsValue (whole ++ fraction) * 10 ^ (-(fraction.length : Int)) := by
  have hend : ∀ c ∈ ([] : List Char).head?, c = 'e' := by simp
  have hvalue := numeralValue_pointed hw hf hend
  have hpower : powerValue [] = 0 := rfl
  rwa [List.append_nil, List.tail_nil, hpower, zero_sub] at hvalue

/-- The value of a numeral without a point. -/
theorem numeralValue_whole (hw : ∀ c ∈ whole, c.isDigit = true)
    (he : ∀ c ∈ exponent.head?, c = 'e') :
    numeralValue (whole ++ exponent) = digitsValue whole * 10 ^ powerValue exponent.tail := by
  have hmark : ∀ c ∈ whole, decide (c ≠ 'e') = true :=
    fun c hc => decide_eq_true (ne_of_isDigit 'e' rfl (hw c hc))
  have hend : ∀ c ∈ exponent.head?, decide (c ≠ 'e') = false := fun c hc => by simp [he c hc]
  have hpoint : ∀ c ∈ whole, decide (c ≠ '.') = true :=
    fun c hc => decide_eq_true (ne_of_isDigit '.' rfl (hw c hc))
  rw [numeralValue, takeWhile_run hmark hend, dropWhile_run hmark hend,
    List.takeWhile_eq_self_iff.mpr hpoint, List.dropWhile_eq_nil_iff.mpr hpoint, List.tail_nil,
    List.append_nil, List.length_nil, Nat.cast_zero, sub_zero]

end numerals

/-! ## The two forms -/

section forms

variable {digits : List Char}

theorem isDigit_replicate (k : Nat) : ∀ c ∈ List.replicate k '0', c.isDigit = true := by
  intro c hc
  rw [List.eq_of_mem_replicate hc]
  rfl

/-- Written positionally, digits stand for the number with the point behind the first `point`. -/
theorem numeralValue_positional (hdigits : ∀ c ∈ digits, c.isDigit = true) (point : Int) :
    numeralValue (positional digits point) =
      digitsValue digits * 10 ^ (point - digits.length) := by
  unfold positional
  split
  · next hpoint =>
    have hfraction : ∀ c ∈ List.replicate (-point).toNat '0' ++ digits, c.isDigit = true :=
      List.forall_mem_append.mpr ⟨isDigit_replicate _, hdigits⟩
    have hvalue : digitsValue (['0'] ++ (List.replicate (-point).toNat '0' ++ digits)) =
        digitsValue digits := by
      rw [← List.append_assoc]
      exact digitsValue_zeros_append ((-point).toNat + 1) digits
    have hpower : -((List.replicate (-point).toNat '0' ++ digits).length : Int) =
        point - digits.length := by
      rw [List.length_append, List.length_replicate]
      omega
    rw [← hvalue, ← hpower, List.append_assoc]
    exact numeralValue_point (List.forall_mem_singleton.mpr rfl) hfraction
  · next hpoint =>
    dsimp only
    rw [List.append_assoc, List.singleton_append]
    rcases Nat.lt_or_ge point.toNat digits.length with hlt | hle
    · -- the point is among the digits
      have hpower : -((digits.drop point.toNat).length : Int) = point - digits.length := by
        rw [List.length_drop]
        omega
      rw [Nat.sub_eq_zero_of_le hlt.le, List.replicate_zero, List.append_nil,
        if_neg (by simpa using hlt), numeralValue_point
          (fun c hc => hdigits c (List.mem_of_mem_take hc))
          (fun c hc => hdigits c (List.mem_of_mem_drop hc)), List.take_append_drop, hpower]
    · -- the point is behind zeros that are filled in
      have hwhole : ∀ c ∈ digits ++ List.replicate (point.toNat - digits.length) '0',
          c.isDigit = true := List.forall_mem_append.mpr ⟨hdigits, isDigit_replicate _⟩
      have hzeros : digits ++ List.replicate (point.toNat - digits.length) '0' ++ ['0'] =
          digits ++ List.replicate (point.toNat - digits.length + 1) '0' := by
        rw [List.append_assoc, List.replicate_succ']
      have hpower : ((point.toNat - digits.length + 1 : Nat) : Int) + -(['0'].length : Int) =
          point - digits.length := by
        rw [List.length_singleton]
        omega
      rw [List.take_of_length_le hle, List.drop_of_length_le hle, if_pos List.isEmpty_nil,
        numeralValue_point hwhole (List.forall_mem_singleton.mpr rfl), hzeros,
        digitsValue_append_zeros, cast_mul_zpow, hpower]

theorem powerValue_sign (power : Int) :
    powerValue ((if power < 0 then ['-'] else []) ++ Nat.toDigits 10 power.natAbs) = power := by
  split
  · next hneg =>
    have hvalue : powerValue ('-' :: Nat.toDigits 10 power.natAbs) =
        -(digitsValue (Nat.toDigits 10 power.natAbs) : Int) := rfl
    rw [List.singleton_append, hvalue, digitsValue_toDigits]
    omega
  · next hpos =>
    have hsign : '-' ∉ Nat.toDigits 10 power.natAbs := fun hmem =>
      absurd (Nat.isDigit_of_mem_toDigits (by decide) (by decide) hmem) (by decide)
    rw [List.nil_append, powerValue_eq hsign, digitsValue_toDigits]
    omega

/-- Written with a power of ten, digits stand for the number with the point behind the first. -/
theorem numeralValue_scientific (hdigits : ∀ c ∈ digits, c.isDigit = true) (hne : digits ≠ [])
    (power : Int) :
    numeralValue (scientific digits power) =
      digitsValue digits * 10 ^ (power + 1 - digits.length) := by
  obtain ⟨c, fraction, rfl⟩ := List.exists_cons_of_ne_nil hne
  obtain ⟨hc, hfraction⟩ := List.forall_mem_cons.mp hdigits
  have hwhole : ∀ d ∈ [c], d.isDigit = true := List.forall_mem_singleton.mpr hc
  have hmark : ∀ d ∈ ('e' :: ((if power < 0 then ['-'] else []) ++
      Nat.toDigits 10 power.natAbs)).head?, d = 'e' := fun d hd => (Option.some.inj hd).symm
  have hexponent : powerValue ('e' :: ((if power < 0 then ['-'] else []) ++
      Nat.toDigits 10 power.natAbs)).tail = power := powerValue_sign power
  unfold scientific
  dsimp only
  rw [List.append_assoc, List.append_assoc, List.singleton_append]
  cases fraction with
  | nil =>
    have hvalue := numeralValue_whole hwhole hmark
    rw [hexponent] at hvalue
    simpa using hvalue
  | cons d rest =>
    have hvalue := numeralValue_pointed hwhole hfraction hmark
    rw [hexponent] at hvalue
    have hpower :
        power - ((d :: rest).length : Int) = power + 1 - ((c :: d :: rest).length : Int) := by
      simp only [List.length_cons]
      omega
    rw [← hpower]
    exact hvalue

end forms

/-! ## Magnitudes -/

/-- The zeros that are left out stand behind the others. -/
theorem exists_trimZeros (digits : List Char) :
    ∃ k, digits = trimZeros digits ++ List.replicate k '0' := by
  have hsplit := congrArg List.reverse
    (List.takeWhile_append_dropWhile (p := (· = '0')) (l := digits.reverse))
  rw [List.reverse_reverse, List.reverse_append] at hsplit
  have hzeros : ∀ c ∈ (digits.reverse.takeWhile (· = '0')).reverse, c = '0' := by
    intro c hc
    have hzero := List.mem_takeWhile_imp (List.mem_reverse.mp hc)
    exact of_decide_eq_true hzero
  rw [List.eq_replicate_of_mem hzeros] at hsplit
  exact ⟨_, hsplit.symm⟩

namespace Magnitude

variable {m n : Magnitude}

/-- Some digit is left. -/
theorem trimmed_ne_nil (hm : m.significand ≠ 0) :
    trimZeros (Nat.toDigits 10 m.shortest.digits) ≠ [] := by
  intro hnil
  obtain ⟨k, hk⟩ := exists_trimZeros (Nat.toDigits 10 m.shortest.digits)
  have hvalue := digitsValue_toDigits m.shortest.digits
  rw [hk, hnil, List.nil_append, digitsValue_zeros] at hvalue
  exact shortest_digits_ne_zero hm hvalue.symm

theorem isDigit_of_mem_trimmed (m : Magnitude) :
    ∀ c ∈ trimZeros (Nat.toDigits 10 m.shortest.digits), c.isDigit = true :=
  fun _ hc => Nat.isDigit_of_mem_toDigits (by decide) (by decide) (mem_of_mem_trimZeros hc)

/-- The text of a magnitude is a numeral for the decimal that was found. -/
theorem numeralValue_text (hm : m.significand ≠ 0) :
    numeralValue m.text = m.shortest.digits * 10 ^ m.shortest.exponent := by
  obtain ⟨k, hk⟩ := exists_trimZeros (Nat.toDigits 10 m.shortest.digits)
  have hdigits := m.isDigit_of_mem_trimmed
  have hvalue : m.shortest.digits =
      10 ^ k * digitsValue (trimZeros (Nat.toDigits 10 m.shortest.digits)) := by
    rw [← digitsValue_append_zeros, ← hk, digitsValue_toDigits]
  have hlength : (Nat.toDigits 10 m.shortest.digits).length =
      (trimZeros (Nat.toDigits 10 m.shortest.digits)).length + k := by
    conv_lhs => rw [hk]
    rw [List.length_append, List.length_replicate]
  have hne := trimmed_ne_nil hm
  unfold text
  rw [if_neg hm]
  dsimp only
  rw [hlength]
  generalize trimZeros (Nat.toDigits 10 m.shortest.digits) = trimmed at *
  conv_rhs => rw [hvalue]
  rw [cast_mul_zpow]
  have hpower : ((trimmed.length + k : Nat) : Int) + m.shortest.exponent - 1 + 1 - trimmed.length =
      k + m.shortest.exponent := by omega
  split
  · rw [numeralValue_positional hdigits, hpower]
  · rw [numeralValue_scientific hdigits hne, hpower]

theorem numeralValue_text_pos (hm : m.significand ≠ 0) : 0 < numeralValue m.text := by
  rw [numeralValue_text hm]
  have hdigits : (0 : ℚ) < m.shortest.digits :=
    Nat.cast_pos.mpr (Nat.pos_of_ne_zero (shortest_digits_ne_zero hm))
  positivity

theorem numeralValue_text_zero (hm : m.significand = 0) : numeralValue m.text = 0 := by
  have hdigit : ∀ c ∈ ['0'], c.isDigit = true := List.forall_mem_singleton.mpr rfl
  have hvalue : digitsValue (['0'] ++ ['0']) = 0 := rfl
  unfold text
  rw [if_pos hm]
  refine (numeralValue_point hdigit hdigit).trans ?_
  rw [hvalue, Nat.cast_zero, zero_mul]

theorem scale_eq_zero (hm : m.significand = 0) : m.scale = 0 := by
  refine m.canonical.2.1.resolve_left fun hle => ?_
  rw [hm] at hle
  exact absurd hle (Nat.not_le.mpr (twoPow_pos 52))

/-- Different magnitudes are written differently. -/
theorem text_injective (h : m.text = n.text) : m = n := by
  have hvalues := congrArg numeralValue h
  rcases eq_or_ne m.significand 0 with hm | hm <;> rcases eq_or_ne n.significand 0 with hn | hn
  · have hscale := (scale_eq_zero hm).trans (scale_eq_zero hn).symm
    have hsignificand := hm.trans hn.symm
    cases m
    cases n
    cases hscale
    cases hsignificand
    rfl
  · exact absurd (numeralValue_text_zero hm) (hvalues ▸ (numeralValue_text_pos hn).ne')
  · exact absurd (numeralValue_text_zero hn) (hvalues ▸ (numeralValue_text_pos hm).ne')
  · obtain ⟨i, hi, hback⟩ := shortest_readsBack hm
    obtain ⟨j, hj, hback'⟩ := shortest_readsBack hn
    have hten : (10 : ℚ) ≠ 0 := by norm_num
    rw [numeralValue_text hm, numeralValue_text hn, hi, hj, zpow_sub₀ hten, zpow_sub₀ hten,
      ← mul_div_assoc, ← mul_div_assoc, div_left_inj' (zpow_ne_zero _ hten), zpow_natCast,
      zpow_natCast] at hvalues
    have hdecimal : m.shortest.digits * tenPow i = n.shortest.digits * tenPow j := by
      exact_mod_cast hvalues
    have hsame : m.shortest.digits * (gridUnit * tenPow i) =
        n.shortest.digits * (gridUnit * tenPow j) := by
      rw [Nat.mul_left_comm, hdecimal, Nat.mul_left_comm]
    rw [hsame] at hback
    exact readsBack_unique hback hback'

/-! ## Characters -/

/-- The text of a magnitude begins with a digit. -/
theorem text_begins (m : Magnitude) : ∃ c rest, m.text = c :: rest ∧ c.isDigit = true := by
  unfold text
  split
  · exact ⟨'0', ['.', '0'], rfl, rfl⟩
  · next hm =>
    obtain ⟨c, rest, htrimmed⟩ := List.exists_cons_of_ne_nil (trimmed_ne_nil hm)
    have hc : c.isDigit = true := m.isDigit_of_mem_trimmed c (htrimmed ▸ List.mem_cons_self)
    dsimp only
    rw [htrimmed]
    split
    · unfold positional
      split
      · exact ⟨'0', _, rfl, rfl⟩
      · next hpoint =>
        obtain ⟨k, hk⟩ := Int.eq_succ_of_zero_lt (Int.lt_of_not_ge hpoint)
        rw [hk]
        exact ⟨c, _, rfl, hc⟩
    · exact ⟨c, _, rfl, hc⟩

/-- The text of a magnitude has a point or the mark of an exponent. -/
theorem text_marked (m : Magnitude) : '.' ∈ m.text ∨ 'e' ∈ m.text := by
  unfold text
  split
  · exact .inl (by decide)
  · dsimp only
    split
    · left
      unfold positional
      split <;> simp
    · right
      simp [scientific]

end Magnitude

/-- Different finite doubles are written differently. -/
theorem text_finite_injective {s s' : Bool} {m m' : Magnitude}
    (h : (finite s m).text = (finite s' m').text) : finite s m = finite s' m' := by
  have hsigned := congrArg String.toList h
  rw [text, text, String.toList_ofList, String.toList_ofList] at hsigned
  obtain ⟨c, rest, hm, hc⟩ := m.text_begins
  obtain ⟨c', rest', hm', hc'⟩ := m'.text_begins
  cases s <;> cases s'
  · rw [Magnitude.text_injective hsigned]
  · rw [hm] at hsigned
    cases (List.cons.inj hsigned).1
    cases hc
  · rw [hm'] at hsigned
    cases (List.cons.inj hsigned).1
    cases hc'
  · rw [Magnitude.text_injective (List.cons.inj hsigned).2]

end CSubset.Binary64
