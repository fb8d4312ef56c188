-- SUMMARY: Numbers, escaped texts and the texts of doubles are written in printable ASCII.
import CSubset.Binary64.Shortest
import CSubset.Text.Escape

/-!
# Printable ASCII

A text in printable ASCII has no newline and no other control character, so it is one line wherever
it is shown. Numbers are written with digits and a sign; text that a user has written is escaped;
and a text that is put together from such texts is such a text.
-/

namespace CSubset.Text

/-- A text of characters from `0x20` to `0x7e`. -/
def PlainAscii (s : String) : Prop := ∀ c ∈ s.toList, 0x20 ≤ c.toNat ∧ c.toNat ≤ 0x7e

-- The characters of the text are gone through one by one, and not all characters there are.
instance (s : String) : Decidable (PlainAscii s) := List.decidableBAll _ s.toList

theorem isPlainAscii_iff {c : Char} : isPlainAscii c = true ↔ 0x20 ≤ c.toNat ∧ c.toNat ≤ 0x7e := by
  simp [isPlainAscii]

theorem plainAscii_iff {s : String} : PlainAscii s ↔ ∀ c ∈ s.toList, isPlainAscii c = true :=
  forall₂_congr fun _ _ => isPlainAscii_iff.symm

theorem plainAscii_ofList {cs : List Char} :
    PlainAscii (String.ofList cs) ↔ ∀ c ∈ cs, isPlainAscii c = true := by
  rw [plainAscii_iff, String.toList_ofList]

@[simp] theorem plainAscii_append {s s' : String} :
    PlainAscii (s ++ s') ↔ PlainAscii s ∧ PlainAscii s' := by
  rw [PlainAscii, String.toList_append]
  exact List.forall_mem_append

@[simp] theorem plainAscii_toString {s : String} : PlainAscii (toString s) ↔ PlainAscii s := Iff.rfl

/-- A text in printable ASCII stays in its line. -/
theorem PlainAscii.newline_not_mem {s : String} (h : PlainAscii s) : '\n' ∉ s.toList := by
  intro hmem
  exact absurd (h _ hmem).1 (by decide)

/-! ## Numbers -/

theorem isPlainAscii_of_isDigit {c : Char} (h : c.isDigit = true) : isPlainAscii c = true := by
  obtain ⟨hlow, hhigh⟩ := Char.isDigit_iff_toNat.mp h
  exact isPlainAscii_iff.mpr ⟨Nat.le_trans (by decide) hlow, Nat.le_trans hhigh (by decide)⟩

theorem isPlainAscii_digitChar : ∀ n < 16, isPlainAscii (Nat.digitChar n) = true := by decide

/-- The digits of a number are those of numbers below the base. -/
theorem exists_digit_of_mem_toDigits {base : Nat} (hbase : 1 < base) (n : Nat) :
    ∀ c ∈ Nat.toDigits base n, ∃ k < base, c = Nat.digitChar k := by
  have hpos : 0 < base := Nat.lt_trans Nat.one_pos hbase
  induction n using Nat.strongRecOn with
  | ind n ih =>
    rw [Nat.toDigits_eq_if hbase]
    split
    · next hn => exact List.forall_mem_singleton.mpr ⟨n, hn, rfl⟩
    · next hn =>
      have hquotient : n / base < n :=
        Nat.div_lt_self (Nat.lt_of_lt_of_le hpos (Nat.le_of_not_lt hn)) hbase
      exact List.forall_mem_append.mpr
        ⟨ih _ hquotient, List.forall_mem_singleton.mpr ⟨n % base, Nat.mod_lt n hpos, rfl⟩⟩

/-- The digits of a number are printable in every base up to that of hexadecimal numbers. -/
theorem isPlainAscii_of_mem_toDigits {base : Nat} (hbase : 1 < base) (hle : base ≤ 16) (n : Nat) :
    ∀ c ∈ Nat.toDigits base n, isPlainAscii c = true := by
  intro c hc
  obtain ⟨k, hk, rfl⟩ := exists_digit_of_mem_toDigits hbase n c hc
  exact isPlainAscii_digitChar k (Nat.lt_of_lt_of_le hk hle)

theorem isDigit_of_mem_repr {n : Nat} {c : Char} (hc : c ∈ n.repr.toList) : c.isDigit = true :=
  Nat.isDigit_of_mem_toDigits (by decide) (by decide) (Nat.toList_repr ▸ hc)

@[simp] theorem plainAscii_repr_nat (n : Nat) : PlainAscii n.repr := by
  rw [Nat.repr_eq_ofList_toDigits]
  exact plainAscii_ofList.mpr (isPlainAscii_of_mem_toDigits (by decide) (by decide) n)

@[simp] theorem plainAscii_repr_int (n : Int) : PlainAscii n.repr := by
  rw [Int.repr_eq_if]
  split
  · exact plainAscii_repr_nat _
  · exact plainAscii_append.mpr ⟨by decide, plainAscii_repr_nat _⟩

/-! ## Escaped text -/

theorem isPlainAscii_of_mem_escapeChar (c : Char) :
    ∀ d ∈ escapeChar c, isPlainAscii d = true := by
  unfold escapeChar
  split
  · exact List.all_eq_true.mp rfl
  split
  · exact List.all_eq_true.mp rfl
  split
  · exact List.all_eq_true.mp rfl
  split
  · next hquote => rcases hquote with rfl | rfl | rfl <;> exact List.all_eq_true.mp rfl
  split
  · next hplain => exact List.forall_mem_singleton.mpr hplain
  · simp only [spellNumber, List.forall_mem_append]
    refine ⟨⟨List.all_eq_true.mp rfl, ?_⟩, List.all_eq_true.mp rfl⟩
    exact isPlainAscii_of_mem_toDigits (by decide) (by decide) _

/-- Whatever a text holds, it is escaped in printable ASCII. -/
@[simp] theorem plainAscii_escape (s : String) : PlainAscii (escape s) := by
  refine plainAscii_ofList.mpr fun d hd => ?_
  obtain ⟨c, -, hd⟩ := List.mem_flatMap.mp hd
  exact isPlainAscii_of_mem_escapeChar c d hd

end CSubset.Text

/-! ## Doubles -/

namespace CSubset.Binary64

open Text

/-- The characters that finite doubles are written with. -/
def isFigure (c : Char) : Bool := c.isDigit || ['.', 'e', '-'].contains c

theorem isPlainAscii_of_isFigure {c : Char} (h : isFigure c = true) : isPlainAscii c = true := by
  rcases Bool.or_eq_true_iff.mp h with hdigit | hmark
  · exact isPlainAscii_of_isDigit hdigit
  · have hmarks : ∀ c ∈ ['.', 'e', '-'], isPlainAscii c = true := List.all_eq_true.mp rfl
    exact hmarks c (List.contains_iff_mem.mp hmark)

theorem isFigure_of_mem_toDigits (n : Nat) : ∀ c ∈ Nat.toDigits 10 n, isFigure c = true := by
  intro c hc
  rw [isFigure, Nat.isDigit_of_mem_toDigits (by decide) (by decide) hc, Bool.true_or]

theorem mem_of_mem_trimZeros {digits : List Char} {c : Char} (h : c ∈ trimZeros digits) :
    c ∈ digits := by
  have hsuffix := (List.dropWhile_suffix _).subset (List.mem_reverse.mp h)
  exact List.mem_reverse.mp hsuffix

section

variable {digits : List Char} (hdigits : ∀ c ∈ digits, isFigure c = true)

include hdigits

theorem isFigure_of_mem_positional (point : Int) :
    ∀ c ∈ positional digits point, isFigure c = true := by
  have hzeros (n : Nat) : ∀ c ∈ List.replicate n '0', isFigure c = true := by
    intro c hc
    rw [List.eq_of_mem_replicate hc]
    decide
  unfold positional
  split
  · simp only [List.forall_mem_append]
    exact ⟨⟨List.all_eq_true.mp rfl, hzeros _⟩, hdigits⟩
  · simp only [List.forall_mem_append]
    refine ⟨⟨⟨fun c hc => hdigits c (List.mem_of_mem_take hc), hzeros _⟩,
      List.all_eq_true.mp rfl⟩, ?_⟩
    split
    · exact List.all_eq_true.mp rfl
    · exact fun c hc => hdigits c (List.mem_of_mem_drop hc)

theorem isFigure_of_mem_scientific (power : Int) :
    ∀ c ∈ scientific digits power, isFigure c = true := by
  simp only [scientific, List.forall_mem_append]
  refine ⟨⟨⟨⟨fun c hc => hdigits c (List.mem_of_mem_take hc), ?_⟩, List.all_eq_true.mp rfl⟩, ?_⟩,
    ?_⟩
  · split
    · exact nofun
    · exact List.forall_mem_cons.mpr ⟨rfl, fun c hc => hdigits c (List.mem_of_mem_drop hc)⟩
  · split <;> exact List.all_eq_true.mp rfl
  · exact isFigure_of_mem_toDigits _

end

theorem Magnitude.isFigure_of_mem_text (m : Magnitude) : ∀ c ∈ m.text, isFigure c = true := by
  have hdigits : ∀ c ∈ trimZeros (Nat.toDigits 10 m.shortest.digits), isFigure c = true :=
    fun c hc => isFigure_of_mem_toDigits _ c (mem_of_mem_trimZeros hc)
  unfold text
  split
  · exact List.all_eq_true.mp rfl
  · dsimp only
    split
    · exact isFigure_of_mem_positional hdigits _
    · exact isFigure_of_mem_scientific hdigits _

/-- The text of a finite double with its sign. -/
theorem isFigure_of_mem_text_finite (negative : Bool) (m : Magnitude) :
    ∀ c ∈ (finite negative m).text.toList, isFigure c = true := by
  rw [text, String.toList_ofList]
  refine List.forall_mem_append.mpr ⟨?_, m.isFigure_of_mem_text⟩
  cases negative <;> exact List.all_eq_true.mp rfl

/-- Every double is written in printable ASCII. -/
@[simp] theorem plainAscii_text (x : Binary64) : PlainAscii x.text := by
  cases x with
  | nan => decide
  | infinite negative => cases negative <;> decide
  | finite negative m =>
    exact plainAscii_iff.mpr fun c hc =>
      isPlainAscii_of_isFigure (isFigure_of_mem_text_finite negative m c hc)

end CSubset.Binary64
