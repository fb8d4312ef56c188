-- SUMMARY: Which texts are marks, words and numbers, and which of them a text begins with at the longest.
import CSubset.Token.Segment

/-!
# Lexemes

A mark, a word or a number has a form of its own, stated here without the scanner. The three
classes differ in their first character, so only one of them competes for a given text, and the
scanner's choice in that class is the longest. The exception is a run of digits before two
points: the number `1.` would fit, but the points are left alone.
-/

namespace CSubset

/-! ## Classes of texts -/

/-- The spelling of an operator, a bracket or a separator. -/
def IsMark (w : List Char) : Prop := ∃ p : Punctuator, w = p.text.toList

/-- A letter or underscore, and then letters, digits and underscores. -/
def IsWord (w : List Char) : Prop :=
  ∃ c r, w = c :: r ∧ Segment.isWordStart c = true ∧ ∀ x ∈ r, Segment.isWordRest x = true

/-- Digits, at least one. -/
def IsDigits (w : List Char) : Prop := w ≠ [] ∧ ∀ x ∈ w, x.isDigit = true

/-- Digits with a point among them or at one of their ends. -/
def IsPointed (w : List Char) : Prop :=
  ∃ whole fraction, w = whole ++ '.' :: fraction ∧ whole ++ fraction ≠ [] ∧
    ∀ x ∈ whole ++ fraction, x.isDigit = true

/-- An operator or punctuation, a keyword or identifier, or a number. -/
def IsPlain (w : List Char) : Prop := IsMark w ∨ IsWord w ∨ IsDigits w ∨ IsPointed w

/-- The longest of the texts in a class that a text begins with. -/
structure Longest (class_ : List Char → Prop) (text w : List Char) : Prop where
  isPrefix : w <+: text
  mem : class_ w
  length_le : ∀ v, v <+: text → class_ v → v.length ≤ w.length

/-- A run of digits that stands before two points. -/
def DigitsBeforePoints (text digits : List Char) : Prop :=
  IsDigits digits ∧ ∃ rest, text = digits ++ '.' :: '.' :: rest

/-- The lexeme at the start of a text: the longest that fits, except that a run of digits stops
before two points. -/
def LongestLexeme (text w : List Char) : Prop :=
  DigitsBeforePoints text w ∨
    (¬ ∃ digits, DigitsBeforePoints text digits) ∧ Longest IsPlain text w

theorem LongestLexeme.isPrefix {text w : List Char} (h : LongestLexeme text w) : w <+: text := by
  rcases h with ⟨-, rest, rfl⟩ | ⟨-, h⟩
  · exact List.prefix_append _ _
  · exact h.isPrefix

/-! ## Characters -/

theorem Punctuator.text_ne_nil (p : Punctuator) : p.text.toList ≠ [] := by
  cases p <;> decide

/-- No mark holds a digit, a letter or a newline. -/
theorem Punctuator.text_chars (p : Punctuator) : ∀ x ∈ p.text.toList,
    x.isDigit = false ∧ Segment.isWordStart x = false ∧ x ≠ '\n' := by
  have h : (p.text.toList.all fun x =>
      !x.isDigit && (!Segment.isWordStart x && x != '\n')) = true := by
    cases p <;> decide
  intro x hx
  simpa using List.all_eq_true.mp h x hx

theorem isWordStart_of_isDigit {c : Char} (h : c.isDigit = true) :
    Segment.isWordStart c = false := by
  refine Bool.eq_false_iff.mpr fun hw => ?_
  change (decide (48 ≤ c.val) && decide (c.val ≤ 57)) = true at h
  change ((decide (65 ≤ c.val ∧ c.val ≤ 90) || decide (97 ≤ c.val) && decide (c.val ≤ 122)) ||
    decide (c = '_')) = true at hw
  simp only [Bool.or_eq_true, Bool.and_eq_true, decide_eq_true_eq,
    UInt32.le_iff_toNat_le] at h hw
  change 48 ≤ c.toNat ∧ c.toNat ≤ 57 at h
  change ((65 ≤ c.toNat ∧ c.toNat ≤ 90) ∨ (97 ≤ c.toNat ∧ c.toNat ≤ 122)) ∨ c = '_' at hw
  rcases hw with hw | rfl
  · omega
  · exact absurd h (by decide)

theorem isWordRest_of_isWordStart {c : Char} (h : Segment.isWordStart c = true) :
    Segment.isWordRest c = true := by
  simp only [Segment.isWordStart, Segment.isWordRest, Char.isAlphanum, Bool.or_eq_true] at h ⊢
  exact h.imp_left .inl

theorem IsMark.head {c : Char} {r : List Char} (h : IsMark (c :: r)) :
    c.isDigit = false ∧ Segment.isWordStart c = false := by
  obtain ⟨p, hp⟩ := h
  obtain ⟨hd, hw, -⟩ := p.text_chars c (hp ▸ List.mem_cons_self ..)
  exact ⟨hd, hw⟩

theorem IsWord.head {c : Char} {r : List Char} (h : IsWord (c :: r)) :
    Segment.isWordStart c = true := by
  obtain ⟨c', r', hw, hc, -⟩ := h
  cases hw
  exact hc

theorem IsDigits.head {c : Char} {r : List Char} (h : IsDigits (c :: r)) : c.isDigit = true :=
  h.2 c (List.mem_cons_self ..)

/-- A number with a point begins with a digit, or with a point and a digit. -/
theorem IsPointed.head {c : Char} {r : List Char} (h : IsPointed (c :: r)) :
    c.isDigit = true ∨ c = '.' ∧ r.head?.any Char.isDigit = true := by
  obtain ⟨whole, fraction, hw, hne, hd⟩ := h
  cases whole with
  | nil =>
    cases hw
    cases r with
    | nil => exact absurd rfl hne
    | cons d r => exact .inr ⟨rfl, hd d (List.mem_cons_self ..)⟩
  | cons d whole =>
    cases hw
    exact .inl (hd c (List.mem_cons_self ..))

theorem IsPlain.ne_nil {w : List Char} (h : IsPlain w) : w ≠ [] := by
  rintro rfl
  rcases h with ⟨p, hp⟩ | ⟨c, r, hw, -⟩ | ⟨hne, -⟩ | ⟨whole, fraction, hw, -⟩
  · exact p.text_ne_nil hp.symm
  · cases hw
  · exact hne rfl
  · exact List.append_ne_nil_of_right_ne_nil whole (List.cons_ne_nil _ _) hw.symm

/-- What is plain at the start of a text shares its first character. -/
theorem IsPlain.of_prefix {c : Char} {rest v : List Char} (hv : v <+: c :: rest)
    (h : IsPlain v) : ∃ r, v = c :: r ∧ r <+: rest := by
  rcases List.prefix_cons_iff.mp hv with rfl | h'
  · exact absurd rfl h.ne_nil
  · exact h'

/-! ## The longest of a class -/

/-- Where only one class fits, the longest of that class is the longest of all. -/
theorem Longest.plain {class_ : List Char → Prop} {text w : List Char}
    (h : Longest class_ text w) (hplain : IsPlain w)
    (honly : ∀ v, v <+: text → IsPlain v → class_ v) : Longest IsPlain text w :=
  ⟨h.isPrefix, hplain, fun v hv hp => h.length_le v hv (honly v hv hp)⟩

theorem prefix_takeWhile {p : Char → Bool} {v text : List Char} (hv : v <+: text)
    (hp : ∀ x ∈ v, p x = true) : v <+: text.takeWhile p := by
  obtain ⟨r, rfl⟩ := hv
  rw [List.takeWhile_append_of_pos hp]
  exact List.prefix_append _ _

theorem mem_takeWhile {p : Char → Bool} {x : Char} {text : List Char}
    (h : x ∈ text.takeWhile p) : p x = true :=
  List.all_eq_true.mp List.all_takeWhile x h

namespace Segment

/-! ## Marks -/

/-- A mark stands in the table behind every mark that it is the beginning of. -/
theorem all_pairwise : Punctuator.all.Pairwise fun p q =>
    ¬ (p.text.toList <+: q.text.toList ∧ p.text.toList.length < q.text.toList.length) := by
  decide

theorem punctuator?_longest {text : List Char} {p : Punctuator} (h : punctuator? text = some p) :
    Longest IsMark text p.text.toList := by
  obtain ⟨hp, before, after, hall, hbefore⟩ := List.find?_eq_some_iff_append.mp h
  have hpre : p.text.toList <+: text := List.isPrefixOf_iff_prefix.mp hp
  refine ⟨hpre, ⟨p, rfl⟩, ?_⟩
  rintro v hv ⟨q, rfl⟩
  refine Nat.le_of_not_lt fun hlt => ?_
  have hq : q ∈ before ++ p :: after := hall ▸ q.mem_all
  rcases List.mem_append.mp hq with hq | hq
  · have := hbefore q hq
    rw [List.isPrefixOf_iff_prefix.mpr hv] at this
    cases this
  · rcases List.mem_cons.mp hq with rfl | hq
    · exact Nat.lt_irrefl _ hlt
    · have hpair := hall ▸ all_pairwise
      have hrel := List.rel_of_pairwise_cons (List.pairwise_append.mp hpair).2.1 hq
      exact hrel ⟨List.prefix_of_prefix_length_le hpre hv (Nat.le_of_lt hlt), hlt⟩

theorem punctuator?_none {text v : List Char} (h : punctuator? text = none) (hv : v <+: text) :
    ¬ IsMark v := by
  rintro ⟨p, rfl⟩
  have hp := List.find?_eq_none.mp h p p.mem_all
  exact hp (List.isPrefixOf_iff_prefix.mpr hv)

/-! ## Words -/

theorem word_longest {c : Char} (rest : List Char) (hc : isWordStart c = true) :
    Longest IsPlain (c :: rest) ((c :: rest).takeWhile isWordRest) := by
  have hw : IsWord ((c :: rest).takeWhile isWordRest) := by
    refine ⟨c, rest.takeWhile isWordRest, ?_, hc, fun x hx => mem_takeWhile hx⟩
    rw [List.takeWhile_cons_of_pos (isWordRest_of_isWordStart hc)]
  have h : Longest IsWord (c :: rest) ((c :: rest).takeWhile isWordRest) := by
    refine ⟨List.takeWhile_prefix _, hw, ?_⟩
    rintro v hv ⟨c', r, rfl, hc', hr⟩
    refine (prefix_takeWhile hv ?_).length_le
    intro x hx
    rcases List.mem_cons.mp hx with rfl | hx
    · exact isWordRest_of_isWordStart hc'
    · exact hr x hx
  refine h.plain (.inr (.inl hw)) fun v hv hp => ?_
  obtain ⟨r, rfl, -⟩ := IsPlain.of_prefix hv hp
  rcases hp with hp | hp | hp | hp
  · rw [hp.head.2] at hc
    cases hc
  · exact hp
  · rw [isWordStart_of_isDigit hp.head] at hc
    cases hc
  · rcases hp.head with hd | ⟨rfl, -⟩
    · rw [isWordStart_of_isDigit hd] at hc
      cases hc
    · cases hc

/-! ## Numbers -/

/-- Digits in front of a point are the whole run of digits there. -/
theorem takeWhile_digits {whole : List Char} (rest : List Char)
    (h : ∀ x ∈ whole, x.isDigit = true) :
    (whole ++ '.' :: rest).takeWhile Char.isDigit = whole ∧
      (whole ++ '.' :: rest).dropWhile Char.isDigit = '.' :: rest := by
  have hpoint : ¬ Char.isDigit '.' = true := by decide
  rw [List.takeWhile_append_of_pos h, List.dropWhile_append_of_pos h,
    List.takeWhile_cons_of_neg hpoint, List.dropWhile_cons_of_neg hpoint, List.append_nil]
  exact ⟨rfl, rfl⟩

/-- A text that begins with digits and two points does so in one way. -/
theorem DigitsBeforePoints.eq {text digits : List Char} (h : DigitsBeforePoints text digits) :
    digits = text.takeWhile Char.isDigit ∧
      ∃ rest, text.dropWhile Char.isDigit = '.' :: '.' :: rest := by
  obtain ⟨⟨-, hd⟩, rest, rfl⟩ := h
  obtain ⟨h₁, h₂⟩ := takeWhile_digits ('.' :: rest) hd
  exact ⟨h₁.symm, rest, h₂⟩

theorem isDigits_takeWhile {c : Char} (rest : List Char) (hc : c.isDigit = true) :
    IsDigits ((c :: rest).takeWhile Char.isDigit) := by
  refine ⟨?_, fun x hx => mem_takeWhile hx⟩
  rw [List.takeWhile_cons_of_pos hc]
  exact List.cons_ne_nil _ _

/-- At a digit only numbers fit. -/
theorem number_of_plain {c : Char} {rest v : List Char} (hc : c.isDigit = true)
    (hv : v <+: c :: rest) (hp : IsPlain v) : IsDigits v ∨ IsPointed v := by
  obtain ⟨r, rfl, -⟩ := IsPlain.of_prefix hv hp
  rcases hp with hp | hp | hp
  · rw [hp.head.1] at hc
    cases hc
  · have := hp.head
    rw [isWordStart_of_isDigit hc] at this
    cases this
  · exact hp

/-- A number with a point that a text begins with takes the whole run of digits and digits
behind the point behind it. -/
theorem pointed_of_prefix {c : Char} {rest v : List Char} (hv : v <+: c :: rest)
    (hp : IsPointed v) :
    ∃ fraction behind, v = (c :: rest).takeWhile Char.isDigit ++ '.' :: fraction ∧
      (c :: rest).dropWhile Char.isDigit = '.' :: behind ∧
        fraction <+: behind.takeWhile Char.isDigit := by
  obtain ⟨whole, fraction, rfl, -, hd⟩ := hp
  obtain ⟨tail, ht⟩ := hv
  rw [List.append_assoc, List.cons_append] at ht
  obtain ⟨h₁, h₂⟩ := takeWhile_digits (fraction ++ tail) fun x (hx : x ∈ whole) =>
    hd x (List.mem_append_left _ hx)
  rw [ht] at h₁ h₂
  refine ⟨fraction, fraction ++ tail, by rw [h₁], h₂, ?_⟩
  exact prefix_takeWhile (List.prefix_append _ _) fun x hx => hd x (List.mem_append_right _ hx)

/-- The digits in front of which no point stands are a number at its longest. -/
theorem digits_longest {c : Char} {rest : List Char} (hc : c.isDigit = true)
    (hpoint : ((c :: rest).dropWhile Char.isDigit).head? ≠ some '.') :
    LongestLexeme (c :: rest) ((c :: rest).takeWhile Char.isDigit) := by
  refine .inr ⟨?_, List.takeWhile_prefix _, .inr (.inr (.inl (isDigits_takeWhile rest hc))), ?_⟩
  · rintro ⟨digits, h⟩
    obtain ⟨-, behind, hb⟩ := DigitsBeforePoints.eq h
    exact hpoint (by rw [hb]; rfl)
  · intro v hv hp
    rcases number_of_plain hc hv hp with hp | hp
    · exact (prefix_takeWhile hv hp.2).length_le
    · obtain ⟨_, behind, -, hb, -⟩ := pointed_of_prefix hv hp
      exact absurd (by rw [hb]; rfl) hpoint

theorem pointed_longest {c : Char} {rest behind : List Char} (hc : c.isDigit = true)
    (hb : (c :: rest).dropWhile Char.isDigit = '.' :: behind) (hnext : behind.head? ≠ some '.') :
    LongestLexeme (c :: rest)
      ((c :: rest).takeWhile Char.isDigit ++ '.' :: behind.takeWhile Char.isDigit) := by
  have hdigits := isDigits_takeWhile rest hc
  have hpointed : IsPointed
      ((c :: rest).takeWhile Char.isDigit ++ '.' :: behind.takeWhile Char.isDigit) := by
    refine ⟨_, _, rfl, List.append_ne_nil_of_left_ne_nil hdigits.1 _, fun x hx => ?_⟩
    rcases List.mem_append.mp hx with hx | hx
    · exact mem_takeWhile hx
    · exact mem_takeWhile hx
  refine .inr ⟨?_, ?_, .inr (.inr (.inr hpointed)), ?_⟩
  · rintro ⟨digits, h⟩
    obtain ⟨-, behind', hb'⟩ := DigitsBeforePoints.eq h
    rw [hb] at hb'
    cases hb'
    exact hnext rfl
  · conv => rhs; rw [← List.takeWhile_append_dropWhile (p := Char.isDigit) (l := c :: rest), hb]
    exact (List.prefix_append_right_inj _).mpr
      ((List.prefix_cons_inj _).mpr (List.takeWhile_prefix _))
  · intro v hv hp
    rcases number_of_plain hc hv hp with hp | hp
    · refine Nat.le_trans (prefix_takeWhile hv hp.2).length_le ?_
      rw [List.length_append]
      exact Nat.le_add_right _ _
    · obtain ⟨fraction, behind', rfl, hb', hf⟩ := pointed_of_prefix hv hp
      rw [hb] at hb'
      cases hb'
      have := hf.length_le
      simp only [List.length_append, List.length_cons]
      omega

/-- Behind a point with which a number begins, all digits are taken. -/
theorem fraction_longest {rest : List Char} (hd : rest.head?.any Char.isDigit = true) :
    LongestLexeme ('.' :: rest) ('.' :: rest.takeWhile Char.isDigit) := by
  obtain ⟨d, rest, rfl⟩ : ∃ d r, rest = d :: r := by
    cases rest with
    | nil => cases hd
    | cons d r => exact ⟨d, r, rfl⟩
  have hd' : d.isDigit = true := hd
  have hpointed : IsPointed ('.' :: (d :: rest).takeWhile Char.isDigit) :=
    ⟨[], _, rfl, (isDigits_takeWhile rest hd').1, fun x hx => mem_takeWhile hx⟩
  refine .inr ⟨?_, (List.prefix_cons_inj _).mpr (List.takeWhile_prefix _),
    .inr (.inr (.inr hpointed)), ?_⟩
  · rintro ⟨digits, ⟨hne, hall⟩, behind, hb⟩
    cases digits with
    | nil => exact hne rfl
    | cons x digits =>
      obtain ⟨rfl, -⟩ := List.cons.inj hb
      exact absurd (hall '.' (List.mem_cons_self ..)) (by decide)
  · intro v hv hp
    obtain ⟨r, rfl, hr⟩ := IsPlain.of_prefix hv hp
    rcases hp with ⟨p, hp⟩ | hp | hp | ⟨whole, fraction, hw, -, hall⟩
    · -- The only mark that fits is the point itself: a longer one would hold the digit.
      cases r with
      | nil => exact Nat.le_add_left _ _
      | cons x r =>
        obtain ⟨rfl, -⟩ := List.cons_prefix_cons.mp hr
        have := (p.text_chars x (hp ▸ by simp)).1
        rw [hd'] at this
        cases this
    · exact absurd hp.head (by decide)
    · exact absurd hp.head (by decide)
    · cases whole with
      | nil =>
        cases hw
        exact Nat.succ_le_succ (prefix_takeWhile hr hall).length_le
      | cons x whole =>
        cases hw
        exact absurd (hall '.' (List.mem_cons_self ..)) (by decide)

/-- Where neither a word nor a number begins, only marks fit. -/
theorem mark_of_plain {c : Char} {rest v : List Char} (hd : ¬ c.isDigit = true)
    (hw : ¬ isWordStart c = true) (hp : ¬ (c = '.' ∧ rest.head?.any Char.isDigit = true))
    (hv : v <+: c :: rest) (h : IsPlain v) : IsMark v := by
  obtain ⟨r, rfl, hr⟩ := IsPlain.of_prefix hv h
  rcases h with h | h | h | h
  · exact h
  · exact absurd h.head hw
  · exact absurd h.head hd
  · rcases h.head with hc | ⟨rfl, hnext⟩
    · exact absurd hc hd
    · refine absurd ⟨rfl, ?_⟩ hp
      obtain ⟨t, rfl⟩ := hr
      cases r with
      | nil => cases hnext
      | cons x r => exact hnext

end Segment

end CSubset
