-- SUMMARY: Which digits of a text are integers and which are floats, what they stand for, and when that is reported.
import CSubset.Proofs.Token.Lookahead
import CSubset.Proofs.Token.Partition
import Mathlib.Algebra.Group.Nat.Defs
import Mathlib.Data.List.TakeWhile

/-!
# Numbers

A number begins with a digit, or with a point and a digit. Digits are a float if a point stands
behind them that no further point follows; otherwise they are an integer, which is too large from
`2 ^ 63` on. What is scanned as a float is a numeral of a double, so the digits of integers are all
that is ever reported as an invalid number.
-/

namespace CSubset

open Segment

instance (w : List Char) : Decidable (IsDigits w) :=
  decidable_of_iff (w.isEmpty = false ∧ w.all Char.isDigit = true) (by simp [IsDigits])

/-! ## Where a float begins -/

/-- A point that belongs to the digits in front of it: no further point follows. -/
def PointAhead (text : List Char) : Prop := ∃ rest, text = '.' :: rest ∧ rest.head? ≠ some '.'

/-- Digits with a point behind them that belongs to them, or with a point in front of them. -/
def BeginsFloat (text : List Char) : Prop :=
  ∃ digits rest, IsDigits digits ∧
    (text = digits ++ rest ∧ PointAhead rest ∨ text = '.' :: (digits ++ rest))

theorem BeginsFloat.head {c : Char} {rest : List Char} (h : BeginsFloat (c :: rest)) :
    c.isDigit = true ∨ c = '.' ∧ rest.head?.any Char.isDigit = true := by
  obtain ⟨digits, behind, hdigits, ⟨htext, -⟩ | htext⟩ := h
  · cases digits with
    | nil => exact absurd rfl hdigits.1
    | cons d digits =>
      obtain ⟨rfl, -⟩ := List.cons.inj htext
      exact .inl hdigits.head
  · obtain ⟨rfl, rfl⟩ := List.cons.inj htext
    cases digits with
    | nil => exact absurd rfl hdigits.1
    | cons d digits => exact .inr ⟨rfl, hdigits.head⟩

theorem isDigits_fraction {rest : List Char} (h : rest.head?.any Char.isDigit = true) :
    IsDigits (rest.takeWhile Char.isDigit) := by
  cases rest with
  | nil => cases h
  | cons d rest => exact isDigits_takeWhile rest h

theorem beginsFloat_point {rest : List Char} (h : rest.head?.any Char.isDigit = true) :
    BeginsFloat ('.' :: rest) := by
  refine ⟨rest.takeWhile Char.isDigit, rest.dropWhile Char.isDigit, isDigits_fraction h, .inr ?_⟩
  rw [List.takeWhile_append_dropWhile]

/-- Digits without a point that belongs to them begin no float. -/
theorem not_beginsFloat {digits rest : List Char} (hdigits : IsDigits digits)
    (hrest : rest.takeWhile Char.isDigit = []) (hpoint : ¬ PointAhead rest) :
    ¬ BeginsFloat (digits ++ rest) := by
  rintro ⟨digits', _, hdigits', ⟨htext, behind, rfl, hnext⟩ | htext⟩
  · have hrun : (digits ++ rest).takeWhile Char.isDigit = digits := by
      rw [List.takeWhile_append_of_pos hdigits.2, hrest, List.append_nil]
    obtain rfl : digits = digits' := by
      rw [← hrun, htext]
      exact (takeWhile_digits behind hdigits'.2).1
    exact hpoint ⟨behind, List.append_cancel_left htext, hnext⟩
  · cases digits with
    | nil => exact hdigits.1 rfl
    | cons d digits =>
      obtain ⟨rfl, -⟩ := List.cons.inj htext
      cases hdigits.head

/-! ## Conversion -/

/-- Digits around a point are the numeral of a double. -/
theorem Binary64.ofText?_pointed {whole fraction : List Char}
    (hdigits : ∀ c ∈ whole ++ fraction, c.isDigit = true) (hne : whole ++ fraction ≠ []) :
    ofText? (String.ofList (whole ++ '.' :: fraction)) = some (ofPointed whole fraction) := by
  obtain ⟨hwhole, hfraction⟩ := List.forall_mem_append.mp hdigits
  have hsign : splitSign (whole ++ '.' :: fraction) = (false, whole ++ '.' :: fraction) := by
    cases whole with
    | nil => rfl
    | cons d whole =>
      have hd := hwhole d List.mem_cons_self
      unfold splitSign
      split
      · next heq =>
        cases heq
        cases hd
      · next heq =>
        cases heq
        cases hd
      · rfl
  have hword (name : String) (hname : '.' ∉ name.toList) :
      String.ofList ((whole ++ '.' :: fraction).map Char.toLower) ≠ name := by
    rintro rfl
    rw [String.toList_ofList] at hname
    exact hname (List.mem_map.mpr ⟨'.', by simp, rfl⟩)
  have hnumeral : ofDigits? (whole ++ '.' :: fraction) = some (ofPointed whole fraction) := by
    obtain ⟨htake, hdrop⟩ := takeWhile_digits fraction hwhole
    have htake' : fraction.takeWhile Char.isDigit = fraction :=
      List.takeWhile_eq_self_iff.mpr hfraction
    have hdrop' : fraction.dropWhile Char.isDigit = [] := List.dropWhile_eq_nil_iff.mpr hfraction
    have hempty : ¬ (whole.isEmpty = true ∧ fraction.isEmpty = true) := by
      simpa [List.isEmpty_iff] using hne
    simp only [ofDigits?, htake, hdrop, htake', hdrop', if_neg hempty]
    simp [exponent?, ofPointed]
  rw [ofText?, String.toList_ofList, hsign]
  dsimp only
  rw [if_neg, if_neg (hword "nan" (by decide)), hnumeral]
  · rfl
  · rintro (h | h)
    · exact hword "inf" (by decide) h
    · exact hword "infinity" (by decide) h

/-! ## Segments -/

/-- Whether an error reports a number. -/
def LexicalError.Kind.isInvalidNumber : LexicalError.Kind → Bool
  | .invalidNumber _ => true
  | _ => false

theorem OfText.isInvalidNumber {limit : Nat} {faults : List Fault} (h : OfText limit faults) :
    ∀ f ∈ faults, f.kind.isInvalidNumber = false := by
  intro f hf
  have hkind := (h f hf).1
  cases hk : f.kind <;> rw [hk] at hkind
  case invalidNumber => exact hkind.elim
  all_goals rfl

namespace Segment

/-- The value of a text of decimal digits, most significant first. -/
def value (s : Segment) : Nat := Nat.ofDigitChars 10 s.text 0

/-- The report of a segment at `l` whose digits are too large an integer. -/
def oversized? (s : Segment) (l : Location) : Option LexicalError :=
  if IsDigits s.text ∧ 2 ^ 63 - 1 < s.value then some ⟨.invalidNumber (String.ofList s.text), l⟩
  else none

/-- A number that begins a text: digits without a point that belongs to them are an integer, and
digits with one are a float. -/
theorem ofNumber_cases {c : Char} (rest : List Char) (hc : c.isDigit = true) :
    (∃ digits behind, IsDigits digits ∧ c :: rest = digits ++ behind ∧
      behind.takeWhile Char.isDigit = [] ∧ ¬ PointAhead behind ∧
        ofNumber (c :: rest) = ofDigits digits) ∨
      ∃ whole fraction, whole ++ fraction ≠ [] ∧ (∀ x ∈ whole ++ fraction, x.isDigit = true) ∧
        BeginsFloat (c :: rest) ∧ ofNumber (c :: rest) = ofPointed whole fraction := by
  have hdigits := isDigits_takeWhile rest hc
  have hdrop : ((c :: rest).dropWhile Char.isDigit).takeWhile Char.isDigit = [] := by
    have hhead := List.head?_dropWhile_not Char.isDigit (c :: rest)
    cases h : (c :: rest).dropWhile Char.isDigit with
    | nil => rfl
    | cons d behind =>
      rw [h] at hhead
      exact List.takeWhile_cons_of_neg (by simpa using hhead)
  have htext := List.takeWhile_append_dropWhile (p := Char.isDigit) (l := c :: rest)
  generalize (c :: rest).takeWhile Char.isDigit = digits at *
  generalize (c :: rest).dropWhile Char.isDigit = behind at *
  rw [← htext]
  by_cases hpoint : PointAhead behind
  · obtain ⟨ahead, rfl, hnext⟩ := hpoint
    refine .inr ⟨digits, ahead.takeWhile Char.isDigit,
      List.append_ne_nil_of_left_ne_nil hdigits.1 _,
      List.forall_mem_append.mpr ⟨hdigits.2, fun _ => mem_takeWhile⟩,
      ⟨digits, _, hdigits, .inl ⟨rfl, ahead, rfl, hnext⟩⟩, ?_⟩
    rw [ofNumber_of_point hdigits.2, if_neg hnext]
  · refine .inl ⟨digits, behind, hdigits, rfl, hdrop, hpoint, ?_⟩
    by_cases hhead : behind.head? = some '.'
    · obtain ⟨ahead, rfl⟩ := List.head?_eq_some_iff.mp hhead
      have hnext : ahead.head? = some '.' := by
        by_contra hnext
        exact hpoint ⟨ahead, rfl, hnext⟩
      rw [ofNumber_of_point hdigits.2, if_pos hnext]
    · exact ofNumber_of_no_point hdigits.2 hdrop hhead

/-- The first segment of a text is an integer, a float, or neither of them. -/
theorem first_cases (c : Char) (rest : List Char) :
    (∃ digits, IsDigits digits ∧ c.isDigit = true ∧ ¬ BeginsFloat (c :: rest) ∧
      first c rest = ofDigits digits) ∨
      (∃ whole fraction, whole ++ fraction ≠ [] ∧ (∀ x ∈ whole ++ fraction, x.isDigit = true) ∧
        BeginsFloat (c :: rest) ∧ first c rest = ofPointed whole fraction) ∨
      (c.isDigit = false ∧ ¬ (c = '.' ∧ rest.head?.any Char.isDigit = true) ∧
        ∀ f ∈ (first c rest).faults, f.kind.isInvalidNumber = false) := by
  by_cases hd : c.isDigit = true
  · rw [first_of_isDigit hd]
    rcases ofNumber_cases rest hd with ⟨digits, behind, hdigits, htext, hbehind, hpoint, heq⟩ | h
    · exact .inl ⟨digits, hdigits, hd, htext ▸ not_beginsFloat hdigits hbehind hpoint, heq⟩
    · exact .inr (.inl h)
  by_cases hp : c = '.' ∧ rest.head?.any Char.isDigit = true
  · obtain ⟨rfl, hnext⟩ := hp
    have hdigits := isDigits_fraction hnext
    have hfirst : first '.' rest = ofPointed [] (rest.takeWhile Char.isDigit) := by
      rw [first_of_notMem (by decide), if_neg (by decide), if_neg (by decide), if_pos ⟨rfl, hnext⟩]
    exact .inr (.inl ⟨[], _, hdigits.1, hdigits.2, beginsFloat_point hnext, hfirst⟩)
  · refine .inr (.inr ⟨Bool.eq_false_iff.mpr hd, hp, ?_⟩)
    apply first_elim (P := fun s => ∀ f ∈ s.faults, f.kind.isInvalidNumber = false)
    case blank | lineComment | word => exact List.forall_mem_nil _
    case blockComment => exact fun f hf => by rw [ofComment_hasFaults _ f hf]; rfl
    case string => exact fun _ => (ofString_ofText rest).isInvalidNumber
    case char => exact fun _ => (ofChar_ofText rest).isInvalidNumber
    case number => exact fun hc => absurd hc hd
    case point => exact fun _ _ => List.forall_mem_nil _
    case mark => exact fun _ => List.forall_mem_nil _
    case illegal => exact List.forall_mem_singleton.mpr rfl

/-- How a segment at `l`, from where on the text is `text`, reads numbers. Digits are an integer of
their value, which is reported if it is too large; a float is a numeral and has its value; and it
depends on the point whether digits are the one or the other. -/
structure ReadsNumber (s : Segment) (text : List Char) (l : Location) : Prop where
  integer : IsDigits s.text → (s.token? l, s.errors l) =
    if s.value ≤ 2 ^ 63 - 1 then (some ⟨.intLiteral s.value, l⟩, [])
    else (some ⟨.intLiteral 0, l⟩, [⟨.invalidNumber (String.ofList s.text), l⟩])
  float : ∀ value, s.content = .lexeme (.floatLiteral value) →
    IsPointed s.text ∧ Binary64.ofText? (String.ofList s.text) = some value
  isFloat : (∃ value, s.content = .lexeme (.floatLiteral value)) ↔ BeginsFloat text
  isInteger : (∃ value, s.content = .lexeme (.intLiteral value)) ↔
    text.head?.any Char.isDigit = true ∧ ¬ BeginsFloat text

theorem ofDigits_readsNumber (digits : List Char) {text : List Char}
    (hhead : text.head?.any Char.isDigit = true) (hfloat : ¬ BeginsFloat text) (l : Location) :
    (ofDigits digits).ReadsNumber text l := by
  have hvalue : (ofDigits digits).value = Binary64.digitsValue digits := by
    rw [value, ofDigits_text]
    rfl
  have hcontent : ∃ value, (ofDigits digits).content = .lexeme (.intLiteral value) := by
    unfold ofDigits
    dsimp only
    split <;> exact ⟨_, rfl⟩
  have hnot (value : Binary64) : (ofDigits digits).content ≠ .lexeme (.floatLiteral value) := by
    obtain ⟨n, hn⟩ := hcontent
    rw [hn]
    nofun
  refine ⟨fun _ => ?_, fun value hv => absurd hv (hnot value), ?_, ?_⟩
  · have hmax : 2 ^ 63 - 1 = maxInt := rfl
    rw [hvalue, hmax]
    unfold ofDigits
    dsimp only
    split <;> rfl
  · exact iff_of_false (not_exists.mpr hnot) hfloat
  · exact iff_of_true hcontent ⟨hhead, hfloat⟩

theorem ofPointed_readsNumber {whole fraction text : List Char} (hne : whole ++ fraction ≠ [])
    (hdigits : ∀ x ∈ whole ++ fraction, x.isDigit = true) (hfloat : BeginsFloat text)
    (l : Location) : (ofPointed whole fraction).ReadsNumber text l := by
  refine ⟨fun h => ?_, fun value hv => ?_, ?_, ?_⟩
  · cases h.2 '.' (List.mem_append_right _ List.mem_cons_self)
  · cases hv
    exact ⟨⟨whole, fraction, rfl, hne, hdigits⟩, Binary64.ofText?_pointed hdigits hne⟩
  · exact iff_of_true ⟨_, rfl⟩ hfloat
  · exact iff_of_false nofun fun hint => hint.2 hfloat

/-- What begins with neither a digit nor a point and a digit is no number. -/
theorem first_not_number {c : Char} {rest : List Char} (hc : c.isDigit = false)
    (hp : ¬ (c = '.' ∧ rest.head?.any Char.isDigit = true)) :
    ¬ IsDigits (first c rest).text ∧
      (¬ ∃ value, (first c rest).content = .lexeme (.intLiteral value)) ∧
      ¬ ∃ value, (first c rest).content = .lexeme (.floatLiteral value) := by
  obtain ⟨hpre, hform⟩ := first_fits c rest
  have hdigits : ¬ IsDigits (first c rest).text := by
    intro h
    obtain ⟨r, hr, -⟩ := IsPlain.of_prefix hpre (.inr (.inr (.inl h)))
    rw [hr] at h
    exact Bool.false_ne_true (hc.symm.trans h.head)
  have hpointed : ¬ IsPointed (first c rest).text := by
    intro h
    obtain ⟨r, hr, behind, rfl⟩ := IsPlain.of_prefix hpre (.inr (.inr (.inr h)))
    rw [hr] at h
    rcases h.head with hd | ⟨rfl, hnext⟩
    · exact Bool.false_ne_true (hc.symm.trans hd)
    · cases r with
      | nil => cases hnext
      | cons d r => exact hp ⟨rfl, hnext⟩
  refine ⟨hdigits, ?_, ?_⟩
  · rintro ⟨value, hvalue⟩
    rw [HasForm, hvalue] at hform
    exact hdigits hform.1
  · rintro ⟨value, hvalue⟩
    rw [HasForm, hvalue] at hform
    exact hpointed hform.1

theorem first_readsNumber (c : Char) (rest : List Char) (l : Location) :
    (first c rest).ReadsNumber (c :: rest) l := by
  rcases first_cases c rest with ⟨digits, hdigits, hc, hfloat, heq⟩ |
    ⟨whole, fraction, hne, hdigits, hfloat, heq⟩ | ⟨hc, hp, -⟩
  · have hhead : (c :: rest).head?.any Char.isDigit = true := hc
    rw [heq]
    exact ofDigits_readsNumber digits hhead hfloat l
  · rw [heq]
    exact ofPointed_readsNumber hne hdigits hfloat l
  · obtain ⟨hdigits, hint, hfloat⟩ := first_not_number hc hp
    have hbegins : ¬ BeginsFloat (c :: rest) := by
      intro h
      rcases h.head with hd | hpoint
      · exact Bool.false_ne_true (hc.symm.trans hd)
      · exact hp hpoint
    have hhead : (c :: rest).head?.any Char.isDigit = false := hc
    refine ⟨fun h => absurd h hdigits, fun value hvalue => absurd ⟨value, hvalue⟩ hfloat,
      iff_of_false hfloat hbegins, iff_of_false hint fun h => ?_⟩
    exact Bool.false_ne_true (hhead.symm.trans h.1)

/-- Invalid numbers are reported of integers that are too large, and of nothing else. -/
theorem first_oversized (c : Char) (rest : List Char) (l : Location) :
    ((first c rest).errors l).filter (fun e => e.kind.isInvalidNumber) =
      ((first c rest).oversized? l).toList := by
  rcases first_cases c rest with ⟨digits, hdigits, hc, hfloat, heq⟩ |
    ⟨whole, fraction, hne, hdigits, hfloat, heq⟩ | ⟨hc, hp, hfaults⟩
  · have hhead : (c :: rest).head?.any Char.isDigit = true := hc
    have hread := (ofDigits_readsNumber digits hhead hfloat l).integer (by rwa [ofDigits_text])
    rw [heq, oversized?, ofDigits_text]
    split at hread
    · next hle =>
      rw [(Prod.mk.inj hread).2, if_neg fun h => Nat.not_lt.mpr hle h.2]
      rfl
    · next hlt =>
      rw [(Prod.mk.inj hread).2, if_pos ⟨hdigits, Nat.not_le.mp hlt⟩, ofDigits_text]
      rfl
  · rw [heq, oversized?, if_neg]
    · rfl
    · exact fun h => nomatch h.1.2 '.' (List.mem_append_right _ List.mem_cons_self)
  · rw [oversized?, if_neg fun h => (first_not_number hc hp).1 h.1, Option.toList_none,
      List.filter_eq_nil_iff]
    intro e he
    obtain ⟨f, hf, rfl⟩ := List.mem_map.mp he
    rw [hfaults f hf]
    exact Bool.false_ne_true

end Segment

/-- A segment of digits is an integer of their value, or zero and one error if they are too large,
and these errors are all that report a number. What is scanned as a float has digits and one point
and is the numeral of its value; digits are scanned as a float exactly if a point stands behind
them that no further point follows, or in front of them as part of the token. -/
theorem scan_numbers (source : String) :
    scan source =
      ⟨(placed [] (segments source.toList)).filterMap fun p => p.2.token? (.behind p.1),
        (placed [] (segments source.toList)).flatMap fun p => p.2.errors (.behind p.1)⟩ ∧
    (∀ p ∈ placed [] (segments source.toList), ∃ behind,
      source.toList = p.1 ++ (p.2.text ++ behind) ∧
        p.2.ReadsNumber (p.2.text ++ behind) (.behind p.1)) ∧
    (scan source).errors.filter (fun e => e.kind.isInvalidNumber) =
      (placed [] (segments source.toList)).filterMap fun p => p.2.oversized? (.behind p.1) := by
  have hscan : scan source = Scan.place (.behind []) (segments source.toList) := rfl
  rw [hscan, place_eq]
  refine ⟨rfl, fun p hp => ?_, ?_⟩
  · obtain ⟨c, rest, behind, hsource, htext, hfirst⟩ := placed_segments hp
    refine ⟨behind, ?_⟩
    rw [← htext, hfirst]
    exact ⟨hsource, first_readsNumber c rest _⟩
  · rw [List.filter_flatMap, List.filterMap_eq_flatMap_toList]
    refine List.flatMap_congr fun p hp => ?_
    obtain ⟨c, rest, -, -, -, hfirst⟩ := placed_segments hp
    rw [hfirst]
    exact first_oversized c rest _

/-- Two points do not belong to the digits in front of them, but the second one begins a float. -/
example : scan "007 9223372036854775808 1..5" =
    ⟨[⟨.intLiteral 7, ⟨1, 1⟩⟩, ⟨.intLiteral 0, ⟨1, 5⟩⟩, ⟨.intLiteral 1, ⟨1, 25⟩⟩,
      ⟨.punctuator .dot, ⟨1, 26⟩⟩, ⟨.floatLiteral (.ofPointed [] ['5']), ⟨1, 27⟩⟩],
      [⟨.invalidNumber "9223372036854775808", ⟨1, 5⟩⟩]⟩ := by
  decide +kernel

end CSubset
