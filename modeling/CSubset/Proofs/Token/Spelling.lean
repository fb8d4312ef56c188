-- SUMMARY: However the characters of a text literal are written, the literal is read as those characters.
import CSubset.Proofs.Token.Lookahead
import CSubset.Proofs.Token.Partition

/-!
# Spellings of text literals

A character inside a literal stands for itself, or is written behind a backslash by a letter or by
its number. `CharSpelling` lists these ways without the scanner, and `TextSpelling` puts them one
behind the other. What is written so is read back wherever it stands: an escape sequence is taken
for what it is (`CharSpelling.forms`), so no quote or backslash of the value ends the literal. Only
a number of one digit depends on the character that is written next.
-/

namespace CSubset

/-! ## Hexadecimal digits -/

/-- The digit for a number below 16, of either case. -/
def HexDigit (n : Nat) (d : Char) : Prop :=
  n < 16 ∧ (d = n.digitChar ∨ d = n.digitChar.toUpper)

instance (n : Nat) (d : Char) : Decidable (HexDigit n d) :=
  inferInstanceAs (Decidable (_ ∧ _))

namespace EscapeSequence

variable {d : Char} {n : Nat}

theorem isHexDigit_of_hexDigit (h : HexDigit n d) : isHexDigit d = true ∧ hexDigitValue d = n := by
  obtain ⟨hn, hd⟩ := h
  have hall : ∀ n < 16, (isHexDigit n.digitChar = true ∧ hexDigitValue n.digitChar = n) ∧
      isHexDigit n.digitChar.toUpper = true ∧ hexDigitValue n.digitChar.toUpper = n := by decide
  rcases hd with rfl | rfl
  · exact (hall n hn).1
  · exact (hall n hn).2

theorem hexDigit_of_isHexDigit (h : isHexDigit d = true) : HexDigit (hexDigitValue d) d := by
  have hlt : d.toNat < 103 := by
    simp only [isHexDigit, Bool.or_eq_true, Bool.and_eq_true, decide_eq_true_eq,
      Char.isDigit_iff_toNat, Char.le_def, UInt32.le_iff_toNat_le] at h
    rcases h with (⟨-, hd⟩ | ⟨-, hd⟩) | ⟨-, hd⟩ <;> exact Nat.lt_of_le_of_lt hd (by decide)
  have hall : ∀ k < 103, isHexDigit (Char.ofNat k) = true →
      HexDigit (hexDigitValue (Char.ofNat k)) (Char.ofNat k) := by decide
  have hd := hall d.toNat hlt
  rw [Char.ofNat_toNat] at hd
  exact hd h

end EscapeSequence

/-! ## Spellings -/

/-- The letters behind a backslash that stand for a character. -/
def namedEscapes : List (Char × Char) :=
  [('n', '\n'), ('t', '\t'), ('r', '\r'), ('0', '\x00'), ('\\', '\\'), ('\'', '\''), ('"', '"')]

/-- The ways to write a character inside a literal between `quote`s: as it is, by a letter, or by
its number in two hexadecimal digits or in one; `next` is the character that is written next. -/
inductive CharSpelling (quote : Char) (next : Option Char) : Char → List Char → Prop where
  | raw {c : Char} : c ≠ quote → c ≠ '\\' → c ≠ '\n' → CharSpelling quote next c [c]
  | named {letter c : Char} : (letter, c) ∈ namedEscapes → CharSpelling quote next c ['\\', letter]
  | pair {c : Char} {m n : Nat} {d e : Char} : HexDigit m d → HexDigit n e →
      c.toNat = 16 * m + n → CharSpelling quote next c ['\\', 'x', d, e]
  | single {c d : Char} : HexDigit c.toNat d → (∀ e ∈ next, ∀ n, ¬ HexDigit n e) →
      CharSpelling quote next c ['\\', 'x', d]

/-- The ways to write a text inside a literal: each character in one of its ways. -/
inductive TextSpelling (quote : Char) (next : Option Char) : List Char → List Char → Prop where
  | nil : TextSpelling quote next [] []
  | cons {c : Char} {w text ws : List Char} : CharSpelling quote (ws.head?.or next) c w →
      TextSpelling quote next text ws → TextSpelling quote next (c :: text) (w ++ ws)

variable {quote c : Char} {w rest : List Char}

/-- A character that is not written as it is stands behind a backslash, as an escape sequence that
is read as the character. -/
theorem CharSpelling.forms (h : CharSpelling quote rest.head? c w) :
    (w = [c] ∧ c ≠ quote ∧ c ≠ '\\' ∧ c ≠ '\n') ∨
      ∃ v, w = '\\' :: v ∧ EscapeSequence.read (v ++ rest) = ⟨v, some c, none⟩ := by
  cases h with
  | raw hquote hbackslash hline => exact .inl ⟨rfl, hquote, hbackslash, hline⟩
  | @named letter _ hnamed =>
    refine .inr ⟨[letter], rfl, ?_⟩
    simp only [namedEscapes, List.mem_cons, List.not_mem_nil, or_false, Prod.mk.injEq] at hnamed
    rcases hnamed with ⟨rfl, rfl⟩ | ⟨rfl, rfl⟩ | ⟨rfl, rfl⟩ | ⟨rfl, rfl⟩ | ⟨rfl, rfl⟩ |
      ⟨rfl, rfl⟩ | ⟨rfl, rfl⟩ <;> rfl
  | @pair _ m n d e hd he hvalue =>
    obtain ⟨hd, hm⟩ := EscapeSequence.isHexDigit_of_hexDigit hd
    obtain ⟨he, hn⟩ := EscapeSequence.isHexDigit_of_hexDigit he
    refine .inr ⟨['x', d, e], rfl, ?_⟩
    have hc : Char.ofNat (16 * m + n) = c := hvalue ▸ Char.ofNat_toNat c
    simp [EscapeSequence.read, EscapeSequence.hexValue, hd, he, hm, hn, hc]
  | @single _ d hd hnext =>
    obtain ⟨hd, hm⟩ := EscapeSequence.isHexDigit_of_hexDigit hd
    refine .inr ⟨['x', d], rfl, ?_⟩
    have hstop : (rest.take 1).takeWhile EscapeSequence.isHexDigit = [] := by
      cases rest with
      | nil => rfl
      | cons e rest =>
        have he : ¬ EscapeSequence.isHexDigit e = true := fun he =>
          hnext e rfl _ (EscapeSequence.hexDigit_of_isHexDigit he)
        simp [he]
    simp [EscapeSequence.read, EscapeSequence.hexValue, hd, hm, hstop]

/-- A spelling of a text in front of anything is read as the text, and the reading goes on behind
it. -/
theorem TextSpelling.read {text : List Char} (h : TextSpelling '"' rest.head? text w)
    (offset : Nat) :
    StringBody.read offset (w ++ rest) =
      let body := StringBody.read (offset + w.length) rest
      ⟨w ++ body.text, text ++ body.value, body.faults, body.closed⟩ := by
  induction h generalizing offset with
  | nil => rfl
  | @cons c w text ws hc _ ih =>
    rw [← List.head?_append] at hc
    rw [List.append_assoc]
    rcases hc.forms with ⟨rfl, hquote, hbackslash, hline⟩ | ⟨v, rfl, hescape⟩
    · have hoffset : offset + 1 + ws.length = offset + ([c] ++ ws).length := by
        simp only [List.length_append, List.length_singleton]
        omega
      rw [List.singleton_append, StringBody.read, if_neg hline, if_neg hquote, if_neg hbackslash,
        ih, hoffset]
      rfl
    · have hoffset : offset + 1 + v.length + ws.length = offset + ('\\' :: v ++ ws).length := by
        simp only [List.length_append, List.length_cons]
        omega
      rw [List.cons_append, StringBody.read, if_neg (by decide), if_neg (by decide), if_pos rfl,
        hescape]
      dsimp only
      rw [List.drop_left, ih, hoffset]
      simp [EscapeSequence.faults]

namespace Segment

theorem first_string_of_spelling {text : List Char} (h : TextSpelling '"' (some '"') text w)
    (behind : List Char) :
    first '"' (w ++ ['"'] ++ behind) =
      ofLexeme ('"' :: (w ++ ['"'])) (.stringLiteral (String.ofList text)) [] := by
  have hclosed (offset : Nat) : StringBody.read offset ('"' :: behind) = ⟨['"'], [], [], true⟩ := by
    rw [StringBody.read, if_neg (by decide), if_pos rfl]
  have hstring : first '"' (w ++ '"' :: behind) = ofString (w ++ '"' :: behind) := rfl
  have htext : TextSpelling '"' ('"' :: behind).head? text w := h
  rw [← List.append_cons, hstring, ofString, htext.read, hclosed]
  simp

theorem first_char_of_spelling (h : CharSpelling '\'' (some '\'') c w) (behind : List Char) :
    first '\'' (w ++ ['\''] ++ behind) =
      ofLexeme ('\'' :: (w ++ ['\''])) (.charLiteral c) [] := by
  have hclose (read : List Char) (value : Char) :
      closeChar read value [] ('\'' :: behind) =
        ofLexeme (read ++ ['\'']) (.charLiteral value) [] :=
    if_pos rfl
  have hchar : first '\'' (w ++ '\'' :: behind) = ofChar (w ++ '\'' :: behind) := rfl
  have hspelling : CharSpelling '\'' ('\'' :: behind).head? c w := h
  rw [← List.append_cons, hchar]
  rcases hspelling.forms with ⟨rfl, hquote, hbackslash, hline⟩ | ⟨v, rfl, hescape⟩
  · rw [List.singleton_append, ofChar, if_neg hline, if_neg hquote, if_neg hbackslash, hclose]
    rfl
  · rw [List.cons_append, ofChar_escape_of_some (by rw [hescape]), hescape]
    dsimp only
    rw [List.drop_left]
    exact hclose _ _

end Segment

/-! ## Literals in a text -/

/-- A text literal, however its characters are written, is one token with exactly these characters
and without an error, and the scan goes on right behind its closing quote, whatever stands there.
So is a constant with one character. -/
theorem Scanner.next_of_spelling (behind : List Char) (l : Location) (errors : List LexicalError) :
    (∀ text w, TextSpelling '"' (some '"') text w →
      next ⟨'"' :: (w ++ '"' :: behind), l, errors⟩ =
        (some ⟨.stringLiteral (String.ofList text), l⟩,
          ⟨behind, l.after ('"' :: (w ++ ['"'])), errors⟩)) ∧
    ∀ c w, CharSpelling '\'' (some '\'') c w →
      next ⟨'\'' :: (w ++ '\'' :: behind), l, errors⟩ =
        (some ⟨.charLiteral c, l⟩, ⟨behind, l.after ('\'' :: (w ++ ['\''])), errors⟩) := by
  refine ⟨fun text w h => ?_, fun c w h => ?_⟩
  · rw [List.append_cons]
    exact next_of_lexeme (Segment.first_string_of_spelling h behind) l errors
  · rw [List.append_cons]
    exact next_of_lexeme (Segment.first_char_of_spelling h behind) l errors

/-- In the literal `"a\x41\n\xFg\""` the number of one digit ends where the `g` begins, and the
quote behind a backslash belongs to the text; a constant can hold its own quote. -/
theorem Scanner.next_of_spelling_mixed :
    TextSpelling '"' (some '"') ['a', 'A', '\n', '\x0f', 'g', '"']
        ['a', '\\', 'x', '4', '1', '\\', 'n', '\\', 'x', 'F', 'g', '\\', '"'] ∧
      next ⟨['"', 'a', '\\', 'x', '4', '1', '\\', 'n', '\\', 'x', 'F', 'g', '\\', '"', '"', 'b',
          '"'], ⟨1, 5⟩, []⟩ =
        (some ⟨.stringLiteral "aA\n\x0fg\"", ⟨1, 5⟩⟩, ⟨['b', '"'], ⟨1, 20⟩, []⟩) ∧
      CharSpelling '\'' (some '\'') '\'' ['\\', '\''] ∧
      next ⟨['\'', '\\', '\'', '\'', '\''], ⟨1, 5⟩, []⟩ =
        (some ⟨.charLiteral '\'', ⟨1, 5⟩⟩, ⟨['\''], ⟨1, 9⟩, []⟩) := by
  have hquote : TextSpelling '"' (some '"') ['g', '"'] ['g', '\\', '"'] :=
    .cons (.raw (by decide) (by decide) (by decide)) (.cons (.named (by decide)) .nil)
  have hdigit :
      TextSpelling '"' (some '"') ['\x0f', 'g', '"'] ['\\', 'x', 'F', 'g', '\\', '"'] := by
    refine .cons (.single (by decide) ?_) hquote
    rintro _ ⟨⟩ n hn
    cases (EscapeSequence.isHexDigit_of_hexDigit hn).1
  have htext : TextSpelling '"' (some '"') ['a', 'A', '\n', '\x0f', 'g', '"']
      ['a', '\\', 'x', '4', '1', '\\', 'n', '\\', 'x', 'F', 'g', '\\', '"'] := by
    have hpair (next : Option Char) : CharSpelling '"' next 'A' ['\\', 'x', '4', '1'] :=
      .pair (m := 4) (n := 1) (by decide) (by decide) (by decide)
    exact .cons (.raw (by decide) (by decide) (by decide))
      (.cons (hpair _) (.cons (.named (by decide)) hdigit))
  have hchar : CharSpelling '\'' (some '\'') '\'' ['\\', '\''] := .named (by decide)
  exact ⟨htext, (next_of_spelling ['b', '"'] ⟨1, 5⟩ []).1 _ _ htext, hchar,
    (next_of_spelling ['\''] ⟨1, 5⟩ []).2 _ _ hchar⟩

end CSubset
