-- SUMMARY: The parser accepts exactly the token lists that the grammar derives.
import CSubset.Proofs.Parse.UnitCompleteness
import CSubset.Proofs.Parse.UnitSoundness

/-!
# Exactness

Soundness and completeness meet here. As a by-product the grammar is unambiguous, down to
the numbers of the nodes: a token list has at most one derivation result.
-/

namespace CSubset

open Grammar

namespace Parse

theorem translationUnit_of_ofTokens? {ts : List Token} {u : CompilationUnit}
    (h : CompilationUnit.ofTokens? ts = .ok u) : TranslationUnit ts u := by
  simp only [CompilationUnit.ofTokens?, Cursor.readUnit, Reading.result] at h
  cases hf : (Reading.from (Cursor.ofTokens ts)).failure with
  | some complaint =>
    rw [hf] at h
    cases h
  | none =>
    rw [hf] at h
    cases h
    exact reading_sound hf

theorem ofTokens?_of_translationUnit {ts : List Token} {u : CompilationUnit}
    (h : TranslationUnit ts u) : CompilationUnit.ofTokens? ts = .ok u := by
  obtain ⟨j, hu⟩ := h
  have hr : Reading.from (Cursor.ofTokens ts) = ⟨u.decls, none, ⟨[], j⟩⟩ := reading_complete hu
  simp only [CompilationUnit.ofTokens?, Cursor.readUnit, Reading.result, hr]

/-- A token list parses to a unit exactly if the grammar derives the unit from the tokens, with
its nodes numbered from 0 in the order in which they are complete. -/
theorem ofTokens?_eq_ok_iff_translationUnit (ts : List Token) (u : CompilationUnit) :
    CompilationUnit.ofTokens? ts = .ok u ↔ TranslationUnit ts u :=
  ⟨translationUnit_of_ofTokens?, ofTokens?_of_translationUnit⟩

end Parse

/-- Tokens do not form two different units. -/
theorem Grammar.TranslationUnit.unique {ts : List Token} {u v : CompilationUnit}
    (hu : TranslationUnit ts u) (hv : TranslationUnit ts v) : u = v := by
  have h := Parse.ofTokens?_of_translationUnit hu
  rw [Parse.ofTokens?_of_translationUnit hv] at h
  cases h
  rfl

end CSubset
