-- SUMMARY: Diagnostics that are worded alike are the same, up to columns.
import CSubset.Proofs.Relabeling.Findings
import CSubset.Proofs.Text.Escape
import Mathlib

/-!
# The wording of diagnostics

A message gives what a diagnostic is about: its kind, its names and numbers, and the lines of its
positions, but no columns. It can be told apart which is which, even where a name could hold any
text: the kind by the first character and, among reports about functions, by the last one; numbers
by where their digits start or end; and names by what is left between them.
-/

namespace CSubset

/-! ## Numbers in a text -/

namespace Text

/-- Whether a text ends with a digit. -/
def endsInDigit (text : String) : Bool := text.toList.reverse.head?.any Char.isDigit

theorem endsInDigit_append_repr (text : String) (n : Nat) :
    endsInDigit (text ++ n.repr) = true := by
  rw [endsInDigit, String.toList_append, List.reverse_append]
  have hne : n.repr.toList ≠ [] := by
    rw [Nat.toList_repr]
    exact Nat.toDigits_ne_nil
  cases hdigits : n.repr.toList.reverse with
  | nil => exact absurd (List.reverse_eq_nil_iff.mp hdigits) hne
  | cons c rest => exact isDigit_of_mem_repr (List.mem_reverse.mp (hdigits ▸ List.mem_cons_self))

section pieces

variable {m n : Nat} {a b s t : String} {p q : Prop} [Decidable p] [Decidable q]

/-- A number can be read at the start of a text if no digit follows it. -/
theorem repr_append_inj (ha : ∀ c ∈ a.toList.head?, c.isDigit = false)
    (hb : ∀ c ∈ b.toList.head?, c.isDigit = false) (h : m.repr ++ a = n.repr ++ b) :
    m = n ∧ a = b := by
  have hchars := congrArg String.toList h
  rw [String.toList_append, String.toList_append] at hchars
  obtain ⟨hdigits, hbehind⟩ := run_unique (fun _ => isDigit_of_mem_repr)
    (fun _ => isDigit_of_mem_repr) ha hb hchars
  exact ⟨Nat.repr_injective (String.toList_inj.mp hdigits), String.toList_inj.mp hbehind⟩

/-- A number can be read at the end of a text, behind another one that does not end with a digit. -/
theorem append_repr_inj (ht : ∀ x, endsInDigit (x ++ t) = false)
    (h : a ++ t ++ m.repr = b ++ t ++ n.repr) : a = b ∧ m = n := by
  have hreverse (x : String) (k : Nat) : (x ++ t ++ k.repr).toList.reverse =
      k.repr.toList.reverse ++ (x ++ t).toList.reverse := by
    rw [String.toList_append, List.reverse_append]
  have hchars := congrArg (fun text => text.toList.reverse) h
  rw [hreverse, hreverse] at hchars
  have hstart (x : String) : ∀ c ∈ (x ++ t).toList.reverse.head?, c.isDigit = false := by
    intro c hc
    have hx := ht x
    rw [endsInDigit, Option.mem_def.mp hc] at hx
    exact hx
  obtain ⟨hdigits, hfronts⟩ := run_unique
    (fun _ hc => isDigit_of_mem_repr (List.mem_reverse.mp hc))
    (fun _ hc => isDigit_of_mem_repr (List.mem_reverse.mp hc)) (hstart a) (hstart b) hchars
  have htexts := String.toList_inj.mp (List.reverse_injective hfronts)
  have hnumbers := String.toList_inj.mp (List.reverse_injective hdigits)
  exact ⟨(String.append_left_inj t).mp htexts, Nat.repr_injective hnumbers⟩

/-- Which of two endings a text has can be told by its last character. -/
theorem append_ite_inj
    (hlast : ∀ x y, (x ++ s).toList.reverse.head? ≠ (y ++ t).toList.reverse.head?)
    (h : a ++ (if p then s else t) = b ++ (if q then s else t)) : a = b ∧ (p ↔ q) := by
  have hne (x y : String) : x ++ s ≠ y ++ t := fun heq => hlast x y (by rw [heq])
  split at h <;> split at h
  · next hp hq => exact ⟨(String.append_left_inj s).mp h, iff_of_true hp hq⟩
  · exact absurd h (hne a b)
  · exact absurd h.symm (hne b a)
  · next hp hq => exact ⟨(String.append_left_inj t).mp h, iff_of_false hp hq⟩

end pieces

end Text

/-- Wipes out the columns and keeps the numbers of nodes. -/
def Relabeling.columnless : Relabeling := ⟨id, fun l => ⟨l.line, 0⟩⟩

namespace Diagnostic

open Text

/-! ## Messages in pieces -/

section messages

variable (name function keyword target : String) (expected got found : Nat) (variadic : Bool)
  (previous l : Location)

theorem message_duplicateSymbol : (duplicateSymbol name previous l).message =
    "Duplicate symbol '" ++ name ++ "' at line " ++ l.line.repr ++
      " (previously declared at line " ++ previous.line.repr ++ ")" := rfl

theorem message_undefinedSymbol : (undefinedSymbol name l).message =
    "Undefined symbol '" ++ name ++ "' at line " ++ l.line.repr := rfl

theorem message_typeMismatch (text : String) : (typeMismatch text l).message =
    "Type mismatch at line " ++ (l.line.repr ++ (": " ++ text)) := by
  rw [← String.append_assoc, ← String.append_assoc]
  rfl

theorem message_arityMismatch : (arityMismatch function expected got variadic l).message =
    "Function '" ++ function ++ (if variadic then "' expects at least" else "' expects") ++ " " ++
      expected.repr ++ (if expected = 1 then " argument" else " arguments") ++ ", got " ++
      got.repr ++ " at line " ++ l.line.repr := by
  have hwhole : (arityMismatch function expected got variadic l).message =
      "Function '" ++ function ++ "' expects " ++ (if variadic then "at least " else "") ++
        (expected.repr ++ " argument") ++ (if expected = 1 then "" else "s") ++
        (", got " ++ got.repr ++ " at line " ++ l.line.repr) := rfl
  rw [hwhole, ← String.toList_inj]
  cases variadic <;> by_cases hone : expected = 1 <;> simp [hone]

theorem message_invalidJump : (invalidJump keyword l).message =
    "'" ++ keyword ++ "' outside of a loop at line " ++ l.line.repr := rfl

theorem message_missingReturn : (missingReturn function l).message =
    "Function '" ++ function ++ "' declared at line " ++ l.line.repr ++
      " does not return a value" := rfl

theorem message_notAssignable : (notAssignable target l).message =
    "Cannot assign to '" ++ target ++ "' at line " ++ l.line.repr := rfl

theorem message_missingMain : (missingMain found).message =
    if found = 0 then "No main() function found"
    else "Expected exactly one main() function, found " ++ found.repr := rfl

end messages

/-! ## Kinds -/

/-- The kind of the diagnostics whose messages begin with this character, and end with a digit or
not. -/
def Kind.ofEnds (first : Char) (digit : Bool) : Kind :=
  if first = 'D' then duplicateSymbol
  else if first = 'U' then undefinedSymbol
  else if first = 'T' then typeMismatch
  else if first = 'F' then if digit then arityMismatch else missingReturn
  else if first = '\'' then invalidJump
  else if first = 'C' then notAssignable
  else missingMain

/-- The kind of a diagnostic can be read off its message. -/
theorem kind_eq_ofEnds (d : Diagnostic) :
    ∃ c, d.message.toList.head? = some c ∧ Kind.ofEnds c (endsInDigit d.message) = d.kind := by
  cases d with
  | duplicateSymbol => exact ⟨'D', by simp [message_duplicateSymbol], rfl⟩
  | undefinedSymbol => exact ⟨'U', by simp [message_undefinedSymbol], rfl⟩
  | typeMismatch => exact ⟨'T', by simp [message_typeMismatch], rfl⟩
  | arityMismatch =>
    refine ⟨'F', by simp [message_arityMismatch], ?_⟩
    rw [message_arityMismatch, endsInDigit_append_repr]
    rfl
  | invalidJump => exact ⟨'\'', by simp [message_invalidJump], rfl⟩
  | missingReturn function l =>
    refine ⟨'F', by simp [message_missingReturn], ?_⟩
    have hlast : endsInDigit (missingReturn function l).message = false := by
      simp [endsInDigit, message_missingReturn]
    rw [hlast]
    rfl
  | notAssignable => exact ⟨'C', by simp [message_notAssignable], rfl⟩
  | missingMain =>
    rw [message_missingMain]
    split
    · exact ⟨'N', by decide, rfl⟩
    · exact ⟨'E', by simp, rfl⟩

theorem kind_eq_of_message_eq {d d' : Diagnostic} (h : d.message = d'.message) :
    d.kind = d'.kind := by
  obtain ⟨c, hc, hkind⟩ := d.kind_eq_ofEnds
  obtain ⟨c', hc', hkind'⟩ := d'.kind_eq_ofEnds
  rw [h, hc'] at hc
  cases hc
  rw [← hkind, ← hkind', h]

/-! ## What a message gives -/

section given

variable {name name' : String} {m n expected expected' got got' : Nat} {variadic variadic' : Bool}
  {l l' previous previous' : Location}

/-- A name and a number behind it, with texts around the name. -/
theorem named_inj {front back : String} (hback : ∀ text, endsInDigit (text ++ back) = false)
    (h : front ++ name ++ back ++ m.repr = front ++ name' ++ back ++ n.repr) :
    name = name' ∧ m = n := by
  obtain ⟨htext, hnumber⟩ := append_repr_inj hback h
  exact ⟨(String.append_right_inj front).mp htext, hnumber⟩

theorem duplicateSymbol_inj (h : (duplicateSymbol name previous l).message =
      (duplicateSymbol name' previous' l').message) :
    name = name' ∧ previous.line = previous'.line ∧ l.line = l'.line := by
  rw [message_duplicateSymbol, message_duplicateSymbol, String.append_left_inj] at h
  obtain ⟨h, hprevious⟩ := append_repr_inj (by simp [endsInDigit]) h
  obtain ⟨hname, hl⟩ := named_inj (by simp [endsInDigit]) h
  exact ⟨hname, hprevious, hl⟩

theorem arityMismatch_inj (h : (arityMismatch name expected got variadic l).message =
      (arityMismatch name' expected' got' variadic' l').message) :
    name = name' ∧ expected = expected' ∧ got = got' ∧ variadic = variadic' ∧
      l.line = l'.line := by
  rw [message_arityMismatch, message_arityMismatch] at h
  obtain ⟨h, hl⟩ := append_repr_inj (by simp [endsInDigit]) h
  obtain ⟨h, hgot⟩ := append_repr_inj (by simp [endsInDigit]) h
  obtain ⟨h, -⟩ := append_ite_inj (by simp) h
  obtain ⟨h, hexpected⟩ := append_repr_inj (by simp [endsInDigit]) h
  obtain ⟨h, hvariadic⟩ := append_ite_inj (by simp) h
  exact ⟨(String.append_right_inj _).mp h, hexpected, hgot, Bool.eq_iff_iff.mpr hvariadic, hl⟩

theorem missingReturn_inj
    (h : (missingReturn name l).message = (missingReturn name' l').message) :
    name = name' ∧ l.line = l'.line := by
  rw [message_missingReturn, message_missingReturn, String.append_left_inj] at h
  exact named_inj (by simp [endsInDigit]) h

theorem typeMismatch_inj (h : (typeMismatch name l).message = (typeMismatch name' l').message) :
    name = name' ∧ l.line = l'.line := by
  rw [message_typeMismatch, message_typeMismatch, String.append_right_inj] at h
  obtain ⟨hl, h⟩ := repr_append_inj (by simp +decide) (by simp +decide) h
  exact ⟨(String.append_right_inj _).mp h, hl⟩

theorem missingMain_inj (h : (missingMain m).message = (missingMain n).message) : m = n := by
  have hnone (k : Nat) : "No main() function found" ≠
      "Expected exactly one main() function, found " ++ k.repr := fun h => by
    simpa using congrArg (fun text => text.toList.head?) h
  rw [message_missingMain, message_missingMain] at h
  split at h <;> split at h
  · next hm hn => rw [hm, hn]
  · exact absurd h (hnone n)
  · exact absurd h.symm (hnone m)
  · exact Nat.repr_injective ((String.append_right_inj _).mp h)

end given

/-- The columns of a diagnostic are not in its message. -/
theorem message_relabel_columnless (d : Diagnostic) :
    (d.relabel .columnless).message = d.message := by
  cases d <;> rfl

/-- Diagnostics are worded alike if they are the same up to columns, and only then. -/
theorem message_eq_iff {d d' : Diagnostic} :
    d.message = d'.message ↔ d.relabel .columnless = d'.relabel .columnless := by
  refine ⟨fun h => ?_, fun h => ?_⟩
  · have hkind := kind_eq_of_message_eq h
    cases d with
    | duplicateSymbol name previous l =>
      cases d' with
      | duplicateSymbol =>
        obtain ⟨rfl, hprevious, hl⟩ := duplicateSymbol_inj h
        simp only [relabel, Relabeling.columnless, hprevious, hl]
      | _ => cases hkind
    | undefinedSymbol =>
      cases d' with
      | undefinedSymbol =>
        rw [message_undefinedSymbol, message_undefinedSymbol] at h
        obtain ⟨rfl, hl⟩ := named_inj (by simp [endsInDigit]) h
        simp only [relabel, Relabeling.columnless, hl]
      | _ => cases hkind
    | typeMismatch =>
      cases d' with
      | typeMismatch =>
        obtain ⟨rfl, hl⟩ := typeMismatch_inj h
        simp only [relabel, Relabeling.columnless, hl]
      | _ => cases hkind
    | arityMismatch =>
      cases d' with
      | arityMismatch =>
        obtain ⟨rfl, rfl, rfl, rfl, hl⟩ := arityMismatch_inj h
        simp only [relabel, Relabeling.columnless, hl]
      | _ => cases hkind
    | invalidJump =>
      cases d' with
      | invalidJump =>
        rw [message_invalidJump, message_invalidJump] at h
        obtain ⟨rfl, hl⟩ := named_inj (by simp [endsInDigit]) h
        simp only [relabel, Relabeling.columnless, hl]
      | _ => cases hkind
    | missingReturn =>
      cases d' with
      | missingReturn =>
        obtain ⟨rfl, hl⟩ := missingReturn_inj h
        simp only [relabel, Relabeling.columnless, hl]
      | _ => cases hkind
    | notAssignable =>
      cases d' with
      | notAssignable =>
        rw [message_notAssignable, message_notAssignable] at h
        obtain ⟨rfl, hl⟩ := named_inj (by simp [endsInDigit]) h
        simp only [relabel, Relabeling.columnless, hl]
      | _ => cases hkind
    | missingMain =>
      cases d' with
      | missingMain =>
        obtain rfl := missingMain_inj h
        rfl
      | _ => cases hkind
  · rw [← message_relabel_columnless d, h, message_relabel_columnless]

end Diagnostic

end CSubset
