-- SUMMARY: The command prints one line for each problem of a file, and succeeds if there is none.
import CSubset.CommandLine.Run
import CSubset.Proofs.Reports.Messages

/-!
# One line for each problem

The command writes every message with a newline behind it. As no message holds a newline itself, the
lines of what is written are the messages, one by one.
-/

namespace CSubset.CommandLine

open Text

/-! ## Lines -/

theorem lines_append (ls ls' : List String) : lines (ls ++ ls') = lines ls ++ lines ls' := by
  rw [lines, List.map_append, String.join_append]
  rfl

/-- The last of the lines may be written without its end. -/
theorem lines_join (ls : List String) (l : String) :
    lines [String.join (ls.map (· ++ "\n")) ++ l] = lines (ls ++ [l]) := by
  have hone (l : String) : lines [l] = l ++ "\n" := by simp [lines]
  rw [lines_append, hone, hone, String.append_assoc]
  rfl

/-- Lines without newlines are told apart by the newlines between them. -/
theorem splitOn_lines {ls : List String} (h : ∀ l ∈ ls, '\n' ∉ l.toList) :
    (lines ls).toList.splitOn '\n' = ls.map String.toList ++ [[]] := by
  induction ls with
  | nil => rfl
  | cons l rest ih =>
    obtain ⟨hl, hrest⟩ := List.forall_mem_cons.mp h
    have hlines : (lines (l :: rest)).toList = l.toList ++ '\n' :: (lines rest).toList := by
      simp [lines]
    rw [hlines, List.splitOn_append_cons_self_of_not_mem hl, ih hrest]
    rfl

/-! ## What is printed about a text -/

/-- The last line about a unit: that nothing is wrong, or how much is. -/
def summary (file : String) (lexical semantic : Nat) : String :=
  if lexical = 0 ∧ semantic = 0 then file ++ ": OK"
  else file ++ ": " ++ toString lexical ++ " lexical error(s), " ++ toString semantic ++
    " semantic diagnostic(s)"

/-- The lines about a source text: one for each lexical error, and then one for the syntax error
or, if there is none, one for each diagnostic and the summary. -/
def problemLines (file source : String) : List String :=
  (scan source).errors.map LexicalError.message ++
    match CompilationUnit.ofTokens? (scan source).tokens with
    | .error e => [e.text]
    | .ok u =>
      (u.check true).diagnostics.map Diagnostic.message ++
        [summary file (scan source).errors.length (u.check true).diagnostics.length]

theorem newline_not_mem_summary {file : String} (h : '\n' ∉ file.toList)
    (lexical semantic : Nat) : '\n' ∉ (summary file lexical semantic).toList := by
  have hcount (n : Nat) : '\n' ∉ Nat.toDigits 10 n := by
    simpa using (plainAscii_repr_nat n).newline_not_mem
  unfold summary
  split
  · simp [h]
  · simp [h, hcount]

theorem newline_not_mem_problemLines {file source : String} (h : '\n' ∉ file.toList) :
    ∀ l ∈ problemLines file source, '\n' ∉ l.toList := by
  refine List.forall_mem_append.mpr ⟨?_, ?_⟩
  · intro l hl
    obtain ⟨e, he, rfl⟩ := List.mem_map.mp hl
    exact (LexicalError.plainAscii_message he).newline_not_mem
  · cases hu : CompilationUnit.ofTokens? (scan source).tokens with
    | error e =>
      exact List.forall_mem_singleton.mpr (SyntaxError.plainAscii_text hu).newline_not_mem
    | ok u =>
      refine List.forall_mem_append.mpr ⟨?_, ?_⟩
      · intro l hl
        obtain ⟨d, hd, rfl⟩ := List.mem_map.mp hl
        exact (Diagnostic.plainAscii_message hu hd).newline_not_mem
      · exact List.forall_mem_singleton.mpr (newline_not_mem_summary h _ _)

/-- The run on a source text prints the lines about it and succeeds if nothing is wrong. -/
theorem checkSource_eq (file source : String) :
    (checkSource file source).output = "" ∧
      (checkSource file source).errors = lines (problemLines file source) ∧
      ((checkSource file source).exitCode = 0 ↔ (scan source).errors = [] ∧
        ∃ u, CompilationUnit.ofTokens? (scan source).tokens = .ok u ∧
          (u.check true).diagnostics = []) := by
  unfold problemLines
  cases hu : CompilationUnit.ofTokens? (scan source).tokens with
  | error e =>
    have hcompile : compile source = .error ⟨e, (scan source).errors⟩ := by simp only [compile, hu]
    rw [checkSource, hcompile]
    refine ⟨rfl, ?_, by simp [failure]⟩
    rw [← lines_join, List.map_map]
    rfl
  | ok u =>
    have hcompile : compile source = .ok ⟨u, (scan source).errors⟩ := by simp only [compile, hu]
    rw [checkSource, hcompile]
    by_cases hnone : (scan source).errors = [] ∧ (u.check true).diagnostics = []
    · obtain ⟨hlexical, hsemantic⟩ := hnone
      simp [report, hlexical, hsemantic, summary]
    · simp [report, failure, summary, hnone]

/-- Every message about a source text is in printable ASCII. So, for a file that is the only
argument and whose name has no newline and is no option, what the command writes about it has a
line for each lexical error, in order, and then one for the syntax error, or one for each
diagnostic, in order, and a summary. The command succeeds if there is no error and no diagnostic. -/
theorem run_prints_lines :
    (∀ source : String,
      (∀ e ∈ (scan source).errors, PlainAscii e.message) ∧
      (∀ e, CompilationUnit.ofTokens? (scan source).tokens = .error e → PlainAscii e.text) ∧
      ∀ u, CompilationUnit.ofTokens? (scan source).tokens = .ok u → ∀ returnTypes,
        ∀ d ∈ (u.check returnTypes).diagnostics, PlainAscii d.message) ∧
    ∀ (read : String → FileContent) (file source : String), read file = .text source →
      '\n' ∉ file.toList → file.startsWith "--" = false →
        (run read [file]).output = "" ∧
        (run read [file]).errors.toList.splitOn '\n' =
          (problemLines file source).map String.toList ++ [[]] ∧
        ((run read [file]).exitCode = 0 ↔ (scan source).errors = [] ∧
          ∃ u, CompilationUnit.ofTokens? (scan source).tokens = .ok u ∧
            (u.check true).diagnostics = []) := by
  refine ⟨fun source => ⟨?_, ?_, ?_⟩, fun read file source hread hnewline hoption => ?_⟩
  · exact fun e he => LexicalError.plainAscii_message he
  · exact fun e he => SyntaxError.plainAscii_text he
  · exact fun u hu returnTypes d hd => Diagnostic.plainAscii_message hu hd
  · have hlist : listOption ≠ file := by
      rintro rfl
      exact absurd hoption (by decide +kernel)
    have hrun : run read [file] = checkSource file source := by
      simp [run, fileArgument?, hoption, hread, hlist, runOn]
    obtain ⟨houtput, herrors, hexit⟩ := checkSource_eq file source
    rw [hrun, herrors]
    exact ⟨houtput, splitOn_lines (newline_not_mem_problemLines hnewline), hexit⟩

/-- A text in which a string is assigned to, with a letter beyond ASCII in the string and another
one at the end. -/
def accentedSource : String := "void main() \x7b \"\u00e9\" = 1; \x7d \u00e9"

/-- The tokens of the text, of which the letter at the end is none. -/
def accentedTokens : List Token :=
  [.ofWord .voidKw ⟨1, 1⟩, ⟨.identifier "main", ⟨1, 6⟩⟩, .ofMark .leftParen ⟨1, 10⟩,
    .ofMark .rightParen ⟨1, 11⟩, .ofMark .leftBrace ⟨1, 13⟩, ⟨.stringLiteral "\u00e9", ⟨1, 15⟩⟩,
    .ofMark .assign ⟨1, 19⟩, ⟨.intLiteral 1, ⟨1, 21⟩⟩, .ofMark .semicolon ⟨1, 22⟩,
    .ofMark .rightBrace ⟨1, 24⟩]

/-- The letters are escaped in the lexical error and in the target of the assignment. -/
theorem run_prints_lines_accented :
    (run (fun _ => .text accentedSource) ["a.c"]).errors.toList.splitOn '\n' =
        ["Lexical error at line 1, column 26: illegal character '\\u\x7be9\x7d'",
          "Cannot assign to '\"\\u\x7be9\x7d\"' at line 1",
          "a.c: 1 lexical error(s), 1 semantic diagnostic(s)"].map String.toList ++ [[]] ∧
      (run (fun _ => .text accentedSource) ["a.c"]).exitCode ≠ 0 := by
  have hscan : scan accentedSource =
      ⟨accentedTokens, [⟨.illegalCharacter '\u00e9', ⟨1, 26⟩⟩]⟩ := by decide +kernel
  have hread : CompilationUnit.ofTokens? accentedTokens = .ok ⟨[.definition
      ⟨⟨.void, false, 0, []⟩, "main", [], false, .none, ⟨1, 6⟩⟩ (.mk [] [.expr
        (.assign ⟨2, ⟨1, 19⟩⟩ .plain (.literal ⟨0, ⟨1, 15⟩⟩ (.string "\u00e9"))
          (.literal ⟨1, ⟨1, 21⟩⟩ (.int 1))) ⟨1, 15⟩] ⟨1, 13⟩)]⟩ := by cbv
  obtain ⟨-, hlines, hexit⟩ := run_prints_lines.2 (fun _ => .text accentedSource) "a.c"
    accentedSource rfl (by decide) (by decide +kernel)
  rw [hlines, problemLines, hscan, hread]
  refine ⟨by decide +kernel, fun hzero => ?_⟩
  have hnone := (hexit.mp hzero).1
  rw [hscan] at hnone
  cases hnone

end CSubset.CommandLine
