-- SUMMARY: Texts of the same token kinds compile to the same outcome, with positions moved from token to token.
import Mathlib.Tactic
import CSubset.Compile
import CSubset.Proofs.Relabeling.Check
import CSubset.Proofs.Relabeling.Parse
import CSubset.Proofs.Token.Partition

/-!
# Layout

Two texts whose tokens are of the same kinds differ in what stands between the tokens and in how
literals are spelled. What a compilation makes of the one it makes of the other, and every position
that it hands on moves from a token of the one text to the token of the same index in the other.

The positions of the tokens of a text all differ, so there are functions that move them so
(`exists_moves`). What such a function does to other positions is not determined; that each of them
takes the one outcome to the other (`compile_corresponds`) says that an outcome holds no other
positions.
-/

namespace CSubset

/-- New positions alone; the numbers stay. -/
def Relabeling.moved (place : Location → Location) : Relabeling := ⟨id, place⟩

/-- Takes the position of each token of one list to that of the token of the same index in the
other. -/
def Moves (place : Location → Location) (ts ts' : List Token) : Prop :=
  ts'.map Token.location = (ts.map Token.location).map place

/-- The second report says what the first one says, at other positions: the same scopes with the
same names, the same types and symbols of nodes, and the same diagnostics in the same order. -/
structure Report.Corresponds (place : Location → Location) (x x' : Report) : Prop where
  ok : x'.ok = x.ok
  scopes : x'.scopes = x.scopes.relabel (.moved place)
  types : ∀ id, x'.typeOf? id = x.typeOf? id
  symbols : ∀ id, x'.symbolOf? id = (x.symbolOf? id).map (Symbol.relabel (.moved place))
  diagnostics : x'.diagnostics = x.diagnostics.map (Diagnostic.relabel (.moved place))
  kinds : x'.diagnostics.map Diagnostic.kind = x.diagnostics.map Diagnostic.kind

/-- Two compilations succeed with units and reports that are the same up to positions, or fail
with the same complaint about the same lexeme. -/
inductive Corresponds (place : Location → Location) :
    Except CompileError Compilation → Except CompileError Compilation → Prop where
  | ok {c c' : Compilation} (unit : c'.unit = c.unit.relabel (.moved place))
      (report : ∀ returnTypes,
        (c.unit.check returnTypes).Corresponds place (c'.unit.check returnTypes)) :
      Corresponds place (.ok c) (.ok c')
  | error {e e' : CompileError} (message : e'.syntaxError.message = e.syntaxError.message)
      (found : e'.syntaxError.found = e.syntaxError.found)
      (location : e'.syntaxError.location = e.syntaxError.location.map place) :
      Corresponds place (.error e) (.error e')

variable {place : Location → Location}

/-! ## Moving positions -/

/-- Positions that all differ can be taken to any others. -/
theorem exists_map_eq {ls ls' : List Location} (hls : ls.Nodup) (hlen : ls.length = ls'.length) :
    ∃ place : Location → Location, ls' = ls.map place := by
  induction ls generalizing ls' with
  | nil => exact ⟨id, (List.length_eq_zero_iff.mp hlen.symm).trans rfl⟩
  | cons l rest ih =>
    obtain ⟨l', rest', rfl⟩ := List.exists_cons_of_length_eq_add_one hlen.symm
    obtain ⟨hl, hrest⟩ := List.nodup_cons.mp hls
    obtain ⟨place, rfl⟩ := ih hrest (by simpa using hlen)
    refine ⟨Function.update place l l', ?_⟩
    rw [List.map_cons, Function.update_self]
    congr 1
    refine List.map_congr_left fun k hk => ?_
    rw [Function.update_of_ne]
    rintro rfl
    exact hl hk

/-- Texts whose tokens are of the same kinds have their tokens moved by some function. -/
theorem exists_moves {s s' : String}
    (h : (scan s).tokens.map Token.kind = (scan s').tokens.map Token.kind) :
    ∃ place, Moves place (scan s).tokens (scan s').tokens := by
  refine exists_map_eq (scan_locations_nodup s) ?_
  rw [List.length_map, List.length_map, ← List.length_map Token.kind, h, List.length_map]

theorem Moves.place_eq {ts ts' : List Token} {i : Nat} {t t' : Token} (h : Moves place ts ts')
    (ht : ts[i]? = some t) (ht' : ts'[i]? = some t') : place t.location = t'.location := by
  have hi : (ts'.map Token.location)[i]? = ((ts.map Token.location).map place)[i]? := by rw [h]
  simpa [ht, ht'] using hi.symm

/-- Tokens of the same kinds are those of the other text at their new positions. -/
theorem Moves.tokens_eq {ts ts' : List Token} (h : Moves place ts ts')
    (hkinds : ts.map Token.kind = ts'.map Token.kind) :
    ts' = ts.map (Token.relabel (.moved place)) := by
  induction ts generalizing ts' with
  | nil => simpa using hkinds.symm
  | cons t rest ih =>
    rcases ts' with _ | ⟨⟨k, l⟩, rest'⟩
    · simp at hkinds
    · simp only [Moves, List.map_cons, List.cons.injEq] at h hkinds
      obtain ⟨rfl, hl⟩ := h
      obtain ⟨rfl, hk⟩ := hkinds
      rw [List.map_cons, ← ih hl hk]
      rfl

/-! ## Reports -/

theorem Diagnostic.kind_relabel (r : Relabeling) (d : Diagnostic) :
    (d.relabel r).kind = d.kind := by
  cases d <;> rfl

theorem Diagnostic.isFatal_relabel (r : Relabeling) (d : Diagnostic) :
    (d.relabel r).isFatal = d.isFatal := by
  cases d <;> rfl

theorem Report.diagnostics_relabel (r : Relabeling) (x : Report) :
    (x.relabel r).diagnostics = x.diagnostics.map (Diagnostic.relabel r) :=
  x.findings.diagnostics_relabel

theorem Report.symbolOf?_relabel (x : Report) (id : Nat) :
    (x.relabel (.moved place)).symbolOf? id =
      (x.symbolOf? id).map (Symbol.relabel (.moved place)) := by
  have hlookup (symbols : List (Nat × Symbol)) :
      (symbols.map fun e => (e.1, e.2.relabel (.moved place))).lookup id =
        (symbols.lookup id).map (Symbol.relabel (.moved place)) := by
    induction symbols with
    | nil => rfl
    | cons e rest ih =>
      obtain ⟨n, x⟩ := e
      simp only [List.map_cons, List.lookup_cons, ih]
      cases id == n <;> rfl
  exact hlookup x.findings.symbols

/-- A report corresponds to itself at other positions. -/
theorem Report.corresponds_relabel (place : Location → Location) (x : Report) :
    x.Corresponds place (x.relabel (.moved place)) := by
  refine ⟨?_, rfl, fun id => ?_, x.symbolOf?_relabel, x.diagnostics_relabel _, ?_⟩
  · rw [ok, ok, diagnostics_relabel, List.any_map]
    congr 2
    funext d
    exact d.isFatal_relabel _
  · have htypes : (x.relabel (.moved place)).findings.types = x.findings.types :=
      List.map_id x.findings.types
    rw [typeOf?, typeOf?, htypes]
  · rw [diagnostics_relabel, List.map_map]
    exact List.map_congr_left fun d _ => d.kind_relabel _

/-- Texts whose tokens are of the same kinds compile to the same outcome up to positions, and
those are moved from each token to the token of the same index. -/
theorem compile_corresponds (s s' : String)
    (h : (scan s).tokens.map Token.kind = (scan s').tokens.map Token.kind) :
    (∃ place, Moves place (scan s).tokens (scan s').tokens) ∧
      ∀ place, Moves place (scan s).tokens (scan s').tokens →
        Corresponds place (compile s) (compile s') := by
  refine ⟨exists_moves h, fun place hmoves => ?_⟩
  have hparse := CompilationUnit.ofTokens?_relabel (r := .moved place) (fun _ => rfl) rfl
    (scan s).tokens
  rw [← hmoves.tokens_eq h] at hparse
  simp only [compile, hparse]
  cases CompilationUnit.ofTokens? (scan s).tokens with
  | error e => exact .error rfl rfl rfl
  | ok u =>
    refine .ok rfl fun returnTypes => ?_
    dsimp only
    rw [u.check_relabel]
    exact (u.check returnTypes).corresponds_relabel place

/-- A comment and a newline move the unbound name, and the report about it. -/
theorem compile_corresponds_commented :
    (scan "int f() \x7b return x; \x7d").tokens.map Token.kind =
        (scan "int f() // x\n\x7b return x; \x7d").tokens.map Token.kind ∧
      ∃ c c', compile "int f() \x7b return x; \x7d" = .ok c ∧
        compile "int f() // x\n\x7b return x; \x7d" = .ok c' ∧
          (c.unit.check true).diagnostics = [.undefinedSymbol "x" ⟨1, 18⟩, .missingMain 0] ∧
            (c'.unit.check true).diagnostics = [.undefinedSymbol "x" ⟨2, 10⟩, .missingMain 0] := by
  have hkinds : (scan "int f() \x7b return x; \x7d").tokens.map Token.kind =
      (scan "int f() // x\n\x7b return x; \x7d").tokens.map Token.kind := by decide +kernel
  have hscan : scan "int f() \x7b return x; \x7d" =
      ⟨[⟨.keyword .intKw, ⟨1, 1⟩⟩, ⟨.identifier "f", ⟨1, 5⟩⟩, ⟨.punctuator .leftParen, ⟨1, 6⟩⟩,
        ⟨.punctuator .rightParen, ⟨1, 7⟩⟩, ⟨.punctuator .leftBrace, ⟨1, 9⟩⟩,
        ⟨.keyword .returnKw, ⟨1, 11⟩⟩, ⟨.identifier "x", ⟨1, 18⟩⟩,
        ⟨.punctuator .semicolon, ⟨1, 19⟩⟩, ⟨.punctuator .rightBrace, ⟨1, 21⟩⟩], []⟩ := by
    decide +kernel
  have hfound : (compile "int f() \x7b return x; \x7d").map
      (fun c => (c.unit.check true).diagnostics) =
        .ok [.undefinedSymbol "x" ⟨1, 18⟩, .missingMain 0] := by
    rw [compile, hscan]
    cbv
  obtain ⟨⟨place, hmoves⟩, hall⟩ := compile_corresponds _ _ hkinds
  have hcorr := hall place hmoves
  have hold : (scan "int f() \x7b return x; \x7d").tokens[6]? =
      some ⟨.identifier "x", ⟨1, 18⟩⟩ := by
    rw [hscan]
    rfl
  have hnew : (scan "int f() // x\n\x7b return x; \x7d").tokens[6]? =
      some ⟨.identifier "x", ⟨2, 10⟩⟩ := by decide +kernel
  have hplace : place ⟨1, 18⟩ = ⟨2, 10⟩ := hmoves.place_eq hold hnew
  refine ⟨hkinds, ?_⟩
  generalize compile "int f() \x7b return x; \x7d" = x at *
  generalize compile "int f() // x\n\x7b return x; \x7d" = x' at *
  cases hcorr with
  | error => cases hfound
  | @ok c c' unit report =>
    have hdiagnostics : (c.unit.check true).diagnostics = _ := Except.ok.inj hfound
    refine ⟨_, _, rfl, rfl, hdiagnostics, ?_⟩
    rw [(report true).diagnostics, hdiagnostics]
    simp [Diagnostic.relabel, Relabeling.moved, hplace]

end CSubset
