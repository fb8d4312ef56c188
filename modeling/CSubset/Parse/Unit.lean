-- SUMMARY: Parsing whole compilation units.
import CSubset.Parse.Block

/-!
# Compilation units

A unit is read declaration by declaration up to the end of the tokens or to the first
failure. `Reading` keeps what was read before a failure and the cursor at which the
reading stopped, so that reading can be taken up again from there.
-/

namespace CSubset

namespace Parse

/-- A declaration at file level. Only here can a function have a body, and not if it is
declared external. -/
def external (c : Cursor) : Parse External c := do
  let h ← heading c
  match h.value with
  | .var v =>
    let v ← variableEnd v h.cursor
    .ok (h.andThen (v.map fun v => External.decl (.var v)))
  | .function p =>
    match h.cursor.take? (mark? .leftBrace) with
    | none =>
      let p ← prototypeEnd p h.cursor
      .ok (h.andThen (p.map fun p => External.decl (.function p)))
    | some opening =>
      if p.storage = .external then h.cursor.fail .externBody
      else
        let b ← block opening.value.2 opening.cursor
        .ok (h.andThen (opening.andThen (b.map fun b => External.definition p b)))

end Parse

/-- What came of reading a unit: the declarations before the first failure, that failure if
there is one, and the cursor at which reading stopped. -/
structure Reading where
  decls : List External
  failure : Option Complaint
  cursor : Cursor
deriving Repr

/-- Reads declarations from a cursor on. -/
def Reading.from (c : Cursor) : Reading :=
  if c.rest.isEmpty then ⟨[], none, c⟩
  else
    match Parse.external c with
    | .error f => ⟨[], some f.complaint, f.cursor⟩
    | .ok d =>
      let more := Reading.from d.cursor
      { more with decls := d.value :: more.decls }
termination_by c.rest.length
decreasing_by exact d.shorter

/-- The report of a complaint about the next of `rest`, which are the last of `tokens`. At the
end of the input it takes the position of the last token. -/
def Complaint.report (complaint : Complaint) (rest tokens : List Token) : SyntaxError :=
  match complaint with
  | .functionParameter name location => ⟨complaint.message, name, some location⟩
  | _ =>
    match rest with
    | t :: _ => ⟨complaint.message, t.text, some t.location⟩
    | [] => ⟨complaint.message, SyntaxError.endMark, tokens.getLast?.map Token.location⟩

/-- The unit that was read from `tokens`, or the report of the failure. -/
def Reading.result (r : Reading) (tokens : List Token) : Except SyntaxError CompilationUnit :=
  match r.failure with
  | none => .ok ⟨r.decls⟩
  | some complaint => .error (complaint.report r.cursor.rest tokens)

/-- The start of a list of tokens, with nodes numbered from 0. -/
def Cursor.ofTokens (tokens : List Token) : Cursor := ⟨tokens, 0⟩

/-- Reads a unit from a cursor on; the second component is where a further reading goes on. -/
def Cursor.readUnit (c : Cursor) : Except SyntaxError CompilationUnit × Cursor :=
  let r := Reading.from c
  (r.result c.rest, r.cursor)

/-- The compilation unit that a list of tokens forms. -/
def CompilationUnit.ofTokens? (tokens : List Token) : Except SyntaxError CompilationUnit :=
  (Cursor.ofTokens tokens).readUnit.1

end CSubset
