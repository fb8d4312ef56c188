-- SUMMARY: What the command prints, and how it ends.
import CSubset.CommandLine.Files
import CSubset.Journal
import CSubset.Token.Listing

/-!
# The command

The command checks the file named by its first argument that is no option. Problems go to
the error output, one to a line, with a summary at the end; the exit code is 0 only if
there are none. On request the tokens of the file are listed first.
-/

namespace CSubset

/-- How a run of the command ends, and what it has printed. -/
structure Outcome where
  exitCode : Nat
  output : String
  errors : String
deriving DecidableEq, Repr

namespace CommandLine

/-- The name of the command. -/
def program : String := "minic"

/-- The option that asks for a listing of tokens. -/
def listOption : String := "--tokens"

/-- Lines of text, each with its end. -/
def lines (ls : List String) : String := String.join (ls.map (· ++ "\n"))

/-- The help that is shown when no file is named. -/
def usage : String :=
  lines ["Error: No input file provided", "",
    s!"Usage: {program} [--tokens] <file.c>", "", "Examples:",
    s!"  {program} demos/sample.c           # A program with no errors",
    s!"  {program} demos/errors.c           # One of each diagnostic"]

/-- The first argument that is no option. -/
def fileArgument? (args : List String) : Option String := args.find? fun a => !a.startsWith "--"

/-- A run that ends without success before anything is printed. -/
def failure (errors : String) : Outcome := ⟨1, "", errors⟩

/-- What is printed about a source text that forms a unit. -/
def report (file : String) (c : Compilation) : Outcome :=
  let diagnostics := (c.unit.check true).diagnostics
  let problems := c.lexicalErrors.map LexicalError.message ++ diagnostics.map Diagnostic.message
  if problems.isEmpty then ⟨0, "", lines [file ++ ": OK"]⟩
  else failure (lines (problems ++ [file ++ ": " ++ toString c.lexicalErrors.length ++
    " lexical error(s), " ++ toString diagnostics.length ++ " semantic diagnostic(s)"]))

/-- What is printed about a source text. -/
def checkSource (file source : String) : Outcome :=
  match compile source with
  | .error e => failure (lines [e.text])
  | .ok c => report file c

/-- The listing of the tokens of a source text. -/
def listing (source : String) : String := lines ((scan source).tokens.map Token.listingLine)

/-- The run of the command on a source text. -/
def runOn (list : Bool) (file source : String) : Outcome :=
  let o := checkSource file source
  { o with output := (if list then listing source else "") ++ o.output }

/-- The run of the command with the given arguments, where files are read by `read`. -/
def run (read : String → FileContent) (args : List String) : Outcome :=
  match fileArgument? args with
  | none => failure usage
  | some file =>
    match read file with
    | .missing => failure (lines [s!"Error: File '{file}' not found"])
    | .directory => failure
        (lines ["Error: Os \x7b code: 21, kind: IsADirectory, message: \"Is a directory\" \x7d"])
    | .denied => failure
        (lines ["Error: Os \x7b code: 13, kind: PermissionDenied, " ++
          "message: \"Permission denied\" \x7d"])
    | .notText => failure
        (lines ["Error: Error \x7b kind: InvalidData, " ++
          "message: \"stream did not contain valid UTF-8\" \x7d"])
    | .text source => runOn (args.contains listOption) file source

end CommandLine

end CSubset
