-- SUMMARY: What reading a file can come to, and files held in memory.

/-!
# Files

The command reads one file. `FileContent` lists what that can come to. `Files` holds
files in memory under their paths from the working directory, in which paths are resolved
as usual: single points and doubled slashes mean nothing, two points lead outward, and
only directories can be passed through. Outside of the working directory there are
directories and nothing else.
-/

namespace CSubset

/-- What reading a file comes to. -/
inductive FileContent where
  | missing
  | directory
  | denied
  | notText
  | text (source : String)
deriving DecidableEq, Repr

/-- The content of a file with the given bytes, which have to be UTF-8. -/
def FileContent.ofBytes (bytes : ByteArray) : FileContent :=
  match String.fromUTF8? bytes with
  | some source => .text source
  | none => .notText

/-- Files in memory, by the steps of their paths from the working directory. -/
structure Files where
  entries : List (List String × ByteArray)

namespace Files

/-- Steps of a path that lead nowhere. -/
def isIdle (step : String) : Bool := step = "" || step = "."

/-- The steps of a path. -/
def steps (path : String) : List String := (path.splitOn "/")

/-- The files with the given paths and bytes. -/
def ofList (files : List (String × ByteArray)) : Files :=
  ⟨files.map fun (path, bytes) => ((steps path).filter fun s => !isIdle s, bytes)⟩

/-- The bytes of a file. -/
def find? (files : Files) (at_ : List String) : Option ByteArray := files.entries.lookup at_

/-- Whether there are files below a path. -/
def isDirectory (files : Files) (at_ : List String) : Bool :=
  files.entries.any fun (path, _) => at_.isPrefixOf path && at_.length < path.length

/-- What the steps lead to from a place outside of the working directory. -/
def outside (steps : List String) : FileContent :=
  if steps.all fun s => isIdle s || s = ".." then .directory else .missing

/-- What the steps lead to from a directory, the way to which is given from the inside out. -/
def follow (files : Files) : (inward : List String) → List String → FileContent
  | _, [] => .directory
  | inward, step :: rest =>
    if isIdle step then files.follow inward rest
    else if step = ".." then
      match inward with
      | [] => outside rest
      | _ :: inward => files.follow inward rest
    else
      let at_ := (step :: inward).reverse
      match files.find? at_ with
      | some bytes => if rest.isEmpty then .ofBytes bytes else .missing
      | none => if files.isDirectory at_ then files.follow (step :: inward) rest else .missing

/-- What reading a path comes to. -/
def read (files : Files) (path : String) : FileContent :=
  if path.isEmpty then .missing
  else if path.startsWith "/" then outside (steps path)
  else files.follow [] (steps path)

end Files

end CSubset
