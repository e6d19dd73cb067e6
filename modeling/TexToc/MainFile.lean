import TexToc.Disk
import TexToc.Failure

/-!
Finding the main file of a project directory.

The candidates are the names in the directory that end in `.tex`, in code-point order; a
path that does not walk to a directory holds none. The
main file is the first candidate whose text declares a document class; else `main.tex` or
`ms.tex`, whichever is there first; else the first candidate. A directory without
candidates has no main file. The candidates are read in order until one declares a
document class, and a candidate that is a directory cannot be read: the search fails
there. The file is written as the directory, as it was given, joined with the name.

* `findMainFile`: the main file of a directory.
-/

namespace TexToc

/-- The command that opens the preamble of a main file. -/
def documentClassCommand : String := "\\documentclass"

/-- Names of main files by convention, in the order they are tried. -/
def conventionalMainNames : List String := ["main.tex", "ms.tex"]

/-- Whether a text declares a document class. -/
def declaresClass (text : String) : Bool :=
  (text.splitOn documentClassCommand).length > 1

/-- The first of the names in the directory `place` whose file declares a document class;
reading a name that is a directory fails with the name as `shown` writes it. -/
def firstDeclaring (disk : Disk) (cwd place : String) (shown : String → String) :
    List String → Except Failure (Option String)
  | [] => .ok none
  | name :: rest =>
    let p := Path.join place name
    if disk.isDir p then .error (.isDirectory (shown name))
    else
      match disk.readText? cwd p with
      | some text =>
        if declaresClass text then .ok (some name) else firstDeclaring disk cwd place shown rest
      | none => firstDeclaring disk cwd place shown rest

/-- The main file of the directory `dir`, taken from `cwd`. -/
def findMainFile (disk : Disk) (cwd dir : String) : Except Failure String :=
  let place := Path.resolve cwd dir
  let names := if disk.isDirAt cwd dir then disk.entries place else []
  let candidates := (names.filter (·.endsWith ".tex")).mergeSort fun a b => decide (a ≤ b)
  let shown (name : String) := Path.display (Path.join dir name)
  match candidates with
  | [] => .error (.noTexFiles (Path.display dir))
  | first :: _ =>
    match firstDeclaring disk cwd place shown candidates with
    | .error e => .error e
    | .ok (some name) => .ok (shown name)
    | .ok none =>
      match conventionalMainNames.find? (fun n => disk.exists (Path.join place n)) with
      | some name => .ok (shown name)
      | none => .ok (shown first)

end TexToc
