import TexToc.Path
import TexToc.Text.Utf8

/-!
A directory tree.

The files of a project are a tree of directories and regular files. The tree is a value:
the absolute paths of its directories, and of its files with their bytes. The root
directory always exists, and so does every directory above a file or a directory.

Paths are looked up in two ways. A resolved path (see `TexToc.Path.resolve`) is looked up
as it is. Opening a path as written walks it from the working directory name by name, so
every name before the last must be a directory that exists; `..` is only followed from a
directory.

* `Disk.ofEntries`: the tree of given files and directories.
* `Disk.isFile`, `Disk.isDir`, `Disk.exists`: what a resolved path names.
* `Disk.isDirAt`: whether a path as written names a directory.
* `Disk.open?`: the bytes of a file opened by a path as written.
* `Disk.readText?`: a file's text, decoded with replacement and with uniform line ends.
* `Disk.write`, `Disk.remove`: changes to files.
* `Disk.entries`: the names in a directory.
-/

namespace TexToc

open Text

/-- A directory tree: its directories and its files with their bytes, by absolute path. -/
structure Disk where
  dirs : List String
  files : List (String × List UInt8)
  deriving Repr

namespace Disk

/-- The absolute paths of the directories above an absolute path, outermost first. -/
def ancestors (p : String) : List String :=
  let ns := Path.names p
  (List.range ns.length).map fun i => Path.ofNames (ns.take i)

/-- Whether a resolved path names a directory. -/
def isDir (d : Disk) (p : String) : Bool :=
  p = "/" || d.dirs.contains p

/-- Whether a resolved path names a regular file. -/
def isFile (d : Disk) (p : String) : Bool :=
  (d.files.lookup p).isSome

/-- Whether a resolved path names anything. -/
def «exists» (d : Disk) (p : String) : Bool :=
  d.isDir p || d.isFile p

/-- The tree with a directory and the directories above it added. -/
def addDir (d : Disk) (p : String) : Disk :=
  let new := (ancestors p ++ [p]).filter fun q => q != "/" && !d.dirs.contains q
  { d with dirs := d.dirs ++ new }

/-- The tree with a file written at a resolved path, the directories above it added. -/
def putFile (d : Disk) (p : String) (bytes : List UInt8) : Disk :=
  let d := (ancestors p).foldl addDir d
  { d with files := (p, bytes) :: d.files.filter (·.1 != p) }

/-- The tree of the given directories and files, their paths taken from `cwd`. -/
def ofEntries (cwd : String) (dirs : List String) (files : List (String × List UInt8)) : Disk :=
  let d := (dirs.map (Path.resolve cwd)).foldl addDir (addDir ⟨[], []⟩ cwd)
  files.foldl (fun d (p, bytes) => d.putFile (Path.resolve cwd p) bytes) d

/-- Walk the names of a path written from `dir`; every name but the last must lead to a
directory. Gives the path of what the last name names. -/
def walkNames (d : Disk) (dir : String) : List String → Option String
  | [] => some dir
  | [n] =>
    if n = "" || n = "." then some dir
    else if n = ".." then some (Path.parent dir)
    else some (Path.ofNames (Path.names dir ++ [n]))
  | n :: rest =>
    if n = "" || n = "." then d.walkNames dir rest
    else if n = ".." then d.walkNames (Path.parent dir) rest
    else
      let next := Path.ofNames (Path.names dir ++ [n])
      if d.isDir next then d.walkNames next rest else none

/-- Whether a path as written from `cwd` names a directory, walked name by name: every name
must lead to a directory, so `..` after a file or after a name that is not there leads
nowhere. -/
def isDirAt (d : Disk) (cwd p : String) : Bool :=
  let start := if Path.isAbsolute p then "/" else cwd
  (d.walkNames start (p.splitOn "/" ++ ["."])).isSome

/-- The bytes of the regular file that a path as written names, walked from `cwd`; nothing
if a name on the way is not a directory, or the path names no regular file. -/
def open? (d : Disk) (cwd p : String) : Option (List UInt8) :=
  let start := if Path.isAbsolute p then "/" else cwd
  match d.walkNames start (p.splitOn "/") with
  | none => none
  | some target =>
    if p.endsWith "/" then none
    else match (p.splitOn "/").getLast? with
      | some ".." | some "." => none
      | _ => d.files.lookup target

/-- The text of a file opened by a path as written: UTF-8 with replacement, and uniform
line ends. -/
def readText? (d : Disk) (cwd p : String) : Option String :=
  (d.open? cwd p).map fun bytes => String.ofList (universalNewlines (decodeUtf8 bytes).toList)

/-- The tree with a file written by a path as written from `cwd`. -/
def write (d : Disk) (cwd p : String) (bytes : List UInt8) : Disk :=
  d.putFile (Path.resolve cwd p) bytes

/-- The tree without the file that a path as written from `cwd` names. -/
def remove (d : Disk) (cwd p : String) : Disk :=
  let target := Path.resolve cwd p
  { d with files := d.files.filter (·.1 != target) }

/-- The names of the files and directories directly in a resolved directory. -/
def entries (d : Disk) (dir : String) : List String :=
  let inDir (q : String) : Option String :=
    if q != "/" && Path.parent q = dir then some (Path.fileName q) else none
  d.dirs.filterMap inDir ++ d.files.filterMap fun (q, _) => inDir q

end Disk

end TexToc
