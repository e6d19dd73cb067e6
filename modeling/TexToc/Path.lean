/-!
File paths.

Paths are strings of names separated by `/`; a path that starts with `/` is absolute, any
other is taken from a working directory. Resolving a path reads it name by name: empty
names and `.` are skipped, `..` goes up one directory (the root's parent is the root), and
any other name goes down. No name is looked up while resolving, so the result depends on
the text alone.

* `resolve`: the absolute path that a path names from a working directory.
* `parent`, `join`, `relativeTo`: the directory part of a path, a path joined to a
  directory, and the way from one absolute path to another.
* `fileName`, `suffix`: the last name and its extension.
* `display`, `lexicalParent`: a path written without redundant parts, and its parent read
  off the text alone.
-/

namespace TexToc.Path

/-- The names of a path, empty names and `.` left out. -/
def names (p : String) : List String :=
  (p.splitOn "/").filter fun n => !n.isEmpty && n != "."

/-- Whether a path is absolute. -/
def isAbsolute (p : String) : Bool :=
  p.startsWith "/"

/-- Follow names from a directory given by its names, outermost first. -/
def walk (dir : List String) : List String → List String
  | [] => dir
  | ".." :: rest => walk dir.dropLast rest
  | n :: rest => walk (dir ++ [n]) rest

/-- The absolute path written by a list of names. -/
def ofNames (ns : List String) : String :=
  "/" ++ "/".intercalate ns

/-- The absolute path that `p` names from the working directory `cwd`. -/
def resolve (cwd p : String) : String :=
  let start := if isAbsolute p then [] else walk [] (names cwd)
  ofNames (walk start (names p))

/-- The directory part of a path: everything before its last `/`, without trailing
slashes unless nothing else is left. -/
def parent (p : String) : String :=
  let cs := p.toList
  let cut := cs.length - (cs.reverse.takeWhile (· != '/')).length
  let head := cs.take cut
  if head.all (· = '/') then String.ofList head
  else String.ofList (head.reverse.dropWhile (· = '/')).reverse

/-- A path joined to a directory; an absolute path stands for itself. -/
def join (dir p : String) : String :=
  if isAbsolute p then p
  else if dir.isEmpty || dir.endsWith "/" then dir ++ p
  else dir ++ "/" ++ p

/-- The way from the absolute directory `base` to the absolute path `p`: up out of what
they do not share, then down. -/
def relativeTo (p base : String) : String :=
  let ps := walk [] (names p)
  let bs := walk [] (names base)
  let common := ((ps.zip bs).takeWhile fun (a, b) => a = b).length
  let way := List.replicate (bs.length - common) ".." ++ ps.drop common
  if way.isEmpty then "." else "/".intercalate way

/-- The last name of a path, empty for the root. -/
def fileName (p : String) : String :=
  ((names p).getLast?).getD ""

/-- The extension of a name: from its last point on, if that point is neither the first nor
the last character. -/
def suffixOf (name : String) : String :=
  let cs := name.toList
  let i := cs.length - (cs.reverse.takeWhile (· != '.')).length
  -- `i` is one past the last point, or `0` when there is none
  if 1 < i && i < cs.length then String.ofList (cs.drop (i - 1)) else ""

/-- The extension of the last name of a path. -/
def suffix (p : String) : String :=
  suffixOf (fileName p)

/-- A path written without redundant parts: names joined by single slashes, `.` names and a
trailing slash left out, `.` for an empty relative path. A path that starts with exactly two
slashes keeps them, as POSIX leaves their meaning open. -/
def display (p : String) : String :=
  let body := "/".intercalate (names p)
  if p.startsWith "//" && !p.startsWith "///" then "//" ++ body
  else if isAbsolute p then "/" ++ body
  else if body.isEmpty then "."
  else body

/-- The parent of a path read off its text: the path without its last name; the root and
`.` are their own parents. -/
def lexicalParent (p : String) : String :=
  let ns := names p
  let lead := if p.startsWith "//" && !p.startsWith "///" then "//"
    else if isAbsolute p then "/" else ""
  let body := "/".intercalate ns.dropLast
  if lead.isEmpty && body.isEmpty then "." else lead ++ body

end TexToc.Path
