import TexToc.Disk
import TexToc.Failure
import TexToc.Markup.Scan

/-!
Included files.

An inclusion names a file by a path that may leave out the extension. The path, without
its blank ends, is tried in each search directory in turn (an absolute path first as it
stands): a candidate without extension gets the default one; a candidate with an extension
that names nothing is tried with the default extension added, if that names something. The
first candidate that is a regular file is the included file. A path that resolves to the
root directory has no name to extend, and fails; so does an extension that would make the
last name more than one name. An extension that makes a name ending in `/.` is kept as it
is written, and the path it makes names no file. A candidate that holds the null character
fails, since no file name can hold it.

A literate document names child documents in the headers of its code chunks:
`<<label, child='part.Rnw', echo=FALSE>>=`. A header is `<<`, options separated by commas,
and `>>=`; one option is `child=` with a quoted path, blanks allowed around the `=` and
after the path. When the options before `>` hold several such places, the last one that
completes a header is taken. Headers do not overlap; each is looked for after the previous
one.

* `resolvePath`: a path resolved from the working directory.
* `extendName`: a path with an extension added to its last name.
* `resolveInclude`: the file an inclusion names, if any.
* `childChunks`: the child documents named in a text, with their lines, searched for in
  `childSearchDirs`.
-/

namespace TexToc

open Text

/-- A path resolved from the directory `cwd` as it is written: a first name `~` is a name like
any other here (a session takes its paths from home directories first, `normalizePath`). A
path that holds the null character fails. -/
def resolvePath (cwd p : String) : Except Failure String :=
  if p.contains '\x00' then .error .nullInPath else .ok (Path.resolve cwd p)

/-- The path `p` with `ext` added to its last name. The root has no name to extend, and an
extended name that is not one single name (it is absolute, ends in a slash, or holds two
names) is refused. A name that is one name followed by `/.` is kept as written. -/
def extendName (p ext : String) : Except Failure String :=
  match (Path.names p).getLast? with
  | none => .error .rootHasNoName
  | some n =>
    let new := n ++ ext
    if new.endsWith "/" || Path.isAbsolute new || (Path.names new).length != 1 then
      .error (.invalidName new)
    else .ok (Path.ofNames ((Path.names p).dropLast ++ [new]))

/-- The file that an inclusion path names, tried in the search directories `dirs` from the
working directory `cwd`; the extension `ext` is added where the path has none. -/
def resolveInclude (disk : Disk) (cwd : String) (dirs : List String) (input : String)
    (ext : String) : Except Failure (Option String) :=
  let input := trimBlank input
  if input.isEmpty then .ok none
  else
    let search := if Path.isAbsolute input then "" :: dirs else dirs
    go input search
where
  /-- Try the search directories in order. -/
  go (input : String) : List String → Except Failure (Option String)
    | [] => .ok none
    | dir :: rest =>
      match resolvePath cwd (Path.join dir input) with
      | .error e => .error e
      | .ok candidate =>
        let chosen : Except Failure String :=
          if (Path.suffix candidate).isEmpty then extendName candidate ext
          else if disk.exists candidate then .ok candidate
          else
            match extendName candidate ext with
            | .ok p => .ok (if disk.exists p then p else candidate)
            | .error e => .error e
        match chosen with
        | .error e => .error e
        | .ok p => if disk.isFile p then .ok (some p) else go input rest

/-! ## Child chunks -/

/-- A child document named in a chunk header: the file it resolves to, the path as
written, and the line of the header, counted from 0. -/
structure ChildChunk where
  file : String
  path : String
  line : Nat
  deriving Repr, DecidableEq

section Chunks

open Markup.Scan

variable (cs : Array Char)

/-- Whether a character ends an option of a chunk header. -/
def endsOption (c : Char) : Bool :=
  c = ',' || c = '>'

/-- Whether a character is a quote. -/
def isQuote (c : Char) : Bool :=
  c = '\x27' || c = '"'

/-- The indices just after the commas that end options, from `i` on, before the first `>`. -/
def optionEnds (i : Nat) : List Nat :=
  let j := findFrom cs endsOption i
  if _h : j < cs.size ∧ cs[j]? = some ',' ∧ i ≤ j then (j + 1) :: optionEnds (j + 1) else []
termination_by cs.size - i

/-- The index after the options that follow the child option: each is a comma and
characters that end no option. -/
def skipOptions (i : Nat) : Nat :=
  if _h : i < cs.size ∧ cs[i]? = some ',' then
    let j := findFrom cs endsOption (i + 1)
    if i < j then skipOptions j else j
  else i
termination_by cs.size - i

/-- The end of a chunk header whose child option starts at `i`: the index after `>>=` and
the quoted path. -/
def childOptionAt (i : Nat) : Option (Nat × String) :=
  let skipBlank (k : Nat) := findFrom cs (fun c => !isBlank c) k
  let i1 := skipBlank i
  if !startsAt cs i1 "child".toList then none
  else
    let i2 := skipBlank (i1 + 5)
    if cs[i2]? != some '=' then none
    else
      let i3 := skipBlank (i2 + 1)
      match cs[i3]? with
      | some q =>
        if !isQuote q then none
        else
          let i4 := findFrom cs isQuote (i3 + 1)
          if cs[i4]? != some q then none
          else
            let i6 := skipOptions cs (skipBlank (i4 + 1))
            if startsAt cs i6 ">>=".toList then some (i6 + 3, slice cs (i3 + 1) i4) else none
      | none => none

/-- The end and the path of a chunk header with a child option at `s`, which holds `<<`:
the options are tried from the last one that can start there back to the first. -/
def headerAt (s : Nat) : Option (Nat × String) :=
  ((s + 2) :: optionEnds cs (s + 2)).reverse.findSome? (childOptionAt cs)

/-- The chunk headers with a child option from index `i` on: where each starts, and its
path. Each is looked for after the end of the one before. -/
def childHeaders (i : Nat) : List (Nat × String) :=
  if _h : i < cs.size then
    match (if startsAt cs i "<<".toList then headerAt cs i else none) with
    | some (e, path) => if i < e then (i, path) :: childHeaders e else [(i, path)]
    | none => childHeaders (i + 1)
  else []
termination_by cs.size - i

end Chunks

/-- The directories searched for the child documents of a file: its own directory, the root
file's, then the further search directories. -/
def childSearchDirs (file root : String) (texDirs : List String) : List String :=
  Path.parent file :: Path.parent root :: texDirs

/-- The child documents named in a text that resolve to files, in the order of their
headers, with the lines of their headers. -/
def childChunks (disk : Disk) (cwd : String) (dirs : List String) (content : String) :
    Except Failure (List ChildChunk) :=
  let cs := content.toList.toArray
  let step (acc : List ChildChunk) : Nat × String → Except Failure (List ChildChunk)
    | (start, path) =>
      match resolveInclude disk cwd dirs path ".tex" with
      | .error e => .error e
      | .ok none => .ok acc
      | .ok (some file) => .ok (acc ++ [⟨file, path, Markup.Scan.lineFeedsBetween cs 0 start⟩])
  List.foldlM step [] (childHeaders cs 0)

end TexToc
