import TexToc.Outline.Gather
import TexToc.Outline.Arrange

/-!
An editing session over a project.

A session holds the files of a project, the directory paths are taken from, the home
directories of users, the outline settings, the root file, the texts of files being edited
and not yet saved, and the cache of parsed documents, which lives as long as the session.
The root file, the files to outline and the files of unsaved texts are normalized before
they are used as keys: a relative path whose first name is `~` or `~user` is taken from that
user's home directory, and the path is resolved from the session's directory. A path that
holds the null character fails the request, and so does a home directory that is not known
or is itself written from a home directory.

An outline of a file gathers the file and what it includes, then arranges the root file's
forest. It asks for the file given, else the root file; with neither there is no outline.
The settings are checked first: a rank conflict fails the outline and leaves the session as
it was. A run that fails later keeps in the cache what it read and marked before the
failure. Files written or deleted on disk are not told to the cache, which goes on serving
what it read until the path is invalidated.

* `expandHome`, `normalizePath`: a path taken from a home directory, and a path normalized.
* `Session.start`: a session with an empty cache.
* `Session.outline`: the outline of a file.
* `Session.write`, `delete`, `invalidate`, `edit`, `cached`: the other requests.
-/

namespace TexToc

open Outline

/-- The path `p` taken from a home directory, where it is relative and its first name is `~`
(the home of the user running the program, asked for by the empty name) or `~user`. The
home is looked up in `homes` and written without its trailing slashes, the root for a home of
slashes only. A user name holding the null character, a user whose home is not known, and a
home that starts with `~` fail. -/
def expandHome (homes : String → Option String) (p : String) : Except Failure String :=
  if Path.isAbsolute p then .ok p
  else
    match Path.names p with
    | first :: rest =>
      match first.toList with
      | '~' :: user =>
        if '\x00' ∈ user then .error .nullInPath
        else
          match homes (String.ofList user) with
          | none => .error .noHome
          | some home =>
            let dir := (home.toList.reverse.dropWhile (· = '/')).reverse
            if dir.head? = some '~' then .error .noHome
            else .ok (String.ofList dir ++ "/" ++ "/".intercalate rest)
      | _ => .ok p
    | [] => .ok p

/-- A path given to a session, taken from a home directory and resolved from `cwd`. -/
def normalizePath (homes : String → Option String) (cwd p : String) : Except Failure String :=
  match expandHome homes p with
  | .error e => .error e
  | .ok p => resolvePath cwd p

/-- An editing session: the files, the working directory, the home directories of users by
name, the settings, the root file, the unsaved texts by normalized path, and the document
cache. -/
structure Session where
  disk : Disk
  cwd : String
  homes : String → Option String
  settings : Settings
  root : Option String
  unsaved : List (String × String)
  cache : DocCache

namespace Session

/-- An association list with the value of a key put in place of an earlier one. -/
def putAssoc (xs : List (String × String)) (k v : String) : List (String × String) :=
  if xs.any (·.1 == k) then xs.map fun (k', v') => if k' = k then (k', v) else (k', v')
  else xs ++ [(k, v)]

/-- Normalize the keys of texts, a later text for the same file replacing an earlier one. -/
def normalizeKeys (homes : String → Option String) (cwd : String) :
    List (String × String) → List (String × String) → Except Failure (List (String × String))
  | acc, [] => .ok acc
  | acc, (p, t) :: rest =>
    match normalizePath homes cwd p with
    | .error e => .error e
    | .ok key => normalizeKeys homes cwd (putAssoc acc key t) rest

/-- A session with an empty cache; the root file and the keys of the unsaved texts are
normalized, a later text for the same file replacing an earlier one. -/
def start (disk : Disk) (cwd : String) (homes : String → Option String) (settings : Settings)
    (root : Option String) (unsaved : List (String × String)) : Except Failure Session :=
  let root : Except Failure (Option String) :=
    match root with
    | none => .ok none
    | some r => (normalizePath homes cwd r).map some
  match root, normalizeKeys homes cwd [] unsaved with
  | .error e, _ => .error e
  | .ok _, .error e => .error e
  | .ok root, .ok unsaved => .ok { disk, cwd, homes, settings, root, unsaved, cache := .empty }

/-- What reading documents needs in this session. -/
def reading (s : Session) : Reading :=
  ⟨s.disk, s.cwd, grammarOf s.settings⟩

/-- What gathering needs in this session, for a run with configuration `cfg` whose target is
`target`: the root file is the session's, or else the target. -/
def gathering (s : Session) (cfg : Config) (target : String) : Gathering :=
  ⟨s.reading, cfg, s.root.getD target, s.unsaved, s.settings.pollAttempts⟩

/-- The outline of a file, or of the root file when no file is given, with the session after
it; included files are merged when `merge` holds. A run that fails leaves its cache. -/
def outline (s : Session) (file : Option String) (merge : Bool) :
    Except Failure (List Entry) × Session :=
  let target : Except Failure (Option String) :=
    match file with
    | some f => (normalizePath s.homes s.cwd f).map some
    | none => .ok s.root
  match target with
  | .error e => (.error e, s)
  | .ok none => (.ok [], s)
  | .ok (some target) =>
    match Config.ofSettings s.settings merge with
    | .error e => (.error e, s)
    | .ok cfg =>
      match gather (s.gathering cfg target) target ⟨[], s.cache⟩ with
      | .error (e, run) => (.error e, { s with cache := run.cache })
      | .ok run =>
        let es := (forestOf? run.forests target).getD []
        (.ok (arrange cfg run.forests es (some target)), { s with cache := run.cache })

/-- The session with a file written on disk, as UTF-8. -/
def write (s : Session) (p text : String) : Session :=
  { s with disk := s.disk.write s.cwd p text.toUTF8.toList }

/-- The session with a file deleted from disk. -/
def delete (s : Session) (p : String) : Session :=
  { s with disk := s.disk.remove s.cwd p }

/-- The session with the cache told to forget a file. -/
def invalidate (s : Session) (p : String) : Except Failure Session :=
  (resolvePath s.cwd p).map fun key => { s with cache := s.cache.invalidate key }

/-- The session with the unsaved text of a file set, or dropped when there is none. -/
def edit (s : Session) (p : String) (text : Option String) : Except Failure Session :=
  (resolvePath s.cwd p).map fun key =>
    match text with
    | some t => { s with unsaved := putAssoc s.unsaved key t }
    | none => { s with unsaved := s.unsaved.filter (·.1 != key) }

/-- The text the cache holds for a file. -/
def cached (s : Session) (p : String) : Except Failure (Option String) :=
  (resolvePath s.cwd p).map fun key => (s.cache.get key).map Document.content

end Session

end TexToc
