import TexToc.Cli.Args
import TexToc.Session
import TexToc.MainFile
import TexToc.Outline.Report
import TexToc.Settings.Environment

/-!
A run of the outline program.

A run reads its settings from the environment (a variable that is no numeral stops the run
before anything else; settings that fail their checks stop it after the command line is
read), then its command line: help is printed with exit code 0, a wrong
command line gives the usage and the error with exit code 2. The options add search
directories and commands to the settings and switch numbering off. A root that walks to
a directory is replaced by its main file. The outline of the root is then printed: as JSON,
or as an indented tree whose paths are taken from the root's directory, then an empty line
and the summary. Only the outline takes the root from a home directory; the root's
directory, where the main file is looked for and the paths are taken from, is read as the
root is written. A rank conflict or a directory without a main file ends the run with exit
code 1 and a message; any other failure cuts the run short.

* `run`: how a run ends.
-/

namespace TexToc.Cli

open Outline

/-- How a run ends: its exit code and what it wrote to its output and its error output. -/
structure Exit where
  code : Nat
  out : String
  err : String
  deriving Repr, DecidableEq

/-- A run ends, or is cut short by a failure the program does not report itself. -/
inductive Outcome where
  | exit (e : Exit)
  | abort (f : Failure)
  deriving Repr, DecidableEq

/-- Whether the program reports a failure itself: inconsistent settings or a source that is
not there. -/
def reports : Failure → Bool
  | .rankConflict _ _ _ | .noTexFiles _ | .unreadable _ | .unparsable _ | .tooDeep => true
  | _ => false

/-- The settings with the choices of the command line applied. -/
def Options.adjust (o : Options) (s : Settings) : Settings :=
  { s with
    texDirs := s.texDirs ++ o.texDirs
    commands := s.commands ++ o.commands
    sectionNumbers := s.sectionNumbers && !o.noNumbers
    floatNumbers := s.floatNumbers && !o.noFloatNumbers }

/-- How a failure ends a run. -/
def failed (f : Failure) : Outcome :=
  if reports f then .exit ⟨1, "", programName ++ ": " ++ f.message ++ "\n"⟩ else .abort f

/-- What the outline of `root` prints. -/
def printed (disk : Disk) (cwd : String) (homes : String → Option String) (s : Settings)
    (root : String) (o : Options) : Outcome :=
  let rootFile :=
    if disk.isDirAt cwd root then findMainFile disk cwd root else .ok root
  match rootFile with
  | .error f => failed f
  | .ok rootFile =>
    let outline : Except Failure (List Entry) :=
      match Session.start disk cwd homes s (some rootFile) [] with
      | .error f => .error f
      | .ok session => (session.outline none !o.noSubfiles).1
    match outline with
    | .error f => failed f
    | .ok es =>
      if o.json then .exit ⟨0, outlineJson es ++ "\n", ""⟩
      else
        let base := Path.resolve cwd (Path.lexicalParent rootFile)
        .exit ⟨0, outlineText ⟨o.showLines, some base⟩ es ++ "\n\n" ++ summary es ++ "\n", ""⟩

/-- A run in the directory `cwd` over the files of `disk`, with the home directories of users
`homes`, the variables `env` and the arguments `argv`. -/
def run (disk : Disk) (cwd : String) (homes env : String → Option String) (argv : List String) :
    Outcome :=
  let loaded := Settings.ofEnvironment env
  match loaded with
  | .ok _ | .error (.invalid _) =>
    match readArgs argv with
    | .help => .exit ⟨0, helpText, ""⟩
    | .misuse msg => .exit ⟨2, "", usageText ++ programName ++ ": error: " ++ msg ++ "\n"⟩
    | .outline root o =>
      match loaded with
      | .error f => .abort f
      | .ok s => printed disk cwd homes (o.adjust s) root o
  | .error f => .abort f

end TexToc.Cli
