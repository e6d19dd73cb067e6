import TexToc.Settings.Basic
import TexToc.Markup.Signature

/-!
The configuration of one outline run.

A run turns the settings into what its passes look up: the rank of every sectioning
command, the commands and environments to show, the directories to search, and what to
number. A command may stand in one rank group only, possibly several times; one that
stands in two groups makes the settings inconsistent, and the run fails naming the first
rank it was seen under and the first later rank that repeats it.

Commands that the settings add and the reader does not know get signatures: a sectioning
command takes a star, an optional short title and a title; any other added command an
optional and a mandatory argument.

* `Config.ofSettings`: the run configuration, or the rank conflict.
* `Config.rank`: the rank of a command.
* `addedSignatures`: signatures for the commands the settings add.
-/

namespace TexToc.Outline

open Markup

/-- What the passes of one outline run look up. -/
structure Config where
  /-- Sectioning commands and their ranks, in the order first listed. -/
  ranks : List (String × Nat)
  /-- Further commands shown in the outline. -/
  commands : List String
  /-- Environments shown in the outline. -/
  environments : List String
  /-- Further directories searched for included files. -/
  texDirs : List String
  /-- Whether included files are read and their entries merged. -/
  mergeIncluded : Bool
  /-- Whether a float's label carries its caption. -/
  showCaptions : Bool
  /-- Whether floats are numbered. -/
  numberFloats : Bool
  /-- Whether sections are numbered. -/
  numberSections : Bool
  deriving Repr, DecidableEq

/-- The names listed in one rank group: split at `|`, blank ends dropped, empty names left
out. -/
def groupNames (group : String) : List String :=
  (group.splitOn "|").filterMap fun n =>
    let t := Text.trimBlank n
    if t.isEmpty then none else some t

/-- Add the names of one group at rank `rank` to a rank table, in order; a name already
listed under another rank is a conflict. -/
def addGroup (rank : Nat) : List (String × Nat) → List String → Except Failure (List (String × Nat))
  | table, [] => .ok table
  | table, name :: rest =>
    match table.lookup name with
    | some r =>
      if r = rank then addGroup rank table rest else .error (.rankConflict name r rank)
    | none => addGroup rank (table ++ [(name, rank)]) rest

/-- The rank table of a list of rank groups, filled group by group from `table`. -/
def rankTable (table : List (String × Nat)) (rank : Nat) :
    List String → Except Failure (List (String × Nat))
  | [] => .ok table
  | group :: rest =>
    match addGroup rank table (groupNames group) with
    | .ok t => rankTable t (rank + 1) rest
    | .error e => .error e

/-- The environments a run shows: the beamer frame, after figures and tables when floats are
shown, then the added environments not yet listed, each once. -/
def shownEnvironments (s : Settings) : List String :=
  let base := if s.floats then ["figure", "table", "frame"] else ["frame"]
  s.environments.foldl (fun acc e => if acc.contains e then acc else acc ++ [e]) base

namespace Config

/-- The configuration of a run with the given settings; `mergeIncluded` says whether
included files are merged. -/
def ofSettings (s : Settings) (mergeIncluded : Bool) : Except Failure Config :=
  match rankTable [] 0 s.sections with
  | .error e => .error e
  | .ok ranks =>
    .ok { ranks
          commands := s.commands
          environments := shownEnvironments s
          texDirs := s.texDirs
          mergeIncluded
          showCaptions := s.floatCaptions
          numberFloats := s.floatNumbers
          numberSections := s.sectionNumbers }

/-- The rank of a sectioning command, if it has one. -/
def rank (cfg : Config) (name : String) : Option Nat :=
  cfg.ranks.lookup name

end Config

/-- Signatures for the commands that the settings add and the reader does not know: star,
short title and title for sectioning commands, optional and mandatory argument for the
others; a name gets the first signature given to it. -/
def addedSignatures (s : Settings) : List (String × String) :=
  let sectioning := (s.sections.flatMap groupNames).filter fun n => !isStandardCommand n
  let withSections := sectioning.foldl
    (fun acc n => if acc.any (·.1 == n) then acc else acc ++ [(n, "s o m")]) []
  s.commands.foldl
    (fun acc n => if isStandardCommand n || acc.any (·.1 == n) then acc else acc ++ [(n, "o m")])
    withSections

/-- The grammar that documents are read with under the settings: the standard grammar with
the added signatures. -/
def grammarOf (s : Settings) : Grammar :=
  Grammar.standard.extend (addedSignatures s) []

end TexToc.Outline
