import TexToc.Check
import TexToc.Failure

/-!
Outline settings.

Settings say which commands section a document and at what rank, which further commands
and environments the outline shows, whether floats are shown, captioned and numbered,
whether sections are numbered, where included files are searched, and how a run waits for
a document that is still loading.

Sectioning commands are given as a list of rank groups: the entry at index `i` lists the
commands of rank `i` separated by `|`, rank `0` being the outermost.

* `Settings.standard`: the settings of a fresh installation.
* `Settings.ofValue`: settings read from a request, every field checked, absent fields
  taken from a base.
-/

namespace TexToc

open Text

/-- Outline settings. -/
structure Settings where
  /-- Rank groups of sectioning commands, outermost first. -/
  sections : List String
  /-- Further commands shown in the outline. -/
  commands : List String
  /-- Further environments shown in the outline. -/
  environments : List String
  /-- Whether figures and tables are shown. -/
  floats : Bool
  /-- Whether a float's label carries its caption. -/
  floatCaptions : Bool
  /-- Whether floats are numbered. -/
  floatNumbers : Bool
  /-- Whether sections are numbered. -/
  sectionNumbers : Bool
  /-- Further directories searched for included files. -/
  texDirs : List String
  /-- Seconds between two looks at a document that is still loading. -/
  pollInterval : RealNumeral
  /-- Looks at a loading document before its load is forced. -/
  pollAttempts : Nat
  deriving Repr, DecidableEq

namespace Settings

/-- The rank groups of a fresh installation: parts, chapters, sections and two levels of
subsections. -/
def standardSections : List String :=
  ["part", "chapter", "section", "subsection", "subsubsection"]

/-- The settings of a fresh installation: everything shown and numbered, a look every
tenth of a second, twenty looks. -/
def standard : Settings where
  sections := standardSections
  commands := []
  environments := []
  floats := true
  floatCaptions := true
  floatNumbers := true
  sectionNumbers := true
  texDirs := []
  pollInterval := .finite false 1 (-1)
  pollAttempts := 20

/-- Settings read from the fields of an object; an absent field keeps its value in `base`.
Every field is checked, and the issues of all fields are reported together, in the order
of the fields. -/
def ofValue (base : Settings) (v : Value) : Checked Settings :=
  let lists := Checked.zip (checkField v "sections" base.sections checkStrings)
    (Checked.zip (checkField v "commands" base.commands checkStrings)
      (checkField v "environments" base.environments checkStrings))
  let flags := Checked.zip (checkField v "floats_enabled" base.floats checkBool)
    (Checked.zip (checkField v "float_captions_enabled" base.floatCaptions checkBool)
      (Checked.zip (checkField v "float_numbers_enabled" base.floatNumbers checkBool)
        (checkField v "section_numbers_enabled" base.sectionNumbers checkBool)))
  let rest := Checked.zip (checkField v "tex_dirs" base.texDirs checkStrings)
    (Checked.zip (checkField v "cache_poll_interval_s" base.pollInterval checkReal)
      (checkField v "cache_poll_attempts" base.pollAttempts checkCount))
  match Checked.zip lists (Checked.zip flags rest) with
  | .ok ((sections, commands, environments), (floats, floatCaptions, floatNumbers,
      sectionNumbers), (texDirs, pollInterval, pollAttempts)) =>
    .ok { sections, commands, environments, floats, floatCaptions, floatNumbers,
          sectionNumbers, texDirs, pollInterval, pollAttempts }
  | .error e => .error e

end Settings

end TexToc
