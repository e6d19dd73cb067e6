import TexToc.Settings.Basic

/-!
Settings from environment variables.

Each setting may be given by a variable `LATEX_OUTLINE_<NAME>`; an unset variable keeps the
setting of a fresh installation.

* A list is split at commas, each item has its blank ends dropped, and empty items are
  dropped; so an empty variable gives the empty list.
* A switch is on exactly when the variable, without its blank ends and in lower case, is
  `1`, `true`, `yes` or `on`.
* The poll interval is a real numeral and the poll count an integer numeral, in the digits
  of any script. A variable that is no numeral, or an integer of too many digits, fails at
  once, the interval first; numbers below zero fail the checks of the settings record.

* `Settings.ofEnvironment`: the settings that a set of variables gives.
-/

namespace TexToc

open Text

namespace Settings

/-- The name of the variable that gives a setting. -/
def variableName (name : String) : String :=
  "LATEX_OUTLINE_" ++ name

/-- The settings that variables can give, by the names their variables end in. -/
def variableSettings : List String :=
  ["SECTIONS", "COMMANDS", "ENVIRONMENTS", "FLOATS_ENABLED", "FLOAT_CAPTIONS_ENABLED",
    "FLOAT_NUMBERS_ENABLED", "SECTION_NUMBERS_ENABLED", "TEX_DIRS", "CACHE_POLL_INTERVAL_S",
    "CACHE_POLL_ATTEMPTS"]

/-- The items of a comma-separated list, blank ends dropped and empty items left out. -/
def listItems (raw : String) : List String :=
  (raw.splitOn ",").filterMap fun item =>
    let t := trimBlank item
    if t.isEmpty then none else some t

/-- Words that switch a setting on. -/
def onWords : List String := ["1", "true", "yes", "on"]

/-- Whether a variable's text switches a setting on. -/
def switchesOn (raw : String) : Bool :=
  onWords.contains (String.ofList ((trimBlankList raw.toList).map Char.toLower))

/-- The settings that the variables give, looked up by `get`. -/
def ofEnvironment (get : String → Option String) : Except Failure Settings :=
  let list (name : String) (default : List String) : List String :=
    ((get (variableName name)).map listItems).getD default
  let flag (name : String) : Bool :=
    ((get (variableName name)).map switchesOn).getD true
  let intervalText := (get (variableName "CACHE_POLL_INTERVAL_S")).getD "0.1"
  let attemptsText := (get (variableName "CACHE_POLL_ATTEMPTS")).getD "20"
  match readReal? intervalText with
  | none => .error (.notReal intervalText)
  | some interval =>
    match readInt attemptsText with
    | .error .malformed => .error (.notInt attemptsText)
    | .error (.tooManyDigits count) => .error (.tooManyDigits count)
    | .ok attempts =>
      let intervalOk : Checked RealNumeral :=
        if interval.atLeastZero then .ok interval
        else .error [⟨["cache_poll_interval_s"], .greaterThanEqual⟩]
      let attemptsOk : Checked Nat :=
        if 0 ≤ attempts then .ok attempts.toNat
        else .error [⟨["cache_poll_attempts"], .greaterThanEqual⟩]
      match Checked.zip intervalOk attemptsOk with
      | .error issues => .error (.invalid issues)
      | .ok (pollInterval, pollAttempts) =>
        .ok {
          sections := list "SECTIONS" standardSections
          commands := list "COMMANDS" []
          environments := list "ENVIRONMENTS" []
          floats := flag "FLOATS_ENABLED"
          floatCaptions := flag "FLOAT_CAPTIONS_ENABLED"
          floatNumbers := flag "FLOAT_NUMBERS_ENABLED"
          sectionNumbers := flag "SECTION_NUMBERS_ENABLED"
          texDirs := list "TEX_DIRS" []
          pollInterval
          pollAttempts }

end Settings

end TexToc
