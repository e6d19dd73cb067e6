import TexToc.Check
import TexToc.Text.Quoted

/-!
Why a request fails.

Every way a request can fail is one constructor, and the wording of each is written in one
place, `Failure.message`.

* A record that fails its checks, with every issue.
* Settings that list one sectioning command under two ranks.
* A project with no main file, a file that cannot be read or cannot be parsed.
* A text nested beyond the reader's depth budget.
* An inclusion path with no file name, a path holding a null character, a path starting
  from a home directory that is not known, and a directory read as a file.
* Numerals that do not read as numbers, or have more digits than allowed.
-/

namespace TexToc

open Text

/-- Why a request fails. -/
inductive Failure where
  /-- A record failed its checks. -/
  | invalid (issues : List Issue)
  /-- A sectioning command is listed under two ranks: the first and the later one. -/
  | rankConflict (name : String) (first later : Nat)
  /-- A directory holds no `.tex` file. -/
  | noTexFiles (dir : String)
  /-- A file cannot be read. -/
  | unreadable (path : String)
  /-- The text of a file is nested beyond the depth budget. -/
  | unparsable (path : String)
  /-- A text is nested beyond the depth budget. -/
  | tooDeep
  /-- An inclusion path ends at the root directory, which has no name to extend. -/
  | rootHasNoName
  /-- A file name extended by a default extension is no single name. -/
  | invalidName (name : String)
  /-- A setting is no real numeral. -/
  | notReal (text : String)
  /-- A setting is no integer numeral. -/
  | notInt (text : String)
  /-- A setting is an integer numeral of more digits than allowed: their number. -/
  | tooManyDigits (count : Nat)
  /-- A path holds the null character, which no file name may hold. -/
  | nullInPath
  /-- A path starts from the home directory of a user, `~` or `~user`, that is not known. -/
  | noHome
  /-- A directory was read as a file. -/
  | isDirectory (path : String)
  deriving Repr, DecidableEq

/-- What a failure says. -/
def Failure.message : Failure → String
  | .invalid issues => toString issues.length ++ " validation errors"
  | .rankConflict name first later =>
    "Section command '" ++ name ++ "' is listed under ranks " ++ toString first ++ " and " ++
      toString later
  | .noTexFiles dir => "No .tex files found in " ++ dir
  | .unreadable path => "Cannot read " ++ path
  | .unparsable path => "Cannot parse " ++ path
  | .tooDeep => "Nesting too deep to parse"
  | .rootHasNoName => "PosixPath('/') has an empty name"
  | .invalidName name => "Invalid name " ++ quote name
  | .notReal text => "could not convert string to float: " ++ quote text
  | .notInt text =>
    "invalid literal for int() with base 10: " ++ String.ofList ((quote text).toList.take 200)
  | .tooManyDigits count =>
    "Exceeds the limit (" ++ toString maxIntDigits ++
      " digits) for integer string conversion: value has " ++ toString count ++
      " digits; use sys.set_int_max_str_digits() to increase the limit"
  | .nullInPath => "embedded null byte"
  | .noHome => "Could not determine home directory."
  | .isDirectory path => "[Errno 21] Is a directory: " ++ quote path

end TexToc
