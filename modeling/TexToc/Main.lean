import TexToc.Cli.Program

/-!
The outline program.

The program reads the files below the working directory, the home directories of users (the
variable `HOME` for its own user, the password database for the others), the settings
variables and its arguments, runs, and prints what the run writes; a failure the run does
not report itself is printed with exit code 1.
-/

section

open TexToc TexToc.Cli

/-- The directories and files below the working directory, files with their bytes. -/
def readTree (cwd : String) : IO (List String × List (String × List UInt8)) := do
  let paths ← (← IO.currentDir).walkDir
  let mut dirs : List String := [cwd]
  let mut files : List (String × List UInt8) := []
  for p in paths do
    if ← p.isDir then
      dirs := dirs ++ [p.toString]
    else
      let bytes ← IO.FS.readBinFile p
      files := files ++ [(p.toString, bytes.toList)]
  return (dirs, files)

/-- The home directories of the users of a password database, by name: the sixth field of
each line. -/
def passwdHomes (text : String) : List (String × String) :=
  (text.splitOn "\n").filterMap fun line =>
    match line.splitOn ":" with
    | name :: _ :: _ :: _ :: _ :: home :: _ => some (name, home)
    | _ => none

/-- Run the outline program on the command line `args`. -/
def main (args : List String) : IO UInt32 := do
  let cwd := (← IO.currentDir).toString
  let (dirs, files) ← readTree cwd
  let home ← IO.getEnv "HOME"
  let users := match ← (IO.FS.readFile "/etc/passwd").toBaseIO with
    | .ok text => passwdHomes text
    | .error _ => []
  let homes (user : String) := if user.isEmpty then home else List.lookup user users
  let mut env : List (String × String) := []
  for name in Settings.variableSettings do
    let key := Settings.variableName name
    if let some v ← IO.getEnv key then
      env := env ++ [(key, v)]
  match run (Disk.ofEntries cwd dirs files) cwd homes (fun k => List.lookup k env) args with
  | .exit e =>
    IO.print e.out
    IO.eprint e.err
    return UInt32.ofNat e.code
  | .abort f =>
    IO.eprintln f.message
    return 1

end
