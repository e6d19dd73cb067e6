import TexToc.Text.Quoted
import TexToc.Text.Digit

/-!
The command line of the outline program.

The program takes one positional argument, the root file or a directory to look in, and
these options: `-h`/`--help`, `--no-subfiles`, `--json`, `--show-lines`, `--tex-dir DIR`
and `--command NAME` (both repeatable), `--no-numbers`, `--no-float-numbers` and
`-v`/`--verbose`.

Reading the arguments goes in two passes. The first pass tells options from values, before
any option is taken:

* after the first `--` every argument is a value;
* an argument that does not start with `-`, is `-` alone, looks like a negative number or
  holds a space is a value;
* an option string stands for its option, and so does one followed by `=` and a text;
* a long option may be cut short to any prefix that only one option string starts with; a
  prefix shared by several is an error naming them all;
* a short option may have a text glued to it (`-vh`);
* any other argument is an unknown option.

The second pass walks the arguments from left to right. Values before an option fill the
positional argument if it is still open (a `--` next to the value is dropped); other values
are left over. An option takes its value from an attached text or from the next argument,
which must be a value; a switch with an attached text takes the text as further short
switches. Help ends the reading at once. At the end a missing positional argument is an
error, and then so are left-over arguments and unknown options.

* `readArgs`: what the command line asks for.
* `usageText`, `helpText`: the program's usage and help.
-/

namespace TexToc.Cli

open Text

/-- The name the program goes by in its messages. -/
def programName : String := "latex-outline"

/-- The choices a command line makes besides the root. -/
structure Options where
  noSubfiles : Bool
  json : Bool
  showLines : Bool
  texDirs : List String
  commands : List String
  noNumbers : Bool
  noFloatNumbers : Bool
  verbose : Bool
  deriving Repr, DecidableEq

/-- The choices of a command line that gives no option. -/
def Options.plain : Options := ⟨false, false, false, [], [], false, false, false⟩

/-- An option of the program. -/
inductive Flag where
  | help
  | noSubfiles
  | json
  | showLines
  | texDir
  | command
  | noNumbers
  | noFloatNumbers
  | verbose
  deriving Repr, DecidableEq

/-- The option strings in the order they are declared, with the option each names. -/
def optionStrings : List (String × Flag) :=
  [("-h", .help), ("--help", .help), ("--no-subfiles", .noSubfiles), ("--json", .json),
    ("--show-lines", .showLines), ("--tex-dir", .texDir), ("--command", .command),
    ("--no-numbers", .noNumbers), ("--no-float-numbers", .noFloatNumbers), ("-v", .verbose),
    ("--verbose", .verbose)]

namespace Flag

/-- Whether an option takes a value. -/
def takesValue : Flag → Bool
  | .texDir | .command => true
  | _ => false

/-- The name of an option in messages: its option strings joined by slashes. -/
def title (f : Flag) : String :=
  "/".intercalate ((optionStrings.filter (·.2 == f)).map (·.1))

/-- The choices after an option is taken with a value (ignored by switches). -/
def apply (f : Flag) (o : Options) (value : String) : Options :=
  match f with
  | .help => o
  | .noSubfiles => { o with noSubfiles := true }
  | .json => { o with json := true }
  | .showLines => { o with showLines := true }
  | .texDir => { o with texDirs := o.texDirs ++ [value] }
  | .command => { o with commands := o.commands ++ [value] }
  | .noNumbers => { o with noNumbers := true }
  | .noFloatNumbers => { o with noFloatNumbers := true }
  | .verbose => { o with verbose := true }

end Flag

/-! ## Telling options from values -/

/-- What the first pass makes of an argument. -/
inductive Token where
  /-- A value. -/
  | value
  /-- The first `--`, after which every argument is a value. -/
  | separator
  /-- An option: the option it names (none for an unknown one), the option string matched,
  and the text attached to it. -/
  | option (flag : Option Flag) (name : String) (attached : Option String)
  deriving Repr, DecidableEq

/-- The option named by an option string. -/
def flagOf? (s : String) : Option Flag :=
  optionStrings.lookup s

/-- Whether an argument is a negative number: a minus sign, then digits, or digits around
a point with at least one digit after it; the digits are decimal digits of any script, and
a final line feed is let pass. -/
def looksNegative (arg : String) : Bool :=
  let cs := arg.toList
  let cs := if cs.getLast? = some '\n' then cs.dropLast else cs
  match cs with
  | '-' :: rest =>
    let (whole, more) := rest.span Text.isDecimalDigit
    match more with
    | [] => !whole.isEmpty
    | '.' :: frac => !frac.isEmpty && frac.all Text.isDecimalDigit
    | _ => false
  | _ => false

/-- The text before and after the first `=` of an argument, if it has one. -/
def splitAtEquals (arg : String) : Option (String × String) :=
  let cs := arg.toList
  if cs.contains '=' then
    let (head, tail) := cs.span (· != '=')
    some (String.ofList head, String.ofList (tail.drop 1))
  else none

/-- The options an argument starting with `-` may be cut short from: for a long option every
option string it is a prefix of (before any `=`); for a short one the option string of its
first two characters, with the rest attached, and every option string it is a prefix of. -/
def prefixMatches (arg : String) : List (Option Flag × String × Option String) :=
  match arg.toList with
  | _ :: '-' :: _ =>
    let (pre, attached) := match splitAtEquals arg with
      | some (h, t) => (h, some t)
      | none => (arg, none)
    optionStrings.filterMap fun (s, f) =>
      if s.startsWith pre then some (some f, s, attached) else none
  | c :: d :: rest =>
    let short := String.ofList [c, d]
    optionStrings.filterMap fun (s, f) =>
      if s = short then some (some f, s, some (String.ofList rest))
      else if s.startsWith arg then some (some f, s, none)
      else none
  | _ => []

/-- What an argument is in the first pass, if it is not a value; an argument that several
options may be cut short from is an error. -/
def readOption (arg : String) : Except String (Option Token) :=
  if arg.isEmpty || !arg.startsWith "-" then .ok none
  else match flagOf? arg with
  | some f => .ok (some (.option (some f) arg none))
  | none =>
    if arg.length = 1 then .ok none
    else
      let withEquals := (splitAtEquals arg).bind fun (h, t) =>
        (flagOf? h).map fun f => Token.option (some f) h (some t)
      match withEquals with
      | some t => .ok (some t)
      | none =>
        match prefixMatches arg with
        | [(f, s, a)] => .ok (some (.option f s a))
        | [] =>
          if looksNegative arg || arg.contains ' ' then .ok none
          else .ok (some (.option none arg none))
        | ms => .error ("ambiguous option: " ++ arg ++ " could match " ++
            ", ".intercalate (ms.map (·.2.1)))

/-- The first pass over the arguments. -/
def tokenize : List String → Except String (List Token)
  | [] => .ok []
  | "--" :: rest => .ok (.separator :: rest.map fun _ => .value)
  | arg :: rest =>
    match readOption arg, tokenize rest with
    | .error e, _ => .error e
    | .ok _, .error e => .error e
    | .ok t, .ok ts => .ok (t.getD .value :: ts)

/-! ## Taking the arguments -/

/-- Why reading the arguments stops early: help was asked for, or the command line is
wrong. -/
inductive Halt where
  | help
  | misuse (msg : String)
  deriving Repr, DecidableEq

/-- What the second pass has found so far: the positional argument, the choices, and the
arguments left over. -/
structure Progress where
  root : Option String
  opts : Options
  extras : List String

section Taking

variable (args : Array String) (toks : Array Token)

/-- The index of the first argument from `i` on that is not a separator. -/
def skipSeparators (i : Nat) : Nat :=
  if _h : i < toks.size then
    if toks[i]? = some .separator then skipSeparators (i + 1) else i
  else i
termination_by toks.size - i

/-- Fill the positional argument from `start`, if it is open and a value comes there (a
separator around it taken along and dropped); gives the progress and the index after. -/
def takeRoot (p : Progress) (start : Nat) : Progress × Nat :=
  if p.root.isSome then (p, start)
  else
    let i := skipSeparators toks start
    if toks[i]? = some .value then
      let stop := skipSeparators toks (i + 1)
      let taken := (args.extract start stop).toList.erase "--"
      ({ p with root := taken.head? }, stop)
    else (p, start)

/-- The errors of an option taken with a wrong value. -/
def misuseOf (f : Flag) (what : String) : Halt :=
  .misuse ("argument " ++ f.title ++ ": " ++ what)

/-- The options a switch with a text attached stands for, each with its value: the text is
read as further short switches glued together, until one takes the rest as its value. -/
def glued (f : Flag) (name : String) : List Char → Except Halt (List (Flag × String))
  | [] => .ok [(f, "")]
  | c :: rest =>
    if f.takesValue then .ok [(f, String.ofList (c :: rest))]
    else if name.startsWith "--" then
      .error (misuseOf f ("ignored explicit argument " ++ quote (String.ofList (c :: rest))))
    else
      let short := String.ofList ['-', c]
      match flagOf? short with
      | some g =>
        match glued g short rest with
        | .ok more => .ok ((f, "") :: more)
        | .error h => .error h
      | none =>
        .error (misuseOf f ("ignored explicit argument " ++ quote (String.ofList (c :: rest))))

/-- Take options in order; help ends the reading. -/
def takeAll (o : Options) : List (Flag × String) → Except Halt Options
  | [] => .ok o
  | (f, v) :: rest => if f = .help then .error .help else takeAll (f.apply o v) rest

/-- Take the option at `start`; gives the progress and the index after it. -/
def takeOption (p : Progress) (start : Nat) : Except Halt (Progress × Nat) :=
  let taken (fs : List (Flag × String)) (stop : Nat) : Except Halt (Progress × Nat) :=
    match takeAll p.opts fs with
    | .ok o => .ok ({ p with opts := o }, stop)
    | .error h => .error h
  match toks[start]? with
  | some (.option none _ _) => .ok ({ p with extras := p.extras ++ [args[start]?.getD ""] }, start + 1)
  | some (.option (some f) name (some attached)) =>
    if attached.isEmpty then
      if f.takesValue then taken [(f, "")] (start + 1)
      else .error (misuseOf f ("ignored explicit argument " ++ quote attached))
    else
      match glued f name attached.toList with
      | .ok fs => taken fs (start + 1)
      | .error h => .error h
  | some (.option (some f) _ none) =>
    if f.takesValue then
      if toks[start + 1]? = some .value then taken [(f, args[start + 1]?.getD "")] (start + 2)
      else .error (misuseOf f "expected one argument")
    else taken [(f, "")] (start + 1)
  | _ => .ok (p, start + 1)

/-- The index of the first option from `i` on. -/
def nextOption (i : Nat) : Option Nat :=
  (List.range' i (toks.size - i)).find? fun k =>
    match toks[k]? with
    | some (.option _ _ _) => true
    | _ => false

/-- The second pass from `start`: values up to the next option fill the positional argument
or are left over, then the option is taken; after the last option the rest is read as
values. -/
def takeFrom (p : Progress) (start : Nat) : Except Halt Progress :=
  match nextOption toks start with
  | none =>
    let (p, stop) := takeRoot args toks p start
    .ok { p with extras := p.extras ++ (args.extract stop args.size).toList }
  | some next =>
    let (p, after) := if start = next then (p, start) else takeRoot args toks p start
    if _h : start < after ∧ start < toks.size then takeFrom p after
    else
      let p := if next = start then p
        else { p with extras := p.extras ++ (args.extract start next).toList }
      match takeOption args toks p next with
      | .error h => .error h
      | .ok (p, stop) =>
        if _h : start < stop ∧ start < toks.size then takeFrom p stop else .ok p
termination_by toks.size - start

end Taking

/-- What a command line asks for. -/
inductive Request where
  /-- The outline of a root file or directory, with the given choices. -/
  | outline (root : String) (opts : Options)
  /-- The help text. -/
  | help
  /-- Nothing: the command line is wrong, for the reason given. -/
  | misuse (msg : String)
  deriving Repr, DecidableEq

/-- What the arguments of a command line ask for. -/
def readArgs (argv : List String) : Request :=
  match tokenize argv with
  | .error msg => .misuse msg
  | .ok toks =>
    match takeFrom argv.toArray toks.toArray ⟨none, .plain, []⟩ 0 with
    | .error .help => .help
    | .error (.misuse msg) => .misuse msg
    | .ok p =>
      match p.root with
      | none => .misuse "the following arguments are required: root"
      | some root =>
        if p.extras.isEmpty then .outline root p.opts
        else .misuse ("unrecognized arguments: " ++ " ".intercalate p.extras)

/-! ## Usage and help -/

/-- How the program is called. -/
def usageText : String :=
  "usage: latex-outline [-h] [--no-subfiles] [--json] [--show-lines]\n" ++
  "                     [--tex-dir TEX_DIR] [--command COMMAND] [--no-numbers]\n" ++
  "                     [--no-float-numbers] [-v]\n" ++
  "                     root\n"

/-- One line of the help: the argument as written, padded to the column of the help. -/
def helpLine (invocation help : String) : String :=
  "  " ++ invocation ++ String.ofList (List.replicate (18 - invocation.length) ' ') ++ "  " ++
    help ++ "\n"

/-- The help text. -/
def helpText : String :=
  usageText ++ "\n" ++
  "Print the section, float and inclusion outline of a LaTeX project.\n\n" ++
  "positional arguments:\n" ++
  helpLine "root" "Root .tex file, or a directory to search for one" ++ "\n" ++
  "options:\n" ++
  helpLine "-h, --help" "show this help message and exit" ++
  helpLine "--no-subfiles" "Do not merge included files; list inclusions as leaves" ++
  helpLine "--json" "Emit JSON instead of a tree" ++
  helpLine "--show-lines" "Show file and line of each element" ++
  helpLine "--tex-dir TEX_DIR" "Extra directory searched for included files (repeatable)" ++
  helpLine "--command COMMAND" "Extra macro to list as a command element (repeatable)" ++
  helpLine "--no-numbers" "Do not number sections" ++
  helpLine "--no-float-numbers" "Do not number floats" ++
  helpLine "-v, --verbose" "Enable debug logging"

end TexToc.Cli
