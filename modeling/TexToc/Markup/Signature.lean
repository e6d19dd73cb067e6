import TexToc.Text.Blank

/-!
Argument signatures.

A signature lists the argument slots that follow a command or the begin marker of an
environment, in the letters of the usual argument specification: `s` a star, `o` an
optional bracket argument, `d<>` an optional angle argument, `g` an optional braced
argument and `m` a mandatory one. Letters that name no slot are skipped.

The grammar of a text is the signature of every command and environment it knows. The
built-in tables cover sectioning, floats, references, fonts, inclusion and beamer frames;
extra tables given by the caller take precedence over them.

* `ArgSpec.ofWords` reads a signature.
* `Grammar.standard`, `Grammar.extend`: the built-in grammar and its extension.
* `mathEnvironments`, `verbatimEnvironments`: environments read as mathematics and as raw
  text.
-/

namespace TexToc.Markup

/-- One argument slot of a signature. -/
inductive ArgSpec where
  /-- An optional star. -/
  | star
  /-- An optional argument in square brackets. -/
  | bracket
  /-- An optional argument in angle brackets. -/
  | angle
  /-- An optional braced argument. -/
  | optGroup
  /-- A mandatory argument: braced, or the next single token. -/
  | group
  deriving Repr, DecidableEq

namespace ArgSpec

/-- The slot a word of a signature names, if any. -/
def ofWord : String → Option ArgSpec
  | "s" => some .star
  | "o" => some .bracket
  | "d<>" => some .angle
  | "g" => some .optGroup
  | "m" => some .group
  | _ => none

/-- The words of a text, split at runs of blank characters. -/
def words (s : String) : List String :=
  (s.toList.splitBy fun a b => Text.isBlank a == Text.isBlank b).filterMap fun w =>
    match w with
    | c :: _ => if Text.isBlank c then none else some (String.ofList w)
    | [] => none

/-- The slots of a signature written as words. -/
def ofWords (s : String) : List ArgSpec :=
  (words s).filterMap ofWord

end ArgSpec

/-- Signatures of the commands and environments a reader knows, looked up by name; the
first entry for a name wins. -/
structure Grammar where
  commands : List (String × List ArgSpec)
  environments : List (String × List ArgSpec)

/-- Built-in command signatures, as written in the argument-specification letters. -/
def standardCommands : List (String × String) := [
  ("part", "s o m"), ("chapter", "s o m"), ("section", "s o m"), ("subsection", "s o m"),
  ("subsubsection", "s o m"), ("paragraph", "s o m"), ("subparagraph", "s o m"),
  ("addchap", "s o m"), ("addsec", "s o m"), ("frametitle", "d<> o m"),
  ("framesubtitle", "d<> o m"), ("caption", "o m"), ("label", "m"), ("ref", "m"),
  ("eqref", "m"), ("pageref", "m"), ("cite", "o o m"), ("citep", "o o m"),
  ("citet", "o o m"), ("footnote", "o m"), ("emph", "m"), ("textbf", "m"), ("textit", "m"),
  ("texttt", "m"), ("textsc", "m"), ("textsf", "m"), ("textrm", "m"), ("textup", "m"),
  ("underline", "m"), ("mbox", "m"), ("text", "m"), ("mathbf", "m"), ("mathrm", "m"),
  ("mathit", "m"), ("mathcal", "m"), ("mathbb", "m"), ("operatorname", "s m"),
  ("frac", "m m"), ("sqrt", "o m"), ("url", "m"), ("href", "m m"),
  ("texorpdfstring", "m m"), ("includegraphics", "s o m"), ("input", "m"),
  ("include", "m"), ("InputIfFileExists", "m m m"), ("SweaveInput", "m"), ("subfile", "m"),
  ("loadglsentries", "m"), ("markdownInput", "m"), ("import", "m m"), ("inputfrom", "m m"),
  ("includefrom", "m m"), ("subimport", "m m"), ("subinputfrom", "m m"),
  ("subincludefrom", "m m"), ("documentclass", "o m"), ("usepackage", "o m"),
  ("title", "o m"), ("author", "o m"), ("newcommand", "s m o o m"),
  ("renewcommand", "s m o o m"), ("hspace", "s m"), ("vspace", "s m"), ("item", "o"),
  ("\\", "s o")]

/-- Built-in environment signatures. -/
def standardEnvironments : List (String × String) := [
  ("figure", "o"), ("figure*", "o"), ("table", "o"), ("table*", "o"),
  ("frame", "d<> o o g g"), ("minipage", "o o o m"), ("tabular", "o m"),
  ("wrapfigure", "o m o m"), ("subfigure", "o m"), ("thebibliography", "m"),
  ("itemize", "o"), ("enumerate", "o"), ("description", "o")]

/-- Environments whose body is mathematics. -/
def mathEnvironments : List String :=
  ["equation", "equation*", "align", "align*", "alignat", "alignat*", "gather", "gather*",
    "multline", "multline*", "flalign", "flalign*", "eqnarray", "eqnarray*", "displaymath",
    "math"]

/-- Environments whose body is kept as raw text up to the end marker. -/
def verbatimEnvironments : List String :=
  ["verbatim", "verbatim*", "Verbatim", "lstlisting", "minted", "comment", "filecontents",
    "filecontents*"]

/-- Whether a command has a built-in signature. -/
def isStandardCommand (name : String) : Bool :=
  standardCommands.any (·.1 == name)

namespace Grammar

/-- Read every signature of a table. -/
def readTable (table : List (String × String)) : List (String × List ArgSpec) :=
  table.map fun (name, sig) => (name, ArgSpec.ofWords sig)

/-- The built-in grammar. -/
def standard : Grammar :=
  ⟨readTable standardCommands, readTable standardEnvironments⟩

/-- The grammar with extra command and environment signatures that take precedence. -/
def extend (g : Grammar) (commands environments : List (String × String)) : Grammar :=
  ⟨readTable commands ++ g.commands, readTable environments ++ g.environments⟩

/-- The signature of a command; a command without one takes no arguments. -/
def command (g : Grammar) (name : String) : List ArgSpec :=
  (g.commands.lookup name).getD []

/-- The signature of an environment; an environment without one takes no arguments. -/
def environment (g : Grammar) (name : String) : List ArgSpec :=
  (g.environments.lookup name).getD []

end Grammar

example : ArgSpec.ofWords " s  o\tm x d<> " = [.star, .bracket, .group, .angle] := by
  decide +kernel

end TexToc.Markup
