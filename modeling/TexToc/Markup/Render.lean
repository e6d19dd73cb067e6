import TexToc.Markup.Node

/-!
Writing nodes as a one-line label.

A label shows text as it stands and every blank, paragraph break or comment as one space.
A control sequence is written with its name and each argument between the marks it was
written with, except `\texorpdfstring`, which shows its plain-text argument. Groups show
their body, math keeps its delimiters, inline raw text shows its content, and an
environment is named but not expanded.

* `renderNodes` writes a sequence of nodes.
-/

namespace TexToc.Markup

/-- The command whose second argument is the plain-text form of its first. -/
def plainTextCommand : String := "texorpdfstring"

mutual

/-- A sequence of nodes written as a label. -/
def renderNodes : List Node → String
  | [] => ""
  | n :: ns => renderNode n ++ renderNodes ns

/-- One node written as a label. -/
def renderNode : Node → String
  | .text s _ => s
  | .blank _ | .parbreak _ | .comment _ _ => " "
  | .control name args _ =>
    if name = plainTextCommand then renderArgAt args 1
    else "\\" ++ name ++ renderArgs args
  | .env name _ _ _ | .mathEnv name _ _ _ | .verbatim name _ _ =>
    "\\environment\x7b" ++ name ++ "\x7d"
  | .inlineMath body _ => "$" ++ renderNodes body ++ "$"
  | .displayMath body _ => "\\[" ++ renderNodes body ++ "\\]"
  | .group body _ => renderNodes body
  | .verb _ content _ => content

/-- Arguments written one after another, each between its marks. -/
def renderArgs : List Arg → String
  | [] => ""
  | .mk o c body :: rest => o ++ renderNodes body ++ c ++ renderArgs rest

/-- The content of the argument at index `i`, written without its marks. -/
def renderArgAt : List Arg → Nat → String
  | [], _ => ""
  | .mk _ _ body :: _, 0 => renderNodes body
  | _ :: rest, i + 1 => renderArgAt rest i

end

end TexToc.Markup
