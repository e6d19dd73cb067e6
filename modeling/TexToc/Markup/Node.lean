/-!
Markup trees.

A LaTeX text reads as a sequence of nodes. Text runs, blanks, paragraph breaks and
comments are leaves; a control sequence carries the arguments its signature asks for; an
environment, a math span and a braced group hold a body of further nodes. An argument
keeps the marks it was written with, so that a label can be written back as it stood.

Every node records the half-open range of code-point offsets it was read from. The one
exception is the star of a starred command, which the reader makes up and places nowhere.

* `Node`, `Arg`: the tree.
* `Node.body`: the nodes a walk over the document descends into.
* `Arg.isStar`, `Arg.empty`: the two arguments a signature may stand in for.
-/

namespace TexToc.Markup

/-- A half-open range of code-point offsets of the text. -/
structure Span where
  start : Nat
  stop : Nat
  deriving Repr, DecidableEq

mutual

/-- A node of a markup tree. -/
inductive Node where
  /-- A run of text; unplaced only for the star of a starred command. -/
  | text (content : String) (span : Option Span)
  /-- Blank characters holding at most one line feed. -/
  | blank (span : Span)
  /-- Blank characters holding two line feeds or more. -/
  | parbreak (span : Span)
  /-- A comment, without its percent sign and line feed. -/
  | comment (content : String) (span : Span)
  /-- A control sequence and its arguments. -/
  | control (name : String) (args : List Arg) (span : Span)
  /-- An environment from its begin marker to its end marker. -/
  | env (name : String) (args : List Arg) (body : List Node) (span : Span)
  /-- An environment whose body is mathematics. -/
  | mathEnv (name : String) (args : List Arg) (body : List Node) (span : Span)
  /-- An environment whose body is kept as raw text. -/
  | verbatim (name : String) (content : String) (span : Span)
  /-- Mathematics in the running text. -/
  | inlineMath (body : List Node) (span : Span)
  /-- Mathematics set apart from the running text. -/
  | displayMath (body : List Node) (span : Span)
  /-- A braced group. -/
  | group (body : List Node) (span : Span)
  /-- Inline raw text between two copies of a delimiter. -/
  | verb (delim : Char) (content : String) (span : Span)

/-- An argument: its opening and closing marks, and what stands between them. -/
inductive Arg where
  | mk (openMark closeMark : String) (content : List Node)

end

namespace Arg

/-- The argument of an optional slot that was not filled. -/
def empty : Arg := .mk "" "" []

/-- The argument that a star fills: the unplaced text `*`. -/
def star : Arg := .mk "" "" [.text "*" none]

/-- The opening mark. -/
def openMark : Arg → String
  | .mk o _ _ => o

/-- The closing mark. -/
def closeMark : Arg → String
  | .mk _ c _ => c

/-- What stands between the marks. -/
def content : Arg → List Node
  | .mk _ _ body => body

/-- An argument is a star when it has no marks and holds the single text `*`. -/
def isStar : Arg → Bool
  | .mk "" _ [.text "*" _] => true
  | _ => false

end Arg

namespace Node

/-- The nodes a walk over the document descends into: the body of an environment, of a
math span or of a group. -/
def body : Node → List Node
  | .env _ _ b _ | .mathEnv _ _ b _ | .inlineMath b _ | .displayMath b _ | .group b _ => b
  | _ => []

/-- A node is no smaller than its body, so a walk into bodies ends. -/
theorem sizeOf_body_le (n : Node) : sizeOf n.body ≤ sizeOf n := by
  cases n <;> simp [body] <;> omega

/-- The range a node was read from, if it was read from the text. -/
def span? : Node → Option Span
  | .text _ s => s
  | .blank s | .parbreak s | .comment _ s | .control _ _ s | .env _ _ _ s | .mathEnv _ _ _ s
  | .verbatim _ _ s | .inlineMath _ s | .displayMath _ s | .group _ s | .verb _ _ s => some s

end Node

/-- The content of the argument at `i`, or nothing if there are fewer arguments. -/
def argContent (args : List Arg) (i : Nat) : List Node :=
  (args[i]?.map Arg.content).getD []

end TexToc.Markup
