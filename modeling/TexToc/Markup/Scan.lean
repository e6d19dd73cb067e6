import TexToc.Text.Blank
import TexToc.Text.Letter

/-!
Scanning a text by code-point index.

The reader keeps the text as an array of characters and moves an index over it. The
functions here look ahead from an index without building nodes: they find characters and
marks, match braces, and recognise the end marker of an environment.

* `findFrom`, `findSeq`: the next index with a property, the next occurrence of a mark.
* `closingBrace`: the brace that closes the one at an index, counting every brace.
* `endMarker`: the name and end of an end marker `\end{name}` at an index.
* `verbatimEnd`: the next end marker of a raw-text environment.
-/

namespace TexToc.Markup.Scan

open TexToc.Text

variable (cs : Array Char)

/-- Whether the characters from index `i` on begin with `s`. -/
def startsAt (i : Nat) : List Char → Bool
  | [] => true
  | c :: rest => cs[i]? == some c && startsAt (i + 1) rest

/-- The first index at or after `i` whose character satisfies `p`, or the length of the
text if there is none. -/
def findFrom (p : Char → Bool) (i : Nat) : Nat :=
  if h : i < cs.size then
    if p cs[i] then i else findFrom p (i + 1)
  else cs.size
termination_by cs.size - i

/-- The first index at or after `i` at which the mark `s` occurs. -/
def findSeq (s : List Char) (i : Nat) : Option Nat :=
  if i < cs.size then
    if startsAt cs i s then some i else findSeq s (i + 1)
  else none
termination_by cs.size - i

/-- The characters from index `a` up to index `b`, as a string. -/
def slice (a b : Nat) : String :=
  String.ofList (cs.extract a b).toList

/-- The number of line feeds from index `a` up to index `b`. -/
def lineFeedsBetween (a b : Nat) : Nat :=
  (cs.extract a b).count '\n'

/-- The index after the spaces and tabs that start at `i`. -/
def skipSpaces (i : Nat) : Nat :=
  findFrom cs (fun c => c != ' ' && c != '\t') i

/-- The index where an argument after `i` may start: past spaces and tabs, and past at most
one line feed with the spaces and tabs after it. -/
def skipToArg (i : Nat) : Nat :=
  let p := skipSpaces cs i
  if cs[p]? = some '\n' then skipSpaces cs (p + 1) else p

/-- The index of the closing brace at `depth` levels of nesting, scanning from `j`. -/
def closeFrom (j depth : Nat) : Option Nat :=
  if h : j < cs.size then
    if cs[j] = '{' then closeFrom (j + 1) (depth + 1)
    else if cs[j] = '}' then
      if depth ≤ 1 then some j else closeFrom (j + 1) (depth - 1)
    else closeFrom (j + 1) depth
  else none
termination_by cs.size - j

/-- The index of the brace that closes an opening brace at `i`, counting every brace of
the text; nothing if `i` holds no opening brace or the brace stays open. -/
def closingBrace (i : Nat) : Option Nat :=
  if cs[i]? = some '{' then closeFrom cs (i + 1) 1 else none

/-- A character that may stand in the name of a control word. -/
def isNameChar (c : Char) : Bool :=
  c.isAlpha || c = '@'

/-- The end of the control word starting at `i`, if a name character stands there. -/
def nameEnd (i : Nat) : Option Nat :=
  let e := findFrom cs (fun c => !isNameChar c) i
  if i < e then some e else none

/-- The name and the index after it of a braced name at `i`, after spaces and tabs:
`{ name }` gives the name without its blank ends. -/
def bracedName (i : Nat) : Option (String × Nat) :=
  let brace := skipSpaces cs i
  (closingBrace cs brace).map fun close => (trimBlank (slice cs (brace + 1) close), close + 1)

/-- The environment name of an end marker `\end{name}` at `i`, and the index after it. A
letter right after `\end` makes a different control word, so no marker stands there. -/
def endMarker (i : Nat) : Option (String × Nat) :=
  if startsAt cs i "\\end".toList then
    match cs[i + 4]? with
    | some c => if isLetter c then none else bracedName cs (i + 4)
    | none => bracedName cs (i + 4)
  else none

/-- Whether an end marker for `name`, with blank characters allowed before its brace,
starts at `k`; gives the index after it. -/
def verbatimEndAt (name : List Char) (k : Nat) : Option Nat :=
  if startsAt cs k "\\end".toList then
    let j := findFrom cs (fun c => !isBlank c) (k + 4)
    if startsAt cs j ('{' :: name ++ ['}']) then some (j + name.length + 2) else none
  else none

/-- The first end marker for `name` at or after `k`: where it starts and the index after
it. -/
def verbatimEnd (name : List Char) (k : Nat) : Option (Nat × Nat) :=
  if k < cs.size then
    match verbatimEndAt cs name k with
    | some e => some (k, e)
    | none => verbatimEnd name (k + 1)
  else none
termination_by cs.size - k

end TexToc.Markup.Scan
