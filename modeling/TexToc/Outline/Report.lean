import TexToc.Outline.Entry
import TexToc.Path
import TexToc.Text.Quoted

/-!
Writing an outline out.

An outline is written one entry per line, in the order of the outline read from top to
bottom, each line indented by four spaces per level of nesting. With line numbers shown, a
line ends with the entry's file, taken from a base directory where one is given, and the
entry's first line counted from 1, in parentheses. The summary counts sections (starred or not), and then
environments, commands and included files where there are any.

* `outlineLines`, `outlineText`: the lines of an outline and their text.
* `summary`: the one-line summary.
* `outlineJson`: the outline as JSON, an array of entries indented by two spaces per level,
  each entry an object with its fields in a fixed order and its nested entries last.
-/

namespace TexToc.Outline

/-- Whether each line of an outline shows the entry's place, in which file and at which
line, and the base directory the file is written from, if there is one. -/
structure LineStyle where
  showLines : Bool
  base : Option String

/-- The file of an entry as its line shows it: written from the base directory, or as it
stands when there is no base or the base is the empty path. -/
def LineStyle.shownPath (style : LineStyle) (file : String) : String :=
  match style.base with
  | some base => if base.isEmpty then file else Path.relativeTo file base
  | none => file

mutual

/-- The lines of a forest at nesting level `depth`. -/
def linesAt (style : LineStyle) (depth : Nat) : List Entry → List String
  | [] => []
  | e :: rest => linesOf style depth e ++ linesAt style depth rest

/-- The line of an entry, then the lines of the entries nested under it. -/
def linesOf (style : LineStyle) (depth : Nat) : Entry → List String
  | ⟨_, _, label, _, lineStart, _, file, cs⟩ =>
    let place :=
      if style.showLines then
        "  (" ++ style.shownPath file ++ ":" ++ toString (lineStart + 1) ++ ")"
      else ""
    (String.ofList (List.replicate (4 * depth) ' ') ++ label ++ place) :: linesAt style (depth + 1) cs

end

/-- The lines of an outline. -/
def outlineLines (style : LineStyle) (es : List Entry) : List String :=
  linesAt style 0 es

/-- The text of an outline: its lines joined by line feeds. -/
def outlineText (style : LineStyle) (es : List Entry) : String :=
  "\n".intercalate (outlineLines style es)

/-- The one-line summary of an outline: the number of sections, and the numbers of
environments, commands and included files that occur. -/
def summary (es : List Entry) : String :=
  let sections := Entry.count es .section + Entry.count es .sectionStarred
  let others := [(Kind.environment, "Environments"), (.command, "Commands"), (.included, "Sub-files")]
  let parts := others.filterMap fun (k, title) =>
    let n := Entry.count es k
    if n = 0 then none else some (title ++ ": " ++ toString n)
  ", ".intercalate (("Sections: " ++ toString sections) :: parts)

/-- The indentation of a JSON value at a level. -/
def jsonIndent (level : Nat) : String :=
  String.ofList (List.replicate (2 * level) ' ')

/-- A JSON array of the given item texts at a level: `[]` when empty, else one item a line. -/
def jsonArray (level : Nat) (items : List String) : String :=
  match items with
  | [] => "[]"
  | _ =>
    "[\n" ++ ",\n".intercalate (items.map (jsonIndent (level + 1) ++ ·)) ++ "\n" ++
      jsonIndent level ++ "]"

mutual

/-- The item texts of entries one level inside `level`. -/
def jsonItems (level : Nat) : List Entry → List String
  | [] => []
  | e :: rest => jsonEntry (level + 1) e :: jsonItems level rest

/-- An entry as a JSON object at a level. -/
def jsonEntry (level : Nat) : Entry → String
  | ⟨kind, name, label, offset, lineStart, lineEnd, file, cs⟩ =>
    let fields := [("kind", Text.jsonQuote kind.code), ("name", Text.jsonQuote name),
      ("label", Text.jsonQuote label), ("offset", toString offset),
      ("line_start", toString lineStart), ("line_end", toString lineEnd),
      ("file_path", Text.jsonQuote file), ("children", jsonArray (level + 1) (jsonItems (level + 1) cs))]
    "\x7b\n" ++ ",\n".intercalate (fields.map fun (k, v) =>
      jsonIndent (level + 1) ++ Text.jsonQuote k ++ ": " ++ v) ++ "\n" ++ jsonIndent level ++ "\x7d"

end

/-- An outline as indented JSON. -/
def outlineJson (es : List Entry) : String :=
  jsonArray 0 (jsonItems 0 es)

end TexToc.Outline
