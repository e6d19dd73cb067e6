import TexToc.Check

/-!
Outline entries.

An entry of an outline records what produced it (a sectioning command, starred or not, an
environment, a command, or an included file), the name of that command or environment,
the label shown, where it starts in its file (code-point offset and first and last line,
counted from 0), the file, and the entries nested under it.

* `Kind`, `Entry`: the entries.
* `Entry.preorder`: the entries of a forest, each before the ones nested under it.
* `Entry.ofValue`: an entry read from a request, every field checked.
-/

namespace TexToc.Outline

/-- What produced an entry. -/
inductive Kind where
  /-- A sectioning command. -/
  | section
  /-- A starred sectioning command, which takes no number. -/
  | sectionStarred
  /-- An environment. -/
  | environment
  /-- A command listed in the settings. -/
  | command
  /-- An included file. -/
  | included
  deriving Repr, DecidableEq

namespace Kind

/-- The name by which a kind is written. -/
def code : Kind → String
  | .section => "Section"
  | .sectionStarred => "SectionStarred"
  | .environment => "Environment"
  | .command => "Command"
  | .included => "SubFile"

/-- Every kind, in the order they are declared. -/
def all : List Kind := [.section, .sectionStarred, .environment, .command, .included]

/-- The kind written with a name, if any. -/
def ofCode? (s : String) : Option Kind :=
  all.find? (·.code == s)

end Kind

/-- An entry of an outline, with the entries nested under it. -/
structure Entry where
  kind : Kind
  name : String
  label : String
  offset : Nat
  lineStart : Nat
  lineEnd : Nat
  file : String
  children : List Entry
  deriving Repr

namespace Entry

/-- Whether an entry comes from a sectioning command. -/
def isSection (e : Entry) : Bool :=
  e.kind == .section || e.kind == .sectionStarred

/-- The entry with other nested entries. -/
def withChildren (e : Entry) (children : List Entry) : Entry :=
  { e with children }

mutual

/-- Entries are equal when all their fields are, nested entries included. -/
def beq : Entry → Entry → Bool
  | ⟨k, n, l, o, s, t, f, cs⟩, ⟨k', n', l', o', s', t', f', cs'⟩ =>
    k == k' && n == n' && l == l' && o == o' && s == s' && t == t' && f == f' && beqList cs cs'

/-- Forests are equal when their entries are, in order. -/
def beqList : List Entry → List Entry → Bool
  | [], [] => true
  | a :: as, b :: bs => beq a b && beqList as bs
  | _, _ => false

end

instance : BEq Entry := ⟨beq⟩

mutual

/-- The entries of a forest, each before the entries nested under it. -/
def preorder : List Entry → List Entry
  | [] => []
  | e :: rest => preorderOf e ++ preorder rest

/-- An entry followed by the entries nested under it. -/
def preorderOf : Entry → List Entry
  | e@⟨_, _, _, _, _, _, _, cs⟩ => e :: preorder cs

end

/-- The number of entries of a given kind in a forest, nested ones included. -/
def count (es : List Entry) (kind : Kind) : Nat :=
  (preorder es).countP (·.kind == kind)

/-- A kind, written by its name. -/
def checkKind : Value → Checked Kind
  | .str s =>
    match Kind.ofCode? s with
    | some k => .ok k
    | none => Checked.fail .enum
  | _ => Checked.fail .enum

mutual

/-- An entry read from a request: kind, name, label and file are required, offset and lines
default to `0` and must not be below it, nested entries default to none; the first line
must not come after the last. -/
def ofValue : Value → Checked Entry
  | .obj fields =>
    let v := Value.obj fields
    let head := Checked.zip (checkRequired v "kind" checkKind)
      (Checked.zip (checkRequired v "name" checkString) (checkRequired v "label" checkString))
    let place := Checked.zip (checkField v "offset" 0 checkCount)
      (Checked.zip (checkField v "line_start" 0 checkCount) (checkField v "line_end" 0 checkCount))
    let tail := Checked.zip (checkRequired v "file_path" checkString) (childrenOf fields)
    match Checked.zip head (Checked.zip place tail) with
    | .error e => .error e
    | .ok ((kind, name, label), (offset, lineStart, lineEnd), (file, children)) =>
      if lineEnd < lineStart then Checked.fail .valueError
      else .ok { kind, name, label, offset, lineStart, lineEnd, file, children }
  | _ => Checked.fail .modelType

/-- The nested entries named by the `children` field among `fields`, none if absent. -/
def childrenOf : List (String × Value) → Checked (List Entry)
  | [] => .ok []
  | (k, x) :: rest =>
    if k = "children" then Checked.under "children" (listOf x) else childrenOf rest

/-- A list of entries. -/
def listOf : Value → Checked (List Entry)
  | .arr items => itemsFrom 0 items
  | _ => Checked.fail .listType

/-- Entries read from the items of a list, the issues of each under its index. -/
def itemsFrom (i : Nat) : List Value → Checked (List Entry)
  | [] => .ok []
  | x :: rest =>
    match Checked.zip (Checked.under (toString i) (ofValue x)) (itemsFrom (i + 1) rest) with
    | .ok (e, es) => .ok (e :: es)
    | .error e => .error e

end

end Entry

end TexToc.Outline
