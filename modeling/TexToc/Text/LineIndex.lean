/-!
Line index of a text.

A point of a text is a code-point offset together with its line, counted from 1, and its
column, counted from 0. Only the line feed ends a line. The index keeps the offset at which
every line starts, so the line of an offset is the number of line starts at or before it,
found by halving.

* `LineIndex.ofChars` records the line starts.
* `LineIndex.point` gives the point of an offset.
* `linesBefore` and `lineStartBefore` say the same thing by counting, one character at a
  time; they are the reading of a point that needs no index.
-/

namespace TexToc.Text

/-- A place in a text: code-point offset, line from 1 and column from 0. -/
structure Point where
  offset : Nat
  line : Nat
  column : Nat
  deriving Repr, DecidableEq

/-- Offsets at which the lines of a text start: `0`, then one past every line feed. -/
structure LineIndex where
  starts : Array Nat
  deriving Repr

namespace LineIndex

/-- Line starts of the characters from index `i` on, after the ones already in `acc`. -/
def startsFrom (cs : Array Char) (i : Nat) (acc : Array Nat) : Array Nat :=
  if h : i < cs.size then
    startsFrom cs (i + 1) (if cs[i] = '\n' then acc.push (i + 1) else acc)
  else acc
termination_by cs.size - i

/-- The line index of a text given as its characters. -/
def ofChars (cs : Array Char) : LineIndex :=
  ⟨startsFrom cs 0 #[0]⟩

/-- The number of line starts at or before `offset` among the indices `lo` to `hi`, added
to `lo`; the starts are increasing, so one comparison halves the candidates. -/
def countUpTo (starts : Array Nat) (offset lo hi : Nat) : Nat :=
  if _hlt : lo < hi then
    let mid := (lo + hi) / 2
    if offset < starts[mid]?.getD 0 then countUpTo starts offset lo mid
    else countUpTo starts offset (mid + 1) hi
  else lo
termination_by hi - lo

/-- The line, counted from 1, on which `offset` stands. -/
def lineOf (idx : LineIndex) (offset : Nat) : Nat :=
  countUpTo idx.starts offset 0 idx.starts.size

/-- The point of an offset: its line, and its distance from the start of that line. -/
def point (idx : LineIndex) (offset : Nat) : Point :=
  let line := idx.lineOf offset
  ⟨offset, line, offset - idx.starts[line - 1]?.getD 0⟩

end LineIndex

/-- The number of line feeds among the first `offset` characters. -/
def linesBefore (cs : List Char) (offset : Nat) : Nat :=
  (cs.take offset).count '\n'

/-- The offset just past the last line feed among the first `offset` characters, or `0`
if there is none. -/
def lineStartBefore (cs : List Char) (offset : Nat) : Nat :=
  ((cs.take offset).zipIdx.filterMap fun (c, i) => if c = '\n' then some (i + 1) else none).getLastD 0

example : (LineIndex.ofChars "ab\ncd\n".toList.toArray).point 4 = ⟨4, 2, 1⟩ := by decide +kernel
example : (LineIndex.ofChars "ab\ncd\n".toList.toArray).point 6 = ⟨6, 3, 0⟩ := by decide +kernel
example : (LineIndex.ofChars "ab\ncd\n".toList.toArray).point 2 = ⟨2, 1, 2⟩ := by decide +kernel

end TexToc.Text
