/-!
Blank characters.

A character is blank when Unicode classes it as white space or as a separator of
paragraphs, lines, records or units. Trimming a name, testing for a `\verb` delimiter
and the blank gap inside an environment's end marker all use this one class.

Around a numeral a narrower class is dropped: the information separators are no white
space there.

* `isBlank` decides the class by code point.
* `trimBlank` drops blank characters at both ends of a string.
* `isNumeralBlank`: the white space allowed around a numeral.
-/

namespace TexToc.Text

/-- A character is blank when it is one of the twenty-nine white-space or separator code
points: the controls from tab to carriage return, the four information separators, the
space, the next-line control, and the Unicode spaces. -/
def isBlank (c : Char) : Bool :=
  let n := c.toNat
  (9 ≤ n && n ≤ 13) || (28 ≤ n && n ≤ 32) || n == 0x85 || n == 0xA0 || n == 0x1680 ||
    (0x2000 ≤ n && n ≤ 0x200A) || n == 0x2028 || n == 0x2029 || n == 0x202F ||
    n == 0x205F || n == 0x3000

/-- Drop the characters that satisfy `p` at both ends of a list of characters. -/
def trimList (p : Char → Bool) (cs : List Char) : List Char :=
  ((cs.dropWhile p).reverse.dropWhile p).reverse

/-- Drop blank characters at both ends of a list of characters. -/
def trimBlankList (cs : List Char) : List Char :=
  trimList isBlank cs

/-- Drop blank characters at both ends of a string. -/
def trimBlank (s : String) : String :=
  String.ofList (trimBlankList s.toList)

/-- White space around a numeral: the blank characters other than the four information
separators. -/
def isNumeralBlank (c : Char) : Bool :=
  isBlank c && !(28 ≤ c.toNat && c.toNat ≤ 31)

/-- Every ASCII white-space character is blank. -/
theorem isBlank_of_isWhitespace (c : Char) (h : c.isWhitespace = true) : isBlank c = true := by
  simp only [Char.isWhitespace, Bool.or_eq_true, decide_eq_true_eq] at h
  rcases h with ((h | h) | h) | h <;> simp [isBlank, h]

example : trimBlank "  name \t" = "name" := by decide +kernel

end TexToc.Text
