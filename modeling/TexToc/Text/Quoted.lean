import TexToc.Text.Printable

/-!
Quoted strings in messages.

A message that names a string the user gave shows it quoted and escaped, so that blanks
and control characters stay visible. The quote is the apostrophe, unless the string holds
an apostrophe and no double quote; then it is the double quote. Inside, the backslash and
the chosen quote are escaped, tab, line feed and carriage return are written `\t`, `\n`,
`\r`, and any other character that prints nothing is written by its code point in
hexadecimal: two digits after `\x` below 256, four after `\u` below 65536, eight after `\U`
above.

A JSON string literal is written in ASCII alone: between double quotes, the double quote and
the backslash are escaped, backspace, form feed, line feed, carriage return and tab are
written `\b`, `\f`, `\n`, `\r`, `\t`, and every other character outside the printable
ASCII range by `\u` and four hexadecimal digits, a character beyond 65535 by the two
UTF-16 units that encode it.

* `quote`: the quoted form.
* `jsonQuote`: the JSON literal.
-/

namespace TexToc.Text

/-- The hexadecimal digits of `n`, in lower case, padded with zeros to `width`. -/
def hexDigits (width n : Nat) : String :=
  let ds := Nat.toDigits 16 n
  String.ofList (List.replicate (width - ds.length) '0' ++ ds)

/-- One character inside a string quoted with `q`. -/
def escapeChar (q c : Char) : String :=
  if c = '\\' then "\\\\"
  else if c = q then "\\" ++ String.singleton q
  else if c = '\t' then "\\t"
  else if c = '\n' then "\\n"
  else if c = '\r' then "\\r"
  else if isPrintable c then String.singleton c
  else if c.toNat < 0x100 then "\\x" ++ hexDigits 2 c.toNat
  else if c.toNat < 0x10000 then "\\u" ++ hexDigits 4 c.toNat
  else "\\U" ++ hexDigits 8 c.toNat

/-- A string quoted and escaped for a message. -/
def quote (s : String) : String :=
  let q := if s.contains '\x27' && !s.contains '"' then '"' else '\x27'
  let body := s.toList.foldl (fun acc c => acc ++ escapeChar q c) ""
  String.singleton q ++ body ++ String.singleton q

set_option maxRecDepth 20000 in
example : quote "x" = "'x'" ∧ quote "" = "''" ∧ quote "a'b" = "\"a'b\"" ∧
    quote "1.5" = "'1.5'" ∧ quote "\t" = "'\\t'" ∧ quote "\u00a0" = "'\\xa0'" := by
  cbv

/-- One character inside a JSON string literal written in ASCII. -/
def jsonEscapeChar (c : Char) : String :=
  let n := c.toNat
  if c = '"' then "\\\""
  else if c = '\\' then "\\\\"
  else if c = '\n' then "\\n"
  else if c = '\r' then "\\r"
  else if c = '\t' then "\\t"
  else if n = 8 then "\\b"
  else if n = 12 then "\\f"
  else if 0x20 ≤ n && n < 0x7F then String.singleton c
  else if n < 0x10000 then "\\u" ++ hexDigits 4 n
  else
    let m := n - 0x10000
    "\\u" ++ hexDigits 4 (0xD800 + m / 0x400) ++ "\\u" ++ hexDigits 4 (0xDC00 + m % 0x400)

/-- A string as a JSON string literal written in ASCII. -/
def jsonQuote (s : String) : String :=
  "\"" ++ String.join (s.toList.map jsonEscapeChar) ++ "\""

example : jsonQuote "a\"b" = "\"a\\\"b\"" ∧ jsonQuote "\u00dc" = "\"\\u00dc\"" ∧
    jsonQuote "😀" = "\"\\ud83d\\ude00\"" ∧ jsonQuote "\x7f" = "\"\\u007f\"" := by
  decide +kernel

end TexToc.Text
