/-!
Decimal digits of every script.

Unicode gives many scripts their own ten decimal digits, and each script's digits stand
as one run of ten consecutive code points, zero first. A numeral may be written in any of
them, and a test for a digit in a pattern accepts all of them.

* `digitZeros`: the code point of zero of every run.
* `decimalDigit?`: the value of a decimal digit of any script.
* `asciiDigits`: decimal digits replaced by their ASCII forms.
-/

namespace TexToc.Text

/-- The code point of the digit zero of each script that has its own decimal digits, in
increasing order; the digit `d` of a script stands `d` places after its zero. -/
def digitZeros : List Nat :=
  [0x30, 0x660, 0x6F0, 0x7C0, 0x966, 0x9E6, 0xA66, 0xAE6, 0xB66, 0xBE6, 0xC66, 0xCE6, 0xD66,
    0xDE6, 0xE50, 0xED0, 0xF20, 0x1040, 0x1090, 0x17E0, 0x1810, 0x1946, 0x19D0, 0x1A80,
    0x1A90, 0x1B50, 0x1BB0, 0x1C40, 0x1C50, 0xA620, 0xA8D0, 0xA900, 0xA9D0, 0xA9F0, 0xAA50,
    0xABF0, 0xFF10, 0x104A0, 0x10D30, 0x11066, 0x110F0, 0x11136, 0x111D0, 0x112F0, 0x11450,
    0x114D0, 0x11650, 0x116C0, 0x11730, 0x118E0, 0x11950, 0x11C50, 0x11D50, 0x11DA0,
    0x16A60, 0x16AC0, 0x16B50, 0x1D7CE, 0x1D7D8, 0x1D7E2, 0x1D7EC, 0x1D7F6, 0x1E140,
    0x1E2F0, 0x1E950, 0x1FBF0]

/-- The value of a decimal digit of any script, or nothing for another character. -/
def decimalDigit? (c : Char) : Option Nat :=
  let n := c.toNat
  (digitZeros.find? fun z => z ≤ n && n < z + 10).map fun z => n - z

/-- Whether a character is a decimal digit of some script. -/
def isDecimalDigit (c : Char) : Bool :=
  (decimalDigit? c).isSome

/-- The characters with every decimal digit replaced by the ASCII digit of its value. -/
def asciiDigits (cs : List Char) : List Char :=
  cs.map fun c =>
    match decimalDigit? c with
    | some d => Char.ofNat ('0'.toNat + d)
    | none => c

/-- An ASCII digit is a decimal digit of value its distance from `0`. -/
theorem decimalDigit?_of_isDigit (c : Char) (h : c.isDigit = true) :
    decimalDigit? c = some (c.toNat - '0'.toNat) := by
  simp only [Char.isDigit, Bool.and_eq_true, decide_eq_true_eq] at h
  have h1 : 48 ≤ c.toNat := h.1
  have h2 : c.toNat ≤ 57 := h.2
  have hz : (0x30 ≤ c.toNat && c.toNat < 0x30 + 10) = true := by simp; omega
  simp only [decimalDigit?, digitZeros, List.find?_cons, hz]
  rfl

example : decimalDigit? '٣' = some 3 ∧ decimalDigit? '３' = some 3 ∧ decimalDigit? '𝟐' = some 2 ∧
    decimalDigit? 'a' = none ∧ digitZeros.length = 66 := by
  decide +kernel

end TexToc.Text
