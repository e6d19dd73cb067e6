import TexToc.Text.Blank
import TexToc.Text.Digit

/-!
Numerals.

Numbers in settings are written as decimal numerals, in the digits of any script, white
space around them allowed. An integer numeral is an optional sign and decimal digits, an
underscore allowed between two digits; it may have at most 4300 digits. A real numeral adds
an optional fraction after a point and an optional exponent after `e` or `E`; the words
`inf`, `infinity` and `nan`, in any case, stand for the infinite and undefined values.

A real numeral is kept exactly, as a sign, a significand and a power of ten, and written
back as a numeral that denotes the same number, so whoever reads it rounds it the same
way.

* `readInt`, `readReal?`: the two readers.
* `RealNumeral.toLiteral`: a real written as a numeral with an exponent.
-/

namespace TexToc.Text

/-- A real numeral: `±significand × 10^exponent`, an infinity, or the undefined value. -/
inductive RealNumeral where
  | finite (negative : Bool) (significand : Nat) (exponent : Int)
  | infinite (negative : Bool)
  | undefined
  deriving Repr, DecidableEq

/-- The value of a decimal digit. -/
def digitValue (c : Char) : Nat := c.toNat - '0'.toNat

/-- Digits with single underscores between them: the digits, or nothing if the text is
empty, holds another character, or has an underscore at an end or next to another. -/
def readDigits (cs : List Char) : Option (List Char) :=
  match cs with
  | [] => none
  | c :: _ =>
    if !c.isDigit then none
    else
      let groups := cs.splitOn '_'
      if groups.all fun g => !g.isEmpty && g.all Char.isDigit then some (cs.filter (· != '_'))
      else none

/-- The number that a list of decimal digits denotes. -/
def digitsValue (ds : List Char) : Nat :=
  ds.foldl (fun n c => 10 * n + digitValue c) 0

/-- A sign in front of a numeral: whether it is negative, and the rest. -/
def readSign (cs : List Char) : Bool × List Char :=
  match cs with
  | '-' :: rest => (true, rest)
  | '+' :: rest => (false, rest)
  | _ => (false, cs)

/-- The characters of a numeral: white space around it dropped and decimal digits of every
script written in ASCII. -/
def numeralChars (s : String) : List Char :=
  asciiDigits (trimList isNumeralBlank s.toList)

/-- The most digits an integer numeral may have. -/
def maxIntDigits : Nat := 4300

/-- Why a text is no integer. -/
inductive IntMisreading where
  /-- The text is no integer numeral. -/
  | malformed
  /-- The digits that start the text are more than allowed; their number. -/
  | tooManyDigits (count : Nat)
  deriving Repr, DecidableEq

/-- The integer `n` with the sign `negative`. -/
def signed (negative : Bool) (n : Nat) : Int :=
  if negative then -(n : Int) else n

/-- Read an integer numeral. The digits and underscores after the sign are read first: if
they are well placed and more than allowed, their number is the fault, even when something
else follows them. -/
def readInt (s : String) : Except IntMisreading Int :=
  let (neg, body) := readSign (numeralChars s)
  let run := body.takeWhile fun c => c.isDigit || c == '_'
  match readDigits run with
  | none => .error .malformed
  | some ds =>
    if maxIntDigits < ds.length then .error (.tooManyDigits ds.length)
    else if run.length < body.length then .error .malformed
    else .ok (signed neg (digitsValue ds))

/-- The unsigned part of a real numeral: significand digits and the power of ten. -/
def readUnsignedReal (cs : List Char) : Option (Nat × Int) :=
  let (mant, expPart) := cs.span fun c => c != 'e' && c != 'E'
  let expo : Option Int :=
    match expPart with
    | [] => some 0
    | _ :: rest =>
      let (eneg, edigits) := readSign rest
      (readDigits edigits).map fun ds =>
        let n : Int := digitsValue ds
        if eneg then -n else n
  let (whole, frac) := mant.span (· != '.')
  let parts : Option (List Char × List Char) :=
    match frac with
    | [] => (readDigits whole).map (·, [])
    | _ :: fracDigits =>
      match whole.isEmpty, fracDigits.isEmpty with
      | true, true => none
      | true, false => (readDigits fracDigits).map ([], ·)
      | false, true => (readDigits whole).map (·, [])
      | false, false => do
        let w ← readDigits whole
        let f ← readDigits fracDigits
        pure (w, f)
  match parts, expo with
  | some (w, f), some e => some (digitsValue (w ++ f), e - f.length)
  | _, _ => none

/-- A real numeral after its white space is dropped: a sign, then a word for the infinite
or undefined value or an unsigned real. -/
def readRealChars? (cs : List Char) : Option RealNumeral :=
  let (neg, body) := readSign cs
  let word := String.ofList (body.map Char.toLower)
  if word = "inf" || word = "infinity" then some (.infinite neg)
  else if word = "nan" then some .undefined
  else (readUnsignedReal body).map fun (m, e) => .finite neg m e

/-- Read a real numeral. -/
def readReal? (s : String) : Option RealNumeral :=
  readRealChars? (numeralChars s)

/-- The number of decimal digits of `n`, at least one. -/
def decimalLength (n : Nat) : Nat :=
  (Nat.toDigits 10 n).length

namespace RealNumeral

/-- A real written as a numeral that denotes it exactly, with a point or an exponent so
that it reads as a real and not as an integer. -/
def toLiteral : RealNumeral → String
  | .finite neg m e => (if neg then "-" else "") ++ toString m ++ "e" ++ toString e
  | .infinite neg => if neg then "-Infinity" else "Infinity"
  | .undefined => "NaN"

end RealNumeral

example : (readInt " 3 " matches .ok 3) ∧ (readInt "1.5" matches .error .malformed) ∧
    (readInt "" matches .error .malformed) ∧ (readInt "1_000" matches .ok 1000) ∧
    (readInt "-5" matches .ok (-5)) ∧ (readInt "\u3000١٢ " matches .ok 12) ∧
    (readInt "\x1c1" matches .error .malformed) := by
  decide +kernel

example : readReal? " 2 " = some (.finite false 2 0) ∧ readReal? "1e-3" = some (.finite false 1 (-3)) ∧
    readReal? "" = none ∧ readReal? ".5" = some (.finite false 5 (-1)) ∧
    readReal? "5." = some (.finite false 5 0) ∧ readReal? "." = none := by decide +kernel

end TexToc.Text
