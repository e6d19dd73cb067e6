import TexToc.Value
import TexToc.Binary64

/-!
Checking request values against a typed record.

A record is read field by field. Each field is checked on its own and every fault is
reported, with the path to it: the field names and list indices that lead there. The
checks are lenient in the usual ways: a truth value may be written as `0`, `1` or as a word
such as `yes` or `off`; an integer may be written as a string of digits (a point and zeros
after them allowed) or as a real with no fraction; a real may be written as a string or as
an integer. Numbers are tested as doubles: a real is whole when its double is, and an
integer read from a real must lie strictly between `-2^63` and `2^63`; a truth value is
read from an integer only in that range.

Numerals in strings are ASCII, white space around them allowed. Underscores may stand
anywhere but at an end of the string or two together, and are dropped; an integer numeral
may carry leading zeros and has at most 4300 digits.

* `Fault`, `Issue`: what is wrong, and where.
* `Checked`: a result or its issues; `Checked.zip` runs two checks and keeps the issues of
  both.
* `checkString`, `checkStrings`, `checkBool`, `checkCount`, `checkReal`: the field checks.
-/

namespace TexToc

open Text

/-- What is wrong with one value. -/
inductive Fault where
  /-- A required field is absent. -/
  | missing
  /-- A list was expected. -/
  | listType
  /-- A string was expected. -/
  | stringType
  /-- A truth value was expected. -/
  | boolType
  /-- A truth value was expected, and this number or word is none. -/
  | boolParsing
  /-- An integer was expected. -/
  | intType
  /-- An integer was expected, and this string is no integer numeral. -/
  | intParsing
  /-- An integer was expected, and this number has a fraction. -/
  | intFromFloat
  /-- An integer was expected, and this number or numeral is too large. -/
  | intParsingSize
  /-- A finite number was expected. -/
  | finiteNumber
  /-- A real number was expected. -/
  | floatType
  /-- A real number was expected, and this string is no real numeral. -/
  | floatParsing
  /-- The number is below its least allowed value. -/
  | greaterThanEqual
  /-- The value is none of the allowed choices. -/
  | enum
  /-- The record as a whole breaks one of its rules. -/
  | valueError
  /-- An object with named fields was expected. -/
  | modelType
  deriving Repr, DecidableEq

/-- The name by which a fault is reported. -/
def Fault.code : Fault → String
  | .missing => "missing"
  | .listType => "list_type"
  | .stringType => "string_type"
  | .boolType => "bool_type"
  | .boolParsing => "bool_parsing"
  | .intType => "int_type"
  | .intParsing => "int_parsing"
  | .intFromFloat => "int_from_float"
  | .intParsingSize => "int_parsing_size"
  | .finiteNumber => "finite_number"
  | .floatType => "float_type"
  | .floatParsing => "float_parsing"
  | .greaterThanEqual => "greater_than_equal"
  | .enum => "enum"
  | .valueError => "value_error"
  | .modelType => "model_type"

/-- A fault and the path to the value that has it. -/
structure Issue where
  loc : List String
  fault : Fault
  deriving Repr, DecidableEq

/-- The result of a check: the value read, or every issue found. -/
abbrev Checked (α : Type) := Except (List Issue) α

namespace Checked

/-- A check that fails with one fault at the value itself. -/
def fail {α : Type} (f : Fault) : Checked α := .error [⟨[], f⟩]

/-- The issues of a check, moved under the path step `step`. -/
def under {α : Type} (step : String) (c : Checked α) : Checked α :=
  match c with
  | .ok a => .ok a
  | .error issues => .error (issues.map fun i => { i with loc := step :: i.loc })

/-- Both results, or the issues of the first followed by those of the second. -/
def zip {α β : Type} (a : Checked α) (b : Checked β) : Checked (α × β) :=
  match a, b with
  | .ok x, .ok y => .ok (x, y)
  | .error e, .ok _ => .error e
  | .ok _, .error e => .error e
  | .error e1, .error e2 => .error (e1 ++ e2)

/-- Every item checked, the issues of each under its index. -/
def all {α β : Type} (check : α → Checked β) (items : List α) : Checked (List β) :=
  go 0 items
where
  go (i : Nat) : List α → Checked (List β)
    | [] => .ok []
    | x :: rest =>
      match zip (under (toString i) (check x)) (go (i + 1) rest) with
      | .ok (y, ys) => .ok (y :: ys)
      | .error e => .error e

end Checked

/-- The least integer above every integer of a signed 64-bit word. -/
def wordBound : Int := Int.pow 2 63

/-- The integer that a double stands for: it must be finite, whole, and strictly between
`-2^63` and `2^63`. -/
def wordOfDouble (d : Binary64) : Checked Int :=
  match d with
  | .finite .. =>
    match d.wholeValue? with
    | none => Checked.fail .intFromFloat
    | some n => if -wordBound < n && n < wordBound then .ok n else Checked.fail .intParsingSize
  | _ => Checked.fail .finiteNumber

/-- Words that read as true, matched without regard to case. -/
def trueWords : List String := ["1", "on", "t", "true", "y", "yes"]

/-- Words that read as false, matched without regard to case. -/
def falseWords : List String := ["0", "off", "f", "false", "n", "no"]

/-- A string. -/
def checkString : Value → Checked String
  | .str s => .ok s
  | _ => Checked.fail .stringType

/-- A list of strings. -/
def checkStrings : Value → Checked (List String)
  | .arr items => Checked.all checkString items
  | _ => Checked.fail .listType

/-- The truth value of a number: `0` or `1`. -/
def boolOfInt (n : Int) : Checked Bool :=
  if n = 0 then .ok false else if n = 1 then .ok true else Checked.fail .boolParsing

/-- A truth value: `true` or `false`, the numbers `0` and `1`, or one of the words. Any other
number is no truth value: an integer within a signed word, and a real that stands for one,
is misread; others are of the wrong type. -/
def checkBool : Value → Checked Bool
  | .bool b => .ok b
  | .int n => if -wordBound ≤ n && n < wordBound then boolOfInt n else Checked.fail .boolType
  | .real x =>
    match wordOfDouble x.toBinary64 with
    | .ok n => boolOfInt n
    | .error _ => Checked.fail .boolType
  | .str s =>
    let w := String.ofList (s.toList.map Char.toLower)
    if trueWords.contains w then .ok true
    else if falseWords.contains w then .ok false
    else Checked.fail .boolParsing
  | _ => Checked.fail .boolType

/-- The characters of a numeral in a record: white space around it dropped. -/
def recordChars (s : String) : List Char :=
  trimList isNumeralBlank s.toList

/-- Whether two underscores stand together. -/
def hasDoubleUnderscore (cs : List Char) : Bool :=
  (cs.zip cs.tail).any fun (a, b) => a = '_' && b = '_'

/-- The characters without their underscores, or nothing when one stands at an end or two
stand together. -/
def dropUnderscores (cs : List Char) : Option (List Char) :=
  if cs.head? = some '_' || cs.getLast? = some '_' || hasDoubleUnderscore cs then none
  else some (cs.filter (· != '_'))

/-- The most digits of an integer numeral in a record. -/
def maxRecordIntDigits : Nat := 4300

/-- An integer numeral in plain form: an optional minus sign, then `0` or digits that do not
start with `0`, at most 4300 of them. -/
def readPlainInt? (cs : List Char) : Option Int :=
  let (neg, digits) : Bool × List Char :=
    match cs with
    | '-' :: rest => (true, rest)
    | _ => (false, cs)
  match digits with
  | [] => none
  | d :: more =>
    if digits.all Char.isDigit && (d != '0' || more.isEmpty) &&
        digits.length ≤ maxRecordIntDigits then
      some (signed neg (digitsValue digits))
    else none

/-- Whether a text starts with a plain numeral of more digits than allowed: perhaps a minus
sign, then a digit other than `0` that starts a run of more than 4300 digits. -/
def startsTooLong (cs : List Char) : Bool :=
  let digits : List Char :=
    match cs with
    | '-' :: rest => rest
    | _ => cs
  match digits with
  | d :: _ => d.isDigit && d != '0' && maxRecordIntDigits < (digits.takeWhile Char.isDigit).length
  | [] => false

/-- Leading zeros dropped, with the underscores among them. The rest starts at the first
digit other than `0` or at the first minus sign; before any other character the last zero or
underscore is kept, and a text of zeros and underscores alone leaves `0`. A text that starts
with neither a digit nor a minus sign is refused. -/
def dropLeadingZeros (cs : List Char) : Option (List Char) :=
  match cs with
  | '0' :: rest => some (afterZeros '0' rest)
  | c :: _ => if c.isDigit || c = '-' then some cs else none
  | [] => none
where
  /-- The rest after the zeros and underscores that follow `prev`. -/
  afterZeros (prev : Char) : List Char → List Char
    | [] => ['0']
    | c :: rest =>
      if c = '0' || c = '_' then afterZeros c rest
      else if c.isDigit || c = '-' then c :: rest
      else prev :: c :: rest

/-- A point followed by nothing but zeros, at least one, dropped: the text before its first
point when all after that point are zeros. -/
def dropDecimalZeros (cs : List Char) : List Char :=
  match cs.span (· != '.') with
  | (head, _ :: zeros) => if !zeros.isEmpty && zeros.all (· = '0') then head else cs
  | (_, []) => cs

/-- An integer written as a string in a record.

A text that starts with a plain numeral of more than 4300 digits is too large. Otherwise the
white space around it is dropped, then a sign, then the leading zeros with the underscores
among them, then a point followed by zeros, then the other underscores, which may stand
neither at an end nor two together; what is left must be an integer numeral in plain form. -/
def readRecordInt (s : String) : Checked Int :=
  if startsTooLong s.toList then Checked.fail .intParsingSize
  else
    let (neg, body) := readSign (recordChars s)
    let plain := (dropLeadingZeros body).bind fun b =>
      (dropUnderscores (dropDecimalZeros b)).bind readPlainInt?
    match plain with
    | some n => .ok (if neg then -n else n)
    | none => Checked.fail .intParsing

/-- A real written as a string in a record: a real numeral of ASCII digits with white space
around it, or else the string with its underscores dropped (none at an end, no two together)
read as a real numeral without white space. -/
def readRecordReal? (s : String) : Option RealNumeral :=
  let cs := recordChars s
  if !cs.contains '_' then readRealChars? cs
  else (dropUnderscores s.toList).bind readRealChars?

/-- An integer that is at least zero: an integer, a real that stands for one, a truth value,
or a string holding an integer numeral. -/
def checkCount (v : Value) : Checked Nat :=
  let n : Checked Int :=
    match v with
    | .bool b => .ok (if b then 1 else 0)
    | .int n => .ok n
    | .real x => wordOfDouble x.toBinary64
    | .str s => readRecordInt s
    | _ => Checked.fail .intType
  match n with
  | .ok k => if 0 ≤ k then .ok k.toNat else Checked.fail .greaterThanEqual
  | .error e => .error e

/-- A real number that is at least zero once read as a double: a real, an integer that some
double holds, a truth value, or a string holding a real numeral. -/
def checkReal (v : Value) : Checked RealNumeral :=
  let r : Checked RealNumeral :=
    match v with
    | .bool b => .ok (.finite false (if b then 1 else 0) 0)
    | .int n =>
      if (Binary64.ofInt? n).isSome then .ok (.finite (n < 0) n.natAbs 0)
      else Checked.fail .floatType
    | .real x => .ok x
    | .str s =>
      match readRecordReal? s with
      | some x => .ok x
      | none => Checked.fail .floatParsing
    | _ => Checked.fail .floatType
  match r with
  | .ok x => if x.atLeastZero then .ok x else Checked.fail .greaterThanEqual
  | .error e => .error e

/-- A field of an object checked by `check`, or `default` when the field is absent; the
issues stand under the field's name. -/
def checkField {α : Type} (v : Value) (name : String) (default : α) (check : Value → Checked α) :
    Checked α :=
  match v.field? name with
  | none => .ok default
  | some x => Checked.under name (check x)

/-- A required field of an object checked by `check`. -/
def checkRequired {α : Type} (v : Value) (name : String) (check : Value → Checked α) :
    Checked α :=
  match v.field? name with
  | none => .error [⟨[name], .missing⟩]
  | some x => Checked.under name (check x)

example : (readRecordInt " 2 ").toOption = some 2 ∧ (readRecordInt "2.00").toOption = some 2 ∧
    (readRecordInt "-3").toOption = some (-3) ∧ (readRecordInt "1_0").toOption = some 10 ∧
    (readRecordInt "1_0.0").toOption = some 10 ∧ (readRecordInt "2.5").toOption = none ∧
    (readRecordInt "0.").toOption = none ∧ (readRecordInt "_1").toOption = none ∧
    (readRecordInt "\x1c1").toOption = none ∧ (readRecordInt "1__0").toOption = none ∧
    (readRecordInt "+_1").toOption = none ∧ (readRecordInt "0007").toOption = some 7 ∧
    (readRecordInt "0_-1").toOption = some (-1) ∧ (readRecordInt "1.0_0").toOption = none := by
  decide +kernel

example : readRecordReal? "+_1" = some (.finite false 1 0) ∧ readRecordReal? "1.0_" = none ∧
    readRecordReal? "5_.5" = some (.finite false 55 (-1)) ∧ readRecordReal? "1__0" = none ∧
    readRecordReal? "n_an" = some .undefined ∧ readRecordReal? "\x1c0.5" = none := by
  decide +kernel

end TexToc
