import TexToc.Text.Numeral

/-!
Double-precision numbers.

A number in settings and outline entries is held as the double nearest to it: a
significand below `2^53` times a power of two no smaller than `2^-1074`, a tie going to the
even significand. A number too large for any double, at least `2^1024 - 2^970`, is infinite.
The checks on numbers are checks on that double: whether it is at least zero (a negative
number that rounds to zero is a negative zero, which is at least zero), whether it is whole,
and whether it lies strictly between `-2^63` and `2^63`.

* `Binary64.nearest`: the double nearest to a positive fraction.
* `Binary64.ofDecimal`, `Binary64.ofInt?`: the doubles of numerals and integers.
* `Binary64.atLeastZero`, `Binary64.wholeValue?`: the tests.
-/

namespace TexToc

open Text

/-- A double: `±significand × 2^exponent`, an infinity, or the undefined value. A zero has
the significand zero and keeps its sign. -/
inductive Binary64 where
  | finite (negative : Bool) (significand : Nat) (exponent : Int)
  | infinite (negative : Bool)
  | undefined
  deriving Repr, DecidableEq

namespace Binary64

/-- The integer nearest to `num / den`, a tie going to the even one. -/
def roundHalfEven (num den : Nat) : Nat :=
  let q := num / den
  let r := num % den
  if den < 2 * r || (2 * r = den && q % 2 = 1) then q + 1 else q

/-- The least exponent of a double. -/
def minExponent : Int := -1074

/-- The greatest exponent of a double whose significand has 53 bits. -/
def maxExponent : Int := 971

/-- The fraction `num / den` divided by `2^e`, as a numerator and a denominator. -/
def scaled (num den : Nat) (e : Int) : Nat × Nat :=
  if 0 ≤ e then (num, den * Nat.pow 2 e.toNat) else (num * Nat.pow 2 (-e).toNat, den)

/-- The double nearest to the fraction `num / den` of a positive numerator and denominator,
as a significand and an exponent, or nothing when it is infinite.

The exponent is the one that puts the quotient between `2^52` and `2^53`, or the least
exponent for numbers below `2^-1022`. The logarithms of numerator and denominator give it
up to one: the quotient at the estimate lies between `2^51` and `2^53`. A significand that
rounds up to `2^53` is halved. -/
def nearest (num den : Nat) : Option (Nat × Int) :=
  let e0 : Int := (num.log2 : Int) - (den.log2 : Int) - 52
  let e1 := if (scaled num den e0).1 / (scaled num den e0).2 < Nat.pow 2 52 then e0 - 1 else e0
  let e := max e1 minExponent
  let q := roundHalfEven (scaled num den e).1 (scaled num den e).2
  let (m, e) := if q = Nat.pow 2 53 then (Nat.pow 2 52, e + 1) else (q, e)
  if maxExponent < e then none else some (m, e)

/-- The double nearest to `±m × 10^k`. Numbers of more than 309 digits before the point are
infinite, and numbers below `10^-324` are zeros, whose double is found without computing the
power of ten. -/
def ofDecimal (negative : Bool) (m : Nat) (k : Int) : Binary64 :=
  if m = 0 then .finite negative 0 0
  else
    let len : Int := decimalLength m
    if 309 < len - 1 + k then .infinite negative
    else if len + k < -324 then .finite negative 0 0
    else
      let (num, den) := if 0 ≤ k then (m * Nat.pow 10 k.toNat, 1) else (m, Nat.pow 10 (-k).toNat)
      match nearest num den with
      | some (s, e) => .finite negative s e
      | none => .infinite negative

/-- The double nearest to an integer, or nothing when the integer is too large for any
double. -/
def ofInt? (n : Int) : Option Binary64 :=
  if n = 0 then some (.finite false 0 0)
  else (nearest n.natAbs 1).map fun (s, e) => .finite (n < 0) s e

/-- Whether a double is at least zero: a positive number or a zero of either sign, or the
positive infinity. The undefined value is not ordered, so it is not at least zero. -/
def atLeastZero : Binary64 → Bool
  | .finite negative m _ => !negative || m = 0
  | .infinite negative => !negative
  | .undefined => false

/-- The integer a finite double equals, or nothing when it has a fraction or is no finite
number. -/
def wholeValue? : Binary64 → Option Int
  | .finite negative m e =>
    if 0 ≤ e then some (signed negative (m * Nat.pow 2 e.toNat))
    else if m % Nat.pow 2 (-e).toNat = 0 then some (signed negative (m / Nat.pow 2 (-e).toNat))
    else none
  | _ => none

end Binary64

/-- The double that a real numeral denotes. -/
def Text.RealNumeral.toBinary64 : RealNumeral → Binary64
  | .finite negative m e => Binary64.ofDecimal negative m e
  | .infinite negative => .infinite negative
  | .undefined => .undefined

/-- Whether a real numeral is at least zero once read as a double. -/
def Text.RealNumeral.atLeastZero (x : RealNumeral) : Bool :=
  x.toBinary64.atLeastZero

example : Binary64.ofDecimal false 1 0 = .finite false (Nat.pow 2 52) (-52) ∧
    Binary64.ofDecimal false 5 (-1) = .finite false (Nat.pow 2 52) (-53) ∧
    Binary64.ofDecimal false 1 400 = .infinite false ∧
    Binary64.ofDecimal true 1 (-400) = .finite true 0 0 ∧
    (Binary64.ofDecimal false 45000000000000005 (-1)).wholeValue? = none ∧
    (Binary64.ofDecimal false 9007199254740993 0).wholeValue? = some 9007199254740992 := by
  decide +kernel

end TexToc
