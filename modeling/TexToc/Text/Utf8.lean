/-!
Decoding UTF-8 with replacement.

Bytes are read as UTF-8. A byte that cannot start a character, or a character cut short,
gives one replacement character `U+FFFD` for the longest start of a well-formed sequence
that stands there, and decoding goes on at the first byte that does not fit. Overlong
forms, surrogates and code points above `U+10FFFF` are not well formed: their second byte
is out of range.

Text files are also read with universal line ends: a carriage return followed by a line
feed, and a carriage return alone, each become one line feed.

* `decodeUtf8`: the characters of a byte sequence.
* `universalNewlines`: line ends made uniform.
-/

namespace TexToc.Text

/-- The replacement character. -/
def replacement : Char := '�'

/-- Whether a byte continues a character: `10xxxxxx`. -/
def isContinuation (b : UInt8) : Bool :=
  0x80 ≤ b && b ≤ 0xBF

/-- The range allowed for the second byte after a lead byte, and how many continuation
bytes follow the lead; nothing for a byte that cannot lead. -/
def leadShape (b : UInt8) : Option (UInt8 × UInt8 × Nat) :=
  if 0xC2 ≤ b && b ≤ 0xDF then some (0x80, 0xBF, 1)
  else if b = 0xE0 then some (0xA0, 0xBF, 2)
  else if 0xE1 ≤ b && b ≤ 0xEC then some (0x80, 0xBF, 2)
  else if b = 0xED then some (0x80, 0x9F, 2)
  else if 0xEE ≤ b && b ≤ 0xEF then some (0x80, 0xBF, 2)
  else if b = 0xF0 then some (0x90, 0xBF, 3)
  else if 0xF1 ≤ b && b ≤ 0xF3 then some (0x80, 0xBF, 3)
  else if b = 0xF4 then some (0x80, 0x8F, 3)
  else none

/-- The bits a lead byte contributes to its code point. -/
def leadBits (b : UInt8) (more : Nat) : Nat :=
  if more = 1 then b.toNat % 0x20 else if more = 2 then b.toNat % 0x10 else b.toNat % 0x08

/-- Continuation bytes of a character: `acc` holds the code point so far and `more` the
bytes still due. Gives the code point and the rest, or the rest at the first byte that does
not fit. -/
def takeContinuations (acc : Nat) : Nat → List UInt8 → Option Nat × List UInt8
  | 0, bs => (some acc, bs)
  | more + 1, b :: bs =>
    if isContinuation b then takeContinuations (acc * 64 + b.toNat % 64) more bs
    else (none, b :: bs)
  | _ + 1, [] => (none, [])

/-- Taking continuation bytes never lengthens what is left. -/
theorem takeContinuations_length {acc more : Nat} {bs rest : List UInt8} {r : Option Nat}
    (h : takeContinuations acc more bs = (r, rest)) : rest.length ≤ bs.length := by
  induction bs generalizing acc more with
  | nil => cases more <;> simp [takeContinuations] at h <;> simp [← h.2]
  | cons b bs ih =>
    cases more with
    | zero => simp [takeContinuations] at h; simp [← h.2]
    | succ m =>
      simp only [takeContinuations] at h
      split at h
      · have := ih h; simp; omega
      · simp at h; simp [← h.2]

/-- Decode the bytes, appending to `acc`. -/
def decodeFrom (acc : Array Char) : List UInt8 → Array Char
  | [] => acc
  | b :: bs =>
    if b < 0x80 then decodeFrom (acc.push (Char.ofNat b.toNat)) bs
    else
      match leadShape b with
      | none => decodeFrom (acc.push replacement) bs
      | some (lo, hi, more) =>
        match bs with
        | b2 :: bs2 =>
          if lo ≤ b2 && b2 ≤ hi then
            match h : takeContinuations (leadBits b more * 64 + b2.toNat % 64) (more - 1) bs2 with
            | (some cp, rest) =>
              have : rest.length ≤ bs2.length := takeContinuations_length h
              decodeFrom (acc.push (Char.ofNat cp)) rest
            | (none, rest) =>
              have : rest.length ≤ bs2.length := takeContinuations_length h
              decodeFrom (acc.push replacement) rest
          else decodeFrom (acc.push replacement) (b2 :: bs2)
        | [] => acc.push replacement
termination_by bs => bs.length

/-- The characters that a byte sequence encodes in UTF-8, with replacement characters for
what is not well formed. -/
def decodeUtf8 (bs : List UInt8) : String :=
  String.ofList (decodeFrom #[] bs).toList

/-- Line ends made uniform: a carriage return, with the line feed after it if any, becomes
one line feed. -/
def universalNewlines : List Char → List Char
  | [] => []
  | '\r' :: '\n' :: rest => '\n' :: universalNewlines rest
  | '\r' :: rest => '\n' :: universalNewlines rest
  | c :: rest => c :: universalNewlines rest

example : decodeUtf8 [0xAA, 0xFF, 0x00] = "��\u0000" := by cbv
example : decodeUtf8 [0xC3, 0xA9, 0xE0, 0x80, 0x41] = "é��A" := by cbv
example : decodeUtf8 [0xF0, 0x9F, 0x98, 0x80, 0xF0, 0x9F, 0x98] = "😀�" := by
  cbv

end TexToc.Text
