import Narrative.Decimal.Binary

/-!
# Numerals

A `Numeral` is a written number taken apart into sign, whole digits, fraction and exponent.  A
`Decimal` is what its digits stand for: a natural number times a power of ten.  The binary value of
a decimal is the nearest binary64 magnitude, computed in exact arithmetic.
-/

namespace Narrative

/-- The number `digits * 10 ^ exponent`. -/
structure Decimal where
  /-- The digits read as one natural number. -/
  digits : Nat
  /-- The power of ten. -/
  exponent : Int
deriving DecidableEq, Repr

namespace Decimal

/-- Powers of ten beyond this one are past every binary64 magnitude. -/
def reach : Nat := 400

/-- The pattern of the magnitude nearest to a decimal.  The two outer cases only spare the exact
arithmetic: a power of ten beyond `reach` is past the largest or below half the smallest
magnitude. -/
def magnitude (decimal : Decimal) : Nat :=
  if decimal.digits = 0 then 0
  else match decimal.exponent with
    | .ofNat power =>
      if reach < power then infinity else nearest (decimal.digits * 10 ^ power) 1
    | .negSucc power =>
      if decimal.digits.log2 + reach < power then 0
      else nearest decimal.digits (10 ^ (power + 1))

end Decimal

/-- A written number, taken apart. -/
structure Numeral where
  /-- The sign character, if one is written. -/
  sign : Option Char
  /-- The digits before the point. -/
  whole : List Char
  /-- The digits after the point, if a point is written. -/
  fraction : Option (List Char)
  /-- The sign and the digits of the exponent, if one is written. -/
  exponent : Option (Option Char × List Char)
deriving DecidableEq, Repr

namespace Numeral

/-- Split off a leading sign. -/
def takeSign : List Char → Option Char × List Char
  | '+' :: rest => (some '+', rest)
  | '-' :: rest => (some '-', rest)
  | rest => (none, rest)

/-- Split off the leading decimal digits. -/
def takeDigits (text : List Char) : List Char × List Char :=
  (text.takeWhile Char.isDigit, text.dropWhile Char.isDigit)

/-- Split off a point and the digits behind it. -/
def takeFraction : List Char → Option (List Char) × List Char
  | '.' :: rest => let (digits, rest) := takeDigits rest; (some digits, rest)
  | rest => (none, rest)

/-- Split off an exponent. -/
def takeExponent : List Char → Option (Option Char × List Char) × List Char
  | [] => (none, [])
  | c :: rest =>
    if c = 'e' ∨ c = 'E' then
      let (sign, rest) := takeSign rest
      let (digits, rest) := takeDigits rest
      (some (sign, digits), rest)
    else (none, c :: rest)

/-- Take a text apart; every part may be missing or empty, but nothing may be left over. -/
def ofChars? (text : List Char) : Option Numeral :=
  let (sign, text) := takeSign text
  let (whole, text) := takeDigits text
  let (fraction, text) := takeFraction text
  let (exponent, text) := takeExponent text
  if text.isEmpty then some ⟨sign, whole, fraction, exponent⟩ else none

/-- The exponent that is written, read as an integer; none stands for zero. -/
def writtenExponent (numeral : Numeral) : Int :=
  match numeral.exponent with
  | none => 0
  | some (sign, digits) =>
    let size : Int := Nat.ofDigitChars 10 digits 0
    if sign = some '-' then -size else size

/-- The number that the digits stand for, without the sign. -/
def decimal (numeral : Numeral) : Decimal :=
  let fraction := numeral.fraction.getD []
  { digits := Nat.ofDigitChars 10 (numeral.whole ++ fraction) 0
    exponent := numeral.writtenExponent - fraction.length }

/-- Whether a minus sign is written. -/
def isNegative (numeral : Numeral) : Bool := numeral.sign = some '-'

/-- The binary number nearest to the numeral. -/
def toFloat (numeral : Numeral) : Float :=
  Decimal.signed numeral.isNegative numeral.decimal.magnitude

/-- The whole digits as an integer. -/
def toInt (numeral : Numeral) : Int :=
  let size : Int := Nat.ofDigitChars 10 numeral.whole 0
  if numeral.isNegative then -size else size

/-- Whether an exponent, if one is written, has digits. -/
def exponentComplete (numeral : Numeral) : Bool :=
  match numeral.exponent with
  | some (_, digits) => !digits.isEmpty
  | none => true

/-- Whether a numeral is written in the plainest way: no plus sign, no needless leading zero, and
digits around every point and behind every exponent mark. -/
def isPlain (numeral : Numeral) : Bool :=
  numeral.sign != some '+' &&
    (match numeral.whole with
      | [] => false
      | ['0'] => true
      | first :: _ => first != '0') &&
    numeral.fraction != some [] && numeral.exponentComplete

/-- Whether a numeral has neither a point nor an exponent. -/
def isInteger (numeral : Numeral) : Bool := numeral.fraction.isNone && numeral.exponent.isNone

/-! ## Long numerals -/

/-- How many digits an integer may be written with. -/
def digitLimit : Nat := 4300

/-- The whole digits at the beginning of a text, behind a minus sign, and what follows them. -/
def leadingDigits : List Char → List Char × List Char
  | '-' :: rest => takeDigits rest
  | text => takeDigits text

/-- Whether a text begins with more digits than an integer may have. -/
def beginsOverlong (text : List Char) : Bool :=
  let (digits, _) := leadingDigits text
  digits.head? != some '0' && digitLimit < digits.length

/-- Whether a text goes on with a fraction or an exponent. -/
def continues : List Char → Bool
  | [] => false
  | '.' :: rest => rest.head?.any Char.isDigit
  | c :: rest => (c = 'e' || c = 'E') && (takeSign rest).2.head?.any Char.isDigit

/-- Whether a text begins with an integer that has more digits than it may have. -/
def beginsOverlongInteger (text : List Char) : Bool :=
  beginsOverlong text && !continues (leadingDigits text).2

end Numeral

end Narrative
