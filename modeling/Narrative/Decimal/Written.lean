import Narrative.Decimal.Numeral

/-!
# Written numbers

`Style.write` writes a finite binary number with the fewest digits that read back to it; of two
such texts the one nearer to the number is taken, and of two equally near the one with the even last
digit.  A `Style` value fixes where positional writing ends and how wide an exponent is.

A candidate is accepted only by reading its text, and the last candidate is the exact expansion of
the number, so the text always reads back.
-/

namespace Narrative.Decimal

/-! ## Candidates -/

/-- The two decimals with `precision` digits that enclose the number, the nearer one first.
`leading` is the power of ten of the first digit. -/
def neighbours (bits : Nat) (leading : Int) (precision : Nat) : List Decimal :=
  let exponent := leading - precision + 1
  let (numerator, denominator) := match exponent with
    | .ofNat power => (units bits, unitsPerOne * 10 ^ power)
    | .negSucc power => (units bits * 10 ^ (power + 1), unitsPerOne)
  let below : Decimal := ⟨numerator / denominator, exponent⟩
  let above : Decimal := ⟨numerator / denominator + 1, exponent⟩
  let twice := 2 * (numerator % denominator)
  if twice < denominator ∨ (twice = denominator ∧ below.digits % 2 = 0) then [below, above]
  else [above, below]

/-- The power of ten of the first digit of a positive number. -/
def leadingPower (bits : Nat) : Int :=
  ((Nat.toDigits 10 (units bits * 10 ^ reach / unitsPerOne)).length : Int) - 1 - reach

/-- The number written out in full: every binary magnitude has a finite decimal expansion. -/
def expansion (bits : Nat) : Decimal := ⟨units bits * 5 ^ leastExponent, -leastExponent⟩

/-! ## Text -/

/-- How numbers are written. -/
structure Style where
  /-- The least power of ten of a first digit that is written positionally. -/
  least : Int
  /-- The power of ten of a first digit from which on an exponent is written. -/
  bound : Int
  /-- The least number of exponent digits. -/
  exponentWidth : Nat
deriving DecidableEq, Repr

/-- Stored numbers: positional from `0.00001` up to below `10 ^ 16`, exponents as short as
possible. -/
def Style.stored : Style := ⟨-5, 16, 1⟩

/-- Displayed numbers: positional from `0.0001` up to below `10 ^ 16`, exponents of two digits or
more. -/
def Style.displayed : Style := ⟨-4, 16, 2⟩

/-- The digits without trailing zeros. -/
def strippedDigits (digits : Nat) : List Char :=
  ((Nat.toDigits 10 digits).reverse.dropWhile (· = '0')).reverse

/-- The digits with the point behind the first `point` of them, zeros filled in as needed. -/
def placePoint (digits : List Char) (point : Int) : List Char :=
  match point with
  | .negSucc n => '0' :: '.' :: (List.replicate (n + 1) '0' ++ digits)
  | .ofNat 0 => '0' :: '.' :: digits
  | .ofNat n =>
    if digits.length ≤ n then digits ++ List.replicate (n - digits.length) '0' ++ ['.', '0']
    else digits.take n ++ '.' :: digits.drop n

/-- An exponent with its sign, filled with zeros up to `width` digits. -/
def exponentText (width : Nat) (power : Int) : List Char :=
  let digits := Nat.toDigits 10 power.natAbs
  'e' :: (if power < 0 then '-' else '+') ::
    (List.replicate (width - digits.length) '0' ++ digits)

/-- Write a decimal. -/
def Style.writeDecimal (style : Style) (decimal : Decimal) : List Char :=
  let digits := strippedDigits decimal.digits
  let leading := (Nat.toDigits 10 decimal.digits).length - 1 + decimal.exponent
  if digits.isEmpty then ['0', '.', '0']
  else if style.least ≤ leading ∧ leading < style.bound then placePoint digits (leading + 1)
  else match digits with
    | first :: second :: rest =>
      first :: '.' :: second :: rest ++ exponentText style.exponentWidth leading
    | _ => digits ++ exponentText style.exponentWidth leading

/-- The magnitude that a text reads back to. -/
def readBack (text : List Char) : Option Nat :=
  (Numeral.ofChars? text).map fun numeral => numeral.decimal.magnitude

/-- The digits of the expansion with the power of ten behind them. -/
def expansionText (bits : Nat) : List Char :=
  Nat.toDigits 10 (expansion bits).digits ++ "e-1074".toList

/-- The first text with `precision` digits that reads back to the magnitude. -/
def Style.writeAt (style : Style) (bits : Nat) (leading : Int) (precision : Nat) :
    Option (List Char) :=
  ((neighbours bits leading precision).map style.writeDecimal).find? fun text =>
    readBack text = some bits

/-- Write a finite magnitude: with the fewest digits that read back, or else in full. -/
def Style.writeMagnitude (style : Style) (bits : Nat) : List Char :=
  if bits = 0 then ['0', '.', '0']
  else
    let leading := leadingPower bits
    ((List.range 17).findSome? fun n => style.writeAt bits leading (n + 1)).getD
      (expansionText bits)

/-! ## Numbers -/

/-- Write a finite number, the sign of zero included. -/
def Style.write (style : Style) (x : Float) : List Char :=
  let text := style.writeMagnitude (magnitudeBits x)
  if signBit x then '-' :: text else text

end Narrative.Decimal
