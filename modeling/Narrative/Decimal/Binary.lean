import Narrative.Decimal.Rounding

/-!
# Binary numbers

A `Float` is a sign and a magnitude pattern.  Whole parts are taken from the pattern in exact
arithmetic, so they are right for numbers of every size.
-/

namespace Narrative.Decimal

/-! ## Patterns of numbers -/

/-- The number with the given sign and magnitude pattern. -/
def signed (negative : Bool) (bits : Nat) : Float :=
  Float.ofBits (UInt64.ofNat ((if negative then 2 ^ 63 else 0) + bits))

/-- The infinity of either sign. -/
def infinite (negative : Bool) : Float := signed negative infinity

/-- The value that is no number. -/
def notANumber : Float := Float.ofBits 0x7ff8000000000000

/-- The magnitude pattern of a number. -/
def magnitudeBits (x : Float) : Nat := x.toBits.toNat % 2 ^ 63

/-- Whether the sign of a number is negative, the sign of zero included. -/
def signBit (x : Float) : Bool := 2 ^ 63 ≤ x.toBits.toNat

/-- Whether a number is neither infinite nor undefined. -/
def isFinite (x : Float) : Bool := magnitudeBits x < infinity

/-- Whether a value is no number at all. -/
def isNotANumber (x : Float) : Bool := infinity < magnitudeBits x

/-! ## Whole numbers -/

/-- The number nearest to an integer, or nothing when the integer is past every finite number. -/
def ofInt? (n : Int) : Option Float :=
  let bits := nearest n.natAbs 1
  if bits < infinity then some (signed (n < 0) bits) else none

/-- Whether a number has no fractional part. -/
def isWhole (x : Float) : Bool := isFinite x && units (magnitudeBits x) % unitsPerOne = 0

/-- The whole part of a finite number, its fraction dropped. -/
def truncate (x : Float) : Int :=
  let size : Int := units (magnitudeBits x) / unitsPerOne
  if signBit x then -size else size

end Narrative.Decimal
