/-!
# Code units

UTF-16 spells a character beyond the first 65536 by a pair of code units.  Joining the pairs gives
code points back; half of a pair that stands alone is kept, although no character has its number.
-/

namespace Narrative.Text

/-- Whether a code unit is the first half of a pair. -/
def isHighUnit (unit : Nat) : Bool := 0xD800 ≤ unit && unit < 0xDC00

/-- Whether a code unit is the second half of a pair. -/
def isLowUnit (unit : Nat) : Bool := 0xDC00 ≤ unit && unit < 0xE000

/-- Whether a code point is half of a pair. -/
def isHalf (point : Nat) : Bool := isHighUnit point || isLowUnit point

/-- The code points of code units; halves without a partner stay as they are. -/
def joinUnits : List Nat → List Nat
  | [] => []
  | [unit] => [unit]
  | unit :: next :: rest =>
    if isHighUnit unit && isLowUnit next then
      (0x10000 + (unit - 0xD800) * 0x400 + (next - 0xDC00)) :: joinUnits rest
    else unit :: joinUnits (next :: rest)

/-- The code units of a character: two of them beyond the first 65536 characters. -/
def unitsOf (c : Char) : List Nat :=
  if c.toNat < 0x10000 then [c.toNat]
  else [0xD800 + (c.toNat - 0x10000) / 0x400, 0xDC00 + (c.toNat - 0x10000) % 0x400]

/-- The text with given code points; nothing when one of them is the number of no character. -/
def ofPoints? (points : List Nat) : Option (List Char) :=
  points.mapM fun point => if point.isValidChar then some (Char.ofNat point) else none

/-! ## Characters -/

/-- No character is half of a pair. -/
theorem isHalf_toNat (c : Char) : isHalf c.toNat = false := by
  have h : c.toNat < 0xD800 ∨ 0xDFFF < c.toNat ∧ c.toNat < 0x110000 := c.valid
  simp only [isHalf, isHighUnit, isLowUnit, Bool.or_eq_false_iff, Bool.and_eq_false_iff,
    decide_eq_false_iff_not]
  omega

/-- The units of a character are joined to it again, whatever follows. -/
theorem joinUnits_unitsOf (c : Char) (rest : List Nat) :
    joinUnits (unitsOf c ++ rest) = c.toNat :: joinUnits rest := by
  have h : c.toNat < 0xD800 ∨ 0xDFFF < c.toNat ∧ c.toNat < 0x110000 := c.valid
  unfold unitsOf
  split
  · have low : isHighUnit c.toNat = false := by
      have := isHalf_toNat c
      simp only [isHalf, Bool.or_eq_false_iff] at this
      exact this.1
    cases rest with
    | nil => simp [joinUnits]
    | cons next rest => simp [joinUnits, low]
  · have high : isHighUnit (0xD800 + (c.toNat - 0x10000) / 0x400) = true := by
      simp only [isHighUnit, Bool.and_eq_true, decide_eq_true_eq]
      omega
    have low : isLowUnit (0xDC00 + (c.toNat - 0x10000) % 0x400) = true := by
      simp only [isLowUnit, Bool.and_eq_true, decide_eq_true_eq]
      omega
    have value : 0x10000 + (0xD800 + (c.toNat - 0x10000) / 0x400 - 0xD800) * 0x400 +
        (0xDC00 + (c.toNat - 0x10000) % 0x400 - 0xDC00) = c.toNat := by omega
    simp only [List.cons_append, List.nil_append, joinUnits, high, low, Bool.and_self, if_true,
      value]

end Narrative.Text
