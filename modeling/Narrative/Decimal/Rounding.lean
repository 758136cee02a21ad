/-!
# Binary rounding

Finite binary64 magnitudes are numbered by their bit patterns `0, 1, 2, …, infinity - 1`: the
pattern `bits` stands for `units bits / 2 ^ 1074`.  `nearest` rounds a quotient of natural numbers
to the pattern of the closest magnitude, a tie going to the even pattern.

The main statement is `nearest_units`: an exactly representable quotient rounds to itself.
-/

namespace Narrative.Decimal

-- Powers of numbers are the built-in ones, also where a library offers others.
attribute [instance (high), default_instance high + 1] instPowNat

/-! ## Patterns and their values -/

/-- Number of patterns that share one power of two. -/
def binade : Nat := 2 ^ 52

/-- The first pattern that is not finite. -/
def infinity : Nat := 2047 * binade

/-- The power of two by which a significand is multiplied. -/
def shift (bits : Nat) : Nat := bits / binade - 1

/-- The integer significand, with its leading one where there is one. -/
def significand (bits : Nat) : Nat :=
  if bits / binade = 0 then bits else binade + bits % binade

/-- The value of a pattern as a multiple of the smallest positive magnitude. -/
def units (bits : Nat) : Nat := significand bits * 2 ^ shift bits

/-- How many times one is halved to give the smallest positive magnitude. -/
def leastExponent : Nat := 1074

/-- The number of smallest positive magnitudes in one. -/
def unitsPerOne : Nat := 2 ^ leastExponent

theorem unitsPerOne_pos : 0 < unitsPerOne := Nat.two_pow_pos leastExponent

/-! ## Rounding a quotient -/

/-- The quotient rounded to a whole number, a tie going to the even one. -/
def roundDiv (numerator denominator : Nat) : Nat :=
  let quotient := numerator / denominator
  let twice := 2 * (numerator % denominator)
  if denominator < twice ∨ (twice = denominator ∧ quotient % 2 = 1) then quotient + 1
  else quotient

/-- The pattern of the magnitude nearest to a quotient; quotients too large for a finite magnitude
give `infinity`. -/
def nearest (numerator denominator : Nat) : Nat :=
  let scaled := numerator * unitsPerOne
  let power := (scaled / denominator).log2 - 52
  min infinity (power * binade + roundDiv scaled (denominator * 2 ^ power))

theorem roundDiv_mul (quotient denominator : Nat) (h : 0 < denominator) :
    roundDiv (quotient * denominator) denominator = quotient := by
  simp only [roundDiv, Nat.mul_div_cancel quotient h, Nat.mul_mod_left]
  rw [if_neg]
  omega

theorem significand_lt (bits : Nat) : significand bits < 2 * binade := by
  unfold significand binade
  split <;> omega

theorem shift_eq_log2 (bits : Nat) : (units bits).log2 - 52 = shift bits := by
  by_cases h : bits / binade = 0
  · have hs : shift bits = 0 := by simp [shift, h]
    have hu : units bits < 2 ^ 53 := by
      have := significand_lt bits
      simp only [units, hs, binade] at *
      omega
    by_cases hz : units bits = 0
    · simp [hz, hs]
    · have := (Nat.log2_lt hz).2 hu
      omega
  · have hlow : binade ≤ significand bits := by simp [significand, h]
    have hz : units bits ≠ 0 := by
      have : 0 < significand bits := Nat.lt_of_lt_of_le (by decide) hlow
      exact Nat.ne_of_gt (Nat.mul_pos this (Nat.two_pow_pos _))
    have hlower : 2 ^ (52 + shift bits) ≤ units bits := by
      rw [Nat.pow_add]
      exact Nat.mul_le_mul_right _ hlow
    have hupper : units bits < 2 ^ (53 + shift bits) := by
      rw [Nat.pow_add]
      exact Nat.mul_lt_mul_of_pos_right (significand_lt bits) (Nat.two_pow_pos _)
    have h1 := (Nat.log2_lt hz).2 hupper
    have h2 := (Nat.le_log2 hz).2 hlower
    omega

theorem shift_mul_add_significand (bits : Nat) : shift bits * binade + significand bits = bits := by
  unfold shift significand binade
  split <;> omega

/-- A quotient that is exactly the value of a finite pattern rounds to that pattern. -/
theorem nearest_units {bits : Nat} (h : bits < infinity) :
    nearest (units bits) unitsPerOne = bits := by
  simp only [nearest, Nat.mul_div_cancel _ unitsPerOne_pos, shift_eq_log2]
  have : units bits * unitsPerOne = significand bits * (unitsPerOne * 2 ^ shift bits) := by
    rw [units, Nat.mul_assoc, Nat.mul_comm (2 ^ shift bits)]
  rw [this, roundDiv_mul _ _ (Nat.mul_pos unitsPerOne_pos (Nat.two_pow_pos _)),
    shift_mul_add_significand]
  omega

/-- Only the quotient counts, not the fraction it is written as. -/
theorem nearest_mul_right (numerator denominator : Nat) {factor : Nat} (h : 0 < factor) :
    nearest (numerator * factor) (denominator * factor) = nearest numerator denominator := by
  have hscale : numerator * factor * unitsPerOne = numerator * unitsPerOne * factor := by
    rw [Nat.mul_assoc, Nat.mul_comm factor, Nat.mul_assoc]
  have hden (d : Nat) : denominator * factor * d = denominator * d * factor := by
    rw [Nat.mul_assoc, Nat.mul_comm factor, Nat.mul_assoc]
  have hround (n d : Nat) : roundDiv (n * factor) (d * factor) = roundDiv n d := by
    simp only [roundDiv, Nat.mul_div_mul_right _ _ h, Nat.mul_mod_mul_right]
    have h1 : (d * factor < 2 * (n % d * factor)) = (d < 2 * (n % d)) := by
      rw [← Nat.mul_assoc, Nat.mul_lt_mul_right h]
    have h2 : (2 * (n % d * factor) = d * factor) = (2 * (n % d) = d) := by
      rw [← Nat.mul_assoc]
      exact propext ⟨Nat.eq_of_mul_eq_mul_right h, fun e => by rw [e]⟩
    simp only [h1, h2]
  simp only [nearest, hscale, hden, Nat.mul_div_mul_right _ _ h, hround]

end Narrative.Decimal
