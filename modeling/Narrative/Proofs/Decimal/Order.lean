import Mathlib.Data.Prod.Lex
import Mathlib.Data.Int.Order.Basic
import Narrative.Decimal.Binary

/-!
# Numbers as patterns

A number is taken apart into its sign and its magnitude pattern and put together again without
loss, undefined values included.  The comparisons of numbers are read off their unpacked form: two
numbers that are both defined are always comparable, and a number strictly between two finite
ones is finite.  That is all that keeping a value within bounds depends on.
-/

namespace Narrative.Decimal

open Float.Model
open Float.Model.UnpackedFloat (Sign packComponents unpackSign unpackExponent unpackMantissa)

/-! ## Taking apart and putting together -/

abbrev Word := BitVec Format.binary64.numBits

theorem toBitVec_ofBitVec (sign : BitVec 1) : (Sign.ofBitVec sign).toBitVec = sign := by
  revert sign
  decide

theorem toNat_unpackExponent (word : Word) :
    (unpackExponent word).toNat = word.toNat / 2 ^ 52 % 2 ^ 11 := by
  simp [unpackExponent, BitVec.extractLsb, BitVec.extractLsb', Nat.shiftRight_eq_div_pow]

theorem toNat_unpackMantissa (word : Word) :
    (unpackMantissa word).toNat = word.toNat % 2 ^ 52 := by
  simp [unpackMantissa, BitVec.extractLsb, BitVec.extractLsb']

/-- A word is made of its three fields. -/
theorem packComponents_fields {word : Word} {exponent : BitVec 11} {mantissa : BitVec 52}
    (hexponent : unpackExponent word = exponent) (hmantissa : unpackMantissa word = mantissa) :
    packComponents Format.binary64 (Sign.ofBitVec (unpackSign word)) exponent mantissa = word := by
  subst hexponent hmantissa
  unfold packComponents
  rw [toBitVec_ofBitVec]
  change BitVec.extractLsb 63 63 word ++ BitVec.extractLsb 62 52 word ++
    BitVec.extractLsb 51 0 word = word
  apply BitVec.eq_of_getLsbD_eq
  intro i hi
  simp only [BitVec.getLsbD_append, BitVec.getLsbD_extractLsb]
  by_cases hlow : i < 52
  · simp [hlow]
  · by_cases hmiddle : i - 52 < 11
    · have : 52 + (i - 52) = i := by omega
      simp [hlow, hmiddle, this]
    · have : i = 63 := by omega
      subst this
      simp
      exact BitVec.getLsbD_eq_getElem (by decide)

theorem log2_of_normal {mantissa : ℕ} (h : mantissa < 2 ^ 52) :
    (2 ^ 52 + mantissa).log2 = 52 := by
  have hz : 2 ^ 52 + mantissa ≠ 0 := by omega
  have hlow := (Nat.le_log2 (k := 52) hz).2 (by omega)
  have hhigh := (Nat.log2_lt (k := 53) hz).2 (by omega)
  omega

theorem toNat_one_append (mantissa : BitVec 52) :
    (1#1 ++ mantissa).toNat = 2 ^ 52 + mantissa.toNat := by
  rw [BitVec.toNat_append]
  change 2 ^ 52 ||| mantissa.toNat = _
  rw [Nat.or_comm, Nat.or_two_pow_eq_add_of_lt mantissa.isLt, Nat.add_comm]

/-- Packing undoes unpacking.  The validity of the word is needed only for undefined values, of
which one pattern stands for all. -/
theorem pack_unpack {word : Word} (h : Format.binary64.Valid word) :
    UnpackedFloat.pack Format.binary64 (UnpackedFloat.unpack Format.binary64 word) = word := by
  have hbias : Format.binary64.exponentBias = 1023 := by decide
  have hbits : Format.binary64.mantissaBits = 53 := by decide
  have hmantissa : (unpackMantissa word).toNat < 2 ^ 52 := (unpackMantissa word).isLt
  delta UnpackedFloat.unpack
  dsimp only
  by_cases hones : unpackExponent word = -1#11
  · rw [if_pos hones]
    by_cases hzero : unpackMantissa word = 0#52
    · rw [if_pos hzero]
      exact packComponents_fields hones hzero
    · rw [if_neg hzero]
      exact (h.eq_packedNaN hones hzero).symm
  · rw [if_neg hones]
    by_cases hsmall : unpackExponent word = 0#11
    · rw [if_pos hsmall]
      by_cases hnonzero : unpackMantissa word = 0#52
      · rw [dif_pos hnonzero]
        exact packComponents_fields hsmall hnonzero
      · rw [dif_neg hnonzero]
        have hexponent : (unpackExponent word).toNat = 0 := by rw [hsmall]; rfl
        have hlog : ¬(unpackMantissa word).toNat.log2 + 1 = Format.binary64.mantissaBits := by
          rw [hbits]
          intro e
          have hpos : (unpackMantissa word).toNat ≠ 0 := fun hz =>
            hnonzero (BitVec.eq_of_toNat_eq (by simpa using hz))
          have := (Nat.log2_lt (k := 52) hpos).2 hmantissa
          omega
        delta UnpackedFloat.pack
        dsimp only
        rw [if_neg (by rw [hexponent, hbias]; decide), if_neg hlog]
        apply packComponents_fields hsmall
        rw [BitVec.ofNat_toNat, BitVec.setWidth_eq]
    · rw [if_neg hsmall]
      have hbiased : ((unpackExponent word).toNat -
          (Format.binary64.exponentBias + (52 : ℕ) : ℤ) + Format.binary64.exponentBias +
          (52 : ℕ)).toNat = (unpackExponent word).toNat := by
        omega
      have hbound : ¬2 ^ 11 ≤ (unpackExponent word).toNat + 1 := by
        intro hle
        apply hones
        apply BitVec.eq_of_toNat_eq
        have := (unpackExponent word).isLt
        simp at this ⊢
        omega
      have hlog : (1#1 ++ unpackMantissa word).toNat.log2 + 1 = Format.binary64.mantissaBits := by
        rw [toNat_one_append, log2_of_normal hmantissa, hbits]
      delta UnpackedFloat.pack
      dsimp only
      simp only [hbiased]
      rw [if_neg hbound, if_pos hlog]
      apply packComponents_fields
      · rw [BitVec.ofNat_toNat, BitVec.setWidth_eq]
      · apply BitVec.eq_of_toNat_eq
        rw [BitVec.toNat_ofNat, toNat_one_append]
        change (unpackMantissa word).toNat = (2 ^ 52 + (unpackMantissa word).toNat) % 2 ^ 52
        omega

theorem eq_of_toBits {x y : Float} (h : x.toBits = y.toBits) : x = y := by
  obtain ⟨⟨_, _⟩⟩ := x
  obtain ⟨⟨_, _⟩⟩ := y
  cases h
  rfl

theorem ofBits_toBits (x : Float) : Float.ofBits x.toBits = x := by
  apply eq_of_toBits
  exact congrArg UInt64.ofBitVec (pack_unpack x.toModel.valid)

/-- A number is determined by its sign and its magnitude pattern. -/
theorem signed_magnitudeBits (x : Float) : signed (signBit x) (magnitudeBits x) = x := by
  have hbits : (if signBit x then 2 ^ 63 else 0) + magnitudeBits x = x.toBits.toNat := by
    have := x.toBits.toNat_lt
    unfold signBit magnitudeBits
    split <;> simp_all
    omega
  rw [signed, hbits, UInt64.ofNat_toNat, ofBits_toBits]

/-! ## Comparing -/

/-- Where an unpacked number stands: by the kind of number first, then by exponent and mantissa.
Undefined values stand nowhere in particular. -/
def rank : UnpackedFloat → ℤ ×ₗ ℤ ×ₗ ℤ
  | .notANumber => toLex (0, toLex (0, 0))
  | .infinity .negative => toLex (-2, toLex (0, 0))
  | .finite .negative mantissa exponent _ => toLex (-1, toLex (-exponent, -mantissa))
  | .zero _ => toLex (0, toLex (0, 0))
  | .finite .positive mantissa exponent _ => toLex (1, toLex (exponent, mantissa))
  | .infinity .positive => toLex (2, toLex (0, 0))

theorem compare_eq_lt {a b : UnpackedFloat} (ha : a.isNaN = false) (hb : b.isNaN = false) :
    a.compare b = some .lt ↔ rank a < rank b := by
  rcases a with ⟨⟨⟩⟩ | _ | ⟨⟨⟩⟩ | ⟨⟨⟩, m, e, hm⟩ <;>
    rcases b with ⟨⟨⟩⟩ | _ | ⟨⟨⟩⟩ | ⟨⟨⟩, n, f, hn⟩ <;>
    delta UnpackedFloat.isNaN at ha hb <;>
    delta UnpackedFloat.compare rank <;>
    dsimp only at ha hb ⊢ <;>
    simp [Prod.Lex.toLex_lt_toLex, Ordering.then_eq_lt, Ordering.then_eq_gt,
      compare_gt_iff_gt] at ha hb ⊢
  case infinity.negative.infinity.positive => rfl
  case finite.positive.finite.positive => rw [compare_lt_iff_lt, compare_lt_iff_lt]

/-- Exchanging the numbers turns the comparison around. -/
theorem compare_swap (a b : UnpackedFloat) :
    b.compare a = (a.compare b).map Ordering.swap := by
  have hint (m n : ℤ) : compare n m = (compare m n).swap := Std.OrientedCmp.eq_swap
  have hnat (m n : ℕ) : compare n m = (compare m n).swap := Std.OrientedCmp.eq_swap
  rcases a with ⟨⟨⟩⟩ | _ | ⟨⟨⟩⟩ | ⟨⟨⟩, m, e, hm⟩ <;>
    rcases b with ⟨⟨⟩⟩ | _ | ⟨⟨⟩⟩ | ⟨⟨⟩, n, f, hn⟩ <;>
    first
    | rfl
    | delta UnpackedFloat.compare
      dsimp only
      simp only [Option.map_some, hint f e, hnat n m, Ordering.swap_then, Ordering.swap_swap]

/-- Only undefined values cannot be compared. -/
theorem compare_isSome {a b : UnpackedFloat} :
    (a.compare b).isSome ↔ a.isNaN = false ∧ b.isNaN = false := by
  rcases a with ⟨⟨⟩⟩ | _ | ⟨⟨⟩⟩ | ⟨⟨⟩, m, e, hm⟩ <;>
    rcases b with ⟨⟨⟩⟩ | _ | ⟨⟨⟩⟩ | ⟨⟨⟩, n, f, hn⟩ <;>
    first
    | exact iff_of_true rfl ⟨rfl, rfl⟩
    | exact iff_of_false Bool.false_ne_true fun h => absurd h.1 (by decide)
    | exact iff_of_false Bool.false_ne_true fun h => absurd h.2 (by decide)

theorem compare_isLE {a b : UnpackedFloat} (ha : a.isNaN = false) (hb : b.isNaN = false) :
    (a.compare b).any Ordering.isLE = true ↔ rank a ≤ rank b := by
  rw [← not_lt, ← compare_eq_lt hb ha, compare_swap a b]
  obtain ⟨order, horder⟩ := Option.isSome_iff_exists.1 (compare_isSome.2 ⟨ha, hb⟩)
  rw [horder]
  cases order <;> decide

theorem unpack_isFinite (word : Word) :
    (UnpackedFloat.unpack Format.binary64 word).isFinite =
      decide (word.toNat / 2 ^ 52 % 2 ^ 11 ≠ 2047) := by
  have hones : unpackExponent word = -1#11 ↔ (unpackExponent word).toNat = 2047 :=
    BitVec.toNat_inj.symm
  rw [← toNat_unpackExponent]
  delta UnpackedFloat.unpack
  dsimp only
  by_cases h : unpackExponent word = -1#11
  · rw [if_pos h, decide_eq_false (not_not.2 (hones.1 h))]
    by_cases hzero : unpackMantissa word = 0#52
    · rw [if_pos hzero]
      rfl
    · rw [if_neg hzero]
      rfl
  · rw [if_neg h, decide_eq_true (mt hones.2 h)]
    by_cases hsmall : unpackExponent word = 0#11
    · rw [if_pos hsmall]
      by_cases hzero : unpackMantissa word = 0#52
      · rw [dif_pos hzero]
        rfl
      · rw [dif_neg hzero]
        rfl
    · rw [if_neg hsmall]
      rfl

theorem isFinite_eq_unpack (x : Float) : isFinite x = x.toModel.unpack.isFinite := by
  have hbits : x.toModel.toBits.toBitVec.toNat = x.toBits.toNat := rfl
  rw [Float.Model.unpack, unpack_isFinite, isFinite, magnitudeBits, infinity, binade, hbits]
  apply decide_eq_decide.2
  omega

theorem lt_iff_compare (x y : Float) :
    x < y ↔ x.toModel.unpack.compare y.toModel.unpack = some .lt := by
  change decide (x.toModel < y.toModel) = true ↔ _
  rw [decide_eq_true_iff]
  change (x.toModel.unpack.compare y.toModel.unpack == some .lt) = true ↔ _
  exact beq_iff_eq

theorem le_iff_compare (x y : Float) :
    x ≤ y ↔ (x.toModel.unpack.compare y.toModel.unpack).any Ordering.isLE = true := by
  change decide (x.toModel ≤ y.toModel) = true ↔ _
  rw [decide_eq_true_iff]
  exact Iff.rfl

theorem beq_iff_compare (x y : Float) :
    x == y ↔ x.toModel.unpack.compare y.toModel.unpack = some .eq := by
  change (x.toModel.unpack.compare y.toModel.unpack == some .eq) = true ↔ _
  exact beq_iff_eq

/-- Two numbers are equal if neither is less than the other; zeros of either sign are. -/
theorem beq_iff_le (x y : Float) : x == y ↔ x ≤ y ∧ y ≤ x := by
  rw [beq_iff_compare, le_iff_compare, le_iff_compare, compare_swap x.toModel.unpack]
  cases x.toModel.unpack.compare y.toModel.unpack with
  | none => simp
  | some order => cases order <;> decide

theorem unpack_isNaN (word : Word) :
    (UnpackedFloat.unpack Format.binary64 word).isNaN =
      decide (word.toNat / 2 ^ 52 % 2 ^ 11 = 2047 ∧ word.toNat % 2 ^ 52 ≠ 0) := by
  have hones : unpackExponent word = -1#11 ↔ word.toNat / 2 ^ 52 % 2 ^ 11 = 2047 := by
    rw [← toNat_unpackExponent]
    exact BitVec.toNat_inj.symm
  have hzero : unpackMantissa word = 0#52 ↔ word.toNat % 2 ^ 52 = 0 := by
    rw [← toNat_unpackMantissa]
    exact BitVec.toNat_inj.symm
  rw [← decide_eq_decide.2 (and_congr hones (not_congr hzero))]
  delta UnpackedFloat.unpack
  dsimp only
  by_cases h : unpackExponent word = -1#11
  · rw [if_pos h]
    by_cases hmantissa : unpackMantissa word = 0#52
    · rw [if_pos hmantissa, decide_eq_false fun hboth => hboth.2 hmantissa]
      rfl
    · rw [if_neg hmantissa, decide_eq_true ⟨h, hmantissa⟩]
      rfl
  · rw [if_neg h, decide_eq_false fun hboth => h hboth.1]
    by_cases hsmall : unpackExponent word = 0#11
    · rw [if_pos hsmall]
      by_cases hmantissa : unpackMantissa word = 0#52
      · rw [dif_pos hmantissa]
        rfl
      · rw [dif_neg hmantissa]
        rfl
    · rw [if_neg hsmall]
      rfl

theorem isNotANumber_eq_unpack (x : Float) : isNotANumber x = x.toModel.unpack.isNaN := by
  have hbits : x.toModel.toBits.toBitVec.toNat = x.toBits.toNat := rfl
  rw [Float.Model.unpack, unpack_isNaN, isNotANumber, magnitudeBits, infinity, binade, hbits]
  apply decide_eq_decide.2
  omega

/-- Only numbers that are defined compare. -/
theorem defined_of_lt {x y : Float} (h : x < y) :
    isNotANumber x = false ∧ isNotANumber y = false := by
  rw [isNotANumber_eq_unpack, isNotANumber_eq_unpack, ← compare_isSome, (lt_iff_compare x y).1 h]
  rfl

theorem defined_of_le {x y : Float} (h : x ≤ y) :
    isNotANumber x = false ∧ isNotANumber y = false := by
  rw [isNotANumber_eq_unpack, isNotANumber_eq_unpack, ← compare_isSome]
  have hany := (le_iff_compare x y).1 h
  cases horder : x.toModel.unpack.compare y.toModel.unpack with
  | none => simp [horder] at hany
  | some order => rfl

/-- The rank of a number orders it among the numbers that are defined. -/
theorem lt_iff_rank {x y : Float} (hx : isNotANumber x = false) (hy : isNotANumber y = false) :
    x < y ↔ rank x.toModel.unpack < rank y.toModel.unpack := by
  rw [isNotANumber_eq_unpack] at hx hy
  rw [lt_iff_compare, compare_eq_lt hx hy]

theorem le_iff_rank {x y : Float} (hx : isNotANumber x = false) (hy : isNotANumber y = false) :
    x ≤ y ↔ rank x.toModel.unpack ≤ rank y.toModel.unpack := by
  rw [isNotANumber_eq_unpack] at hx hy
  rw [le_iff_compare, compare_isLE hx hy]

protected theorem le_refl {x : Float} (hx : isNotANumber x = false) : x ≤ x :=
  (le_iff_rank hx hx).2 le_rfl

protected theorem le_of_lt {x y : Float} (h : x < y) : x ≤ y := by
  obtain ⟨hx, hy⟩ := defined_of_lt h
  exact (le_iff_rank hx hy).2 ((lt_iff_rank hx hy).1 h).le

protected theorem le_of_not_lt {x y : Float} (hx : isNotANumber x = false)
    (hy : isNotANumber y = false) (h : ¬ x < y) : y ≤ x := by
  rw [lt_iff_rank hx hy] at h
  exact (le_iff_rank hy hx).2 (not_lt.1 h)

protected theorem le_trans {x y z : Float} (hxy : x ≤ y) (hyz : y ≤ z) : x ≤ z := by
  obtain ⟨hx, hy⟩ := defined_of_le hxy
  obtain ⟨-, hz⟩ := defined_of_le hyz
  exact (le_iff_rank hx hz).2
    (((le_iff_rank hx hy).1 hxy).trans ((le_iff_rank hy hz).1 hyz))

/-- A number strictly between two finite ones is finite; an undefined one is between none. -/
theorem isFinite_of_between {x y z : Float} (hx : isFinite x) (hz : isFinite z) (hxy : x < y)
    (hyz : y < z) : isFinite y := by
  rw [isFinite_eq_unpack] at *
  rw [lt_iff_compare] at hxy hyz
  generalize x.toModel.unpack = a at *
  generalize y.toModel.unpack = b at *
  generalize z.toModel.unpack = c at *
  have hinfinite (sign : Sign) : (UnpackedFloat.infinity sign).isFinite ≠ true :=
    Bool.false_ne_true
  cases b with
  | zero => rfl
  | finite => rfl
  | notANumber =>
    have hnone : a.compare .notANumber = none := by cases a <;> rfl
    exact absurd (hnone.symm.trans hxy) (by simp)
  | infinity sign =>
    cases sign with
    | negative =>
      delta UnpackedFloat.compare at hxy
      cases a with
      | infinity sign => exact absurd hx (hinfinite sign)
      | zero | notANumber | finite =>
        dsimp only at hxy
        simp at hxy
    | positive =>
      delta UnpackedFloat.compare at hyz
      cases c with
      | infinity sign => exact absurd hz (hinfinite sign)
      | zero | notANumber | finite =>
        dsimp only at hyz
        simp at hyz

end Narrative.Decimal
