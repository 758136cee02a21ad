import Mathlib.Data.List.Basic
import Narrative.Decimal.Written
import Narrative.Proofs.Decimal.Order
import Narrative.Proofs.Decimal.Numerals

/-!
# Written numbers read back

Whatever a writer makes of a decimal is the spelling of a plain numeral with a point or an exponent.
A candidate is taken only if it reads back to the magnitude, and the exact expansion always does, so
the numeral that is written for a finite number has that number as its value.
-/

namespace Narrative.Numeral

/-- A plain numeral with a point or an exponent and with no more digits than may be read. -/
structure Fractional (numeral : Numeral) : Prop extends Regular numeral where
  plain : numeral.isPlain
  notInteger : numeral.isInteger = false
  short : numeral.whole.length ≤ digitLimit

/-- The numeral behind a minus sign. -/
def negated (numeral : Numeral) : Numeral := { numeral with sign := some '-' }

theorem chars_negated {numeral : Numeral} (h : numeral.sign = none) :
    numeral.negated.chars = '-' :: numeral.chars := by
  simp [chars, negated, h]

theorem Fractional.negated {numeral : Numeral} (h : numeral.Fractional)
    (hsign : numeral.sign = none) : numeral.negated.Fractional where
  sign := Or.inr rfl
  whole := h.whole
  whole_ne_nil := h.whole_ne_nil
  fraction := h.fraction
  exponent := h.exponent
  plain := by
    have hplain := h.plain
    simp only [isPlain, hsign] at hplain
    simpa [isPlain, Numeral.negated, exponentComplete] using hplain
  notInteger := h.notInteger
  short := h.short

theorem isPlain_of_head {whole : List Char} {fraction : Option (List Char)}
    {exponent : Option (Option Char × List Char)} (hne : whole ≠ [])
    (hhead : whole.head? = some '0' → whole = ['0']) (hfraction : fraction ≠ some [])
    (hexponent : ∀ part ∈ exponent, part.2 ≠ []) :
    isPlain ⟨none, whole, fraction, exponent⟩ := by
  have hcomplete : exponentComplete ⟨none, whole, fraction, exponent⟩ := by
    cases exponent with
    | none => rfl
    | some part => simpa [exponentComplete] using hexponent part rfl
  obtain ⟨first, rest, rfl⟩ := List.exists_cons_of_ne_nil hne
  have hzero : first = '0' → rest = [] := fun e => by
    subst e
    exact (List.cons.inj (hhead rfl)).2
  simp only [isPlain, hcomplete, Bool.and_true]
  split
  case h_1 heq => exact absurd heq hne
  · simpa using hfraction
  · rename_i other tail hother heq
    obtain ⟨rfl, rfl⟩ := List.cons.inj heq
    have hfirst : first ≠ '0' := fun e => hother e (hzero e)
    simpa [hfirst] using hfraction

end Narrative.Numeral

namespace Narrative.Decimal

open Numeral (chars Fractional)

theorem isDigit_of_mem_strippedDigits (digits : ℕ) :
    ∀ c ∈ strippedDigits digits, c.isDigit := by
  intro c hc
  have hmem : c ∈ (Nat.toDigits 10 digits).reverse.dropWhile (· = '0') :=
    List.mem_reverse.1 hc
  have hmem : c ∈ Nat.toDigits 10 digits :=
    List.mem_reverse.1 ((List.dropWhile_sublist _).subset hmem)
  exact Nat.isDigit_of_mem_toDigits (by decide) (by decide) hmem

theorem head?_toDigits_ne_zero {n : ℕ} (h : 0 < n) : (Nat.toDigits 10 n).head? ≠ some '0' := by
  induction n using Nat.strongRecOn with
  | ind n ih =>
    by_cases hlt : n < 10
    · have hdigit : ∀ m < 10, 0 < m → m.digitChar ≠ '0' := by decide
      rw [Nat.toDigits_of_lt_base hlt]
      simpa using hdigit n hlt h
    · rw [Nat.toDigits_of_base_le (by decide) (by omega),
        List.head?_append_of_ne_nil _ Nat.toDigits_ne_nil]
      exact ih (n / 10) (by omega) (by omega)

/-- Stripping zeros from the end leaves the beginning. -/
theorem strippedDigits_prefix (digits : ℕ) : strippedDigits digits <+: Nat.toDigits 10 digits := by
  have := List.reverse_prefix.2 (List.dropWhile_suffix (l := (Nat.toDigits 10 digits).reverse)
    (fun c => decide (c = '0')))
  rwa [List.reverse_reverse] at this

theorem head?_strippedDigits_ne_zero (digits : ℕ) :
    (strippedDigits digits).head? ≠ some '0' := by
  by_cases h : digits = 0
  · subst h
    decide
  · intro e
    obtain ⟨rest, hrest⟩ := strippedDigits_prefix digits
    have hne : strippedDigits digits ≠ [] := by
      intro hnil
      simp [hnil] at e
    have hhead := head?_toDigits_ne_zero (Nat.pos_of_ne_zero h)
    rw [← hrest, List.head?_append_of_ne_nil _ hne] at hhead
    exact hhead e

/-! ## The shapes of written decimals -/

theorem chars_ofPoint (whole fraction : List Char) :
    chars ⟨none, whole, some fraction, none⟩ = whole ++ '.' :: fraction := by
  simp [chars, Numeral.fractionChars, Numeral.exponentChars]

theorem isDigit_of_mem_zero : ∀ c ∈ ['0'], c.isDigit := List.forall_mem_singleton.2 rfl

theorem fractional_ofPoint {whole fraction : List Char} (hwhole : ∀ c ∈ whole, c.isDigit)
    (hne : whole ≠ []) (hhead : whole.head? = some '0' → whole = ['0'])
    (hfraction : ∀ c ∈ fraction, c.isDigit) (hbehind : fraction ≠ [])
    (hlength : whole.length ≤ 16) : Fractional ⟨none, whole, some fraction, none⟩ where
  sign := Or.inl rfl
  whole := hwhole
  whole_ne_nil := hne
  fraction := by
    rintro _ ⟨⟩
    exact hfraction
  exponent := by simp
  plain := Numeral.isPlain_of_head hne hhead (by simpa using hbehind) (by simp)
  notInteger := rfl
  short := Nat.le_trans hlength (by decide)

theorem fractional_ofExponent {first : Char} (hfirst : first.isDigit) (hnonzero : first ≠ '0')
    (fraction : Option (List Char)) (hfraction : ∀ digits ∈ fraction, ∀ c ∈ digits, c.isDigit)
    (hbehind : fraction ≠ some []) {part : Option Char × List Char}
    (hsign : part.1 = some '+' ∨ part.1 = some '-') (hpower : ∀ c ∈ part.2, c.isDigit)
    (hne : part.2 ≠ []) : Fractional ⟨none, [first], fraction, some part⟩ where
  sign := Or.inl rfl
  whole := by simpa using hfirst
  whole_ne_nil := by simp
  fraction := hfraction
  exponent := by
    rintro _ ⟨⟩
    exact ⟨hsign, hpower⟩
  plain := Numeral.isPlain_of_head (by simp) (by simp [hnonzero]) hbehind (by simpa using hne)
  notInteger := by cases fraction <;> rfl
  short := Nat.le_of_ble_eq_true rfl

theorem placePoint_succ (digits : List Char) (n : ℕ) :
    placePoint digits (.ofNat (n + 1)) =
      if digits.length ≤ n + 1 then
        digits ++ List.replicate (n + 1 - digits.length) '0' ++ ['.', '0']
      else digits.take (n + 1) ++ '.' :: digits.drop (n + 1) := rfl

theorem isDigit_of_mem_replicate {n : ℕ} : ∀ c ∈ List.replicate n '0', c.isDigit := by
  intro c hc
  rw [List.eq_of_mem_replicate hc]
  decide

theorem placePoint_shape {digits : List Char} (hdigits : ∀ c ∈ digits, c.isDigit)
    (hne : digits ≠ []) (hhead : digits.head? ≠ some '0') {point : ℤ} (hpoint : point ≤ 16) :
    ∃ numeral : Numeral, numeral.Fractional ∧ numeral.sign = none ∧
      numeral.chars = placePoint digits point := by
  have below (fraction : List Char) (hfraction : ∀ c ∈ fraction, c.isDigit)
      (hbehind : fraction ≠ []) : Fractional ⟨none, ['0'], some fraction, none⟩ :=
    fractional_ofPoint isDigit_of_mem_zero (by decide) (fun _ => rfl) hfraction hbehind (by decide)
  match point, hpoint with
  | .negSucc n, _ =>
    refine ⟨_, below (List.replicate (n + 1) '0' ++ digits) ?_ (by simp), rfl,
      chars_ofPoint _ _⟩
    intro c hc
    exact (List.mem_append.1 hc).elim (isDigit_of_mem_replicate c) (hdigits c)
  | .ofNat 0, _ => exact ⟨_, below digits hdigits hne, rfl, chars_ofPoint _ _⟩
  | .ofNat (n + 1), hpoint =>
    have hbound : n + 1 ≤ 16 := Int.ofNat_le.1 hpoint
    rw [placePoint_succ]
    by_cases hlong : digits.length ≤ n + 1
    · rw [if_pos hlong]
      refine ⟨⟨none, digits ++ List.replicate (n + 1 - digits.length) '0', some ['0'], none⟩,
        fractional_ofPoint ?_ (by simp [hne]) ?_ isDigit_of_mem_zero (by decide) ?_, rfl,
        chars_ofPoint _ _⟩
      · intro c hc
        exact (List.mem_append.1 hc).elim (hdigits c) (isDigit_of_mem_replicate c)
      · rw [List.head?_append_of_ne_nil _ hne]
        exact fun e => absurd e hhead
      · rw [List.length_append, List.length_replicate]
        omega
    · rw [if_neg hlong]
      refine ⟨⟨none, digits.take (n + 1), some (digits.drop (n + 1)), none⟩,
        fractional_ofPoint (fun c hc => hdigits c (List.mem_of_mem_take hc)) (by simpa using hne)
          ?_ (fun c hc => hdigits c (List.mem_of_mem_drop hc)) ?_ ?_, rfl, chars_ofPoint _ _⟩
      · rw [List.head?_take, if_neg (by omega)]
        exact fun e => absurd e hhead
      · rw [Ne, List.drop_eq_nil_iff]
        exact hlong
      · rw [List.length_take]
        omega

theorem exponentText_shape (width : ℕ) (power : ℤ) :
    ∃ part : Option Char × List Char,
      Numeral.exponentChars (some part) = exponentText width power ∧
      (part.1 = some '+' ∨ part.1 = some '-') ∧ (∀ c ∈ part.2, c.isDigit) ∧ part.2 ≠ [] := by
  refine ⟨(some (if power < 0 then '-' else '+'), List.replicate
    (width - (Nat.toDigits 10 power.natAbs).length) '0' ++ Nat.toDigits 10 power.natAbs),
    ?_, ?_, ?_, ?_⟩
  · simp [Numeral.exponentChars, exponentText]
  · by_cases h : power < 0 <;> simp [h]
  · intro c hc
    rcases List.mem_append.1 hc with hc | hc
    · exact isDigit_of_mem_replicate c hc
    · exact Nat.isDigit_of_mem_toDigits (by decide) (by decide) hc
  · simp [Nat.toDigits_ne_nil]

/-- Every decimal is written as a plain numeral with a point or an exponent. -/
theorem writeDecimal_shape {style : Style} (hstyle : style.bound ≤ 16) (decimal : Decimal) :
    ∃ numeral : Numeral, numeral.Fractional ∧ numeral.sign = none ∧
      numeral.chars = style.writeDecimal decimal := by
  have hdigits := isDigit_of_mem_strippedDigits decimal.digits
  have hhead := head?_strippedDigits_ne_zero decimal.digits
  unfold Style.writeDecimal
  generalize strippedDigits decimal.digits = digits at hdigits hhead
  simp only
  generalize ((Nat.toDigits 10 decimal.digits).length - 1 + decimal.exponent : ℤ) = leading
  by_cases hempty : digits = []
  · rw [hempty]
    exact ⟨_, fractional_ofPoint isDigit_of_mem_zero (by decide) (fun _ => rfl)
      isDigit_of_mem_zero (by decide) (by decide), rfl, chars_ofPoint ['0'] ['0']⟩
  · rw [if_neg (by simpa using hempty)]
    by_cases hpositional : style.least ≤ leading ∧ leading < style.bound
    · rw [if_pos hpositional]
      exact placePoint_shape hdigits hempty hhead (by omega)
    · rw [if_neg hpositional]
      obtain ⟨part, hpart, hsign, hpower, hne⟩ :=
        exponentText_shape style.exponentWidth leading
      obtain ⟨first, rest, rfl⟩ := List.exists_cons_of_ne_nil hempty
      have hfirst : first.isDigit := hdigits first (List.mem_cons_self ..)
      have hnonzero : first ≠ '0' := by simpa using hhead
      cases rest with
      | nil =>
        refine ⟨_, fractional_ofExponent hfirst hnonzero none (by simp) (by simp)
          hsign hpower hne, rfl, ?_⟩
        simp only [chars, Option.toList_none, List.nil_append, Numeral.fractionChars, hpart]
      | cons second rest =>
        refine ⟨_, fractional_ofExponent hfirst hnonzero (some (second :: rest)) ?_
          (by simp) hsign hpower hne, rfl, ?_⟩
        · rintro _ ⟨⟩ c hc
          exact hdigits c (List.mem_cons_of_mem _ hc)
        · simp only [chars, Option.toList_none, List.nil_append, Numeral.fractionChars, hpart,
            List.cons_append]

theorem shift_le {bits : ℕ} (h : bits < infinity) : shift bits ≤ 2046 := by
  have : bits / binade < 2047 := Nat.div_lt_of_lt_mul (by rwa [infinity, Nat.mul_comm] at h)
  unfold shift
  omega

theorem units_lt (bits : ℕ) : units bits < 10 ^ (53 + shift bits) :=
  calc
    units bits = significand bits * 2 ^ shift bits := rfl
    _ < 2 ^ 53 * 2 ^ shift bits :=
          Nat.mul_lt_mul_of_pos_right (significand_lt bits) (Nat.two_pow_pos _)
    _ = 2 ^ (53 + shift bits) := (Nat.pow_add ..).symm
    _ ≤ 10 ^ (53 + shift bits) := Nat.pow_le_pow_left (by decide) _

theorem units_pos {bits : ℕ} (h : bits ≠ 0) : 0 < units bits := by
  apply Nat.mul_pos _ (Nat.two_pow_pos _)
  unfold significand
  split
  · omega
  · exact Nat.lt_of_lt_of_le (by decide) (Nat.le_add_right _ _)

/-- The expansion has far fewer digits than may be read. -/
theorem length_expansion_le {bits : ℕ} (h : bits < infinity) :
    (Nat.toDigits 10 (expansion bits).digits).length ≤ Numeral.digitLimit := by
  have hdigits : (expansion bits).digits < 10 ^ (53 + shift bits + leastExponent) :=
    calc
      units bits * 5 ^ leastExponent < 10 ^ (53 + shift bits) * 5 ^ leastExponent :=
            Nat.mul_lt_mul_of_pos_right (units_lt bits) (Nat.pow_pos (by decide))
      _ ≤ 10 ^ (53 + shift bits) * 10 ^ leastExponent :=
            Nat.mul_le_mul_left _ (Nat.pow_le_pow_left (by decide) _)
      _ = 10 ^ (53 + shift bits + leastExponent) := (Nat.pow_add ..).symm
  have hlength := (Nat.length_toDigits_le_iff (by decide) (by omega)).2 hdigits
  have hshift := shift_le h
  have hleast : leastExponent = 1074 := rfl
  have hlimit : Numeral.digitLimit = 4300 := rfl
  omega

/-- The expansion of a magnitude has that magnitude. -/
theorem magnitude_expansion {bits : ℕ} (hpos : bits ≠ 0) (h : bits < infinity) :
    (expansion bits).magnitude = bits := by
  obtain ⟨power, hpower⟩ : ∃ power, leastExponent = power + 1 := ⟨1073, rfl⟩
  have hdigits : (expansion bits).digits = units bits * 5 ^ leastExponent := rfl
  have hexponent : (expansion bits).exponent = Int.negSucc power := by
    change -(leastExponent : ℤ) = _
    rw [hpower]
    rfl
  have hfive : 0 < 5 ^ leastExponent := Nat.pow_pos (by decide)
  have hnonzero : units bits * 5 ^ leastExponent ≠ 0 :=
    Nat.ne_of_gt (Nat.mul_pos (units_pos hpos) hfive)
  have hlarge : 2 ^ leastExponent ≤ units bits * 5 ^ leastExponent :=
    calc
      2 ^ leastExponent ≤ 5 ^ leastExponent := Nat.pow_le_pow_left (by decide) _
      _ ≤ units bits * 5 ^ leastExponent := Nat.le_mul_of_pos_left _ (units_pos hpos)
  have hlog := (Nat.le_log2 hnonzero).2 hlarge
  have hten : 10 ^ (power + 1) = unitsPerOne * 5 ^ leastExponent := by
    rw [unitsPerOne, ← Nat.mul_pow, hpower]
  unfold magnitude
  rw [hdigits, hexponent, if_neg hnonzero]
  simp only
  rw [if_neg (by omega), hten, nearest_mul_right _ _ hfive, nearest_units h]

theorem decimal_ofDigits (digits power : ℕ) :
    Numeral.decimal ⟨none, Nat.toDigits 10 digits, none,
      some (some '-', Nat.toDigits 10 power)⟩ = ⟨digits, -power⟩ := by
  simp [Numeral.decimal, Numeral.writtenExponent, Nat.ofDigitChars_ten_toDigits]

/-- The expansion is written as a plain numeral with an exponent. -/
theorem expansionText_shape {bits : ℕ} (hpos : bits ≠ 0) (h : bits < infinity) :
    ∃ numeral : Numeral, numeral.Fractional ∧ numeral.sign = none ∧
      numeral.chars = expansionText bits ∧ numeral.decimal.magnitude = bits := by
  have hmark : "e-1074".toList = 'e' :: '-' :: Nat.toDigits 10 leastExponent := by decide
  have hlength := length_expansion_le h
  have hmagnitude := magnitude_expansion hpos h
  have hdigits : 0 < (expansion bits).digits :=
    Nat.mul_pos (units_pos hpos) (Nat.pow_pos (by decide))
  have hexponent : (expansion bits).exponent = -leastExponent := rfl
  rw [expansionText, hmark]
  generalize expansion bits = decimal at hlength hmagnitude hdigits hexponent ⊢
  obtain ⟨digits, exponent⟩ := decimal
  simp only at hlength hdigits hexponent ⊢
  have hpart : ∀ n, ∀ c ∈ Nat.toDigits 10 n, c.isDigit := fun n c hc =>
    Nat.isDigit_of_mem_toDigits (by decide) (by decide) hc
  refine ⟨⟨none, Nat.toDigits 10 digits, none, some (some '-', Nat.toDigits 10 leastExponent)⟩,
    ⟨⟨Or.inl rfl, hpart digits, Nat.toDigits_ne_nil, by simp, ?_⟩, ?_, rfl, hlength⟩, rfl, ?_, ?_⟩
  · rintro _ ⟨⟩
    exact ⟨Or.inr rfl, hpart leastExponent⟩
  · exact Numeral.isPlain_of_head Nat.toDigits_ne_nil
      (fun e => absurd e (head?_toDigits_ne_zero hdigits)) (by simp)
      (by simp [Nat.toDigits_ne_nil])
  · simp [chars, Numeral.fractionChars, Numeral.exponentChars]
  · rw [decimal_ofDigits, ← hexponent, hmagnitude]

/-! ## Reading back -/

/-- A finite magnitude is written as a numeral of that magnitude. -/
theorem writeMagnitude_shape {style : Style} (hstyle : style.bound ≤ 16) {bits : ℕ}
    (h : bits < infinity) :
    ∃ numeral : Numeral, numeral.Fractional ∧ numeral.sign = none ∧
      numeral.chars = style.writeMagnitude bits ∧ numeral.decimal.magnitude = bits := by
  unfold Style.writeMagnitude
  by_cases hzero : bits = 0
  · rw [if_pos hzero]
    have hvalue : Numeral.decimal ⟨none, ['0'], some ['0'], none⟩ = ⟨0, -1⟩ := by decide
    refine ⟨⟨none, ['0'], some ['0'], none⟩, fractional_ofPoint isDigit_of_mem_zero (by decide)
      (fun _ => rfl) isDigit_of_mem_zero (by decide) (by decide), rfl, chars_ofPoint _ _, ?_⟩
    rw [hvalue, hzero, magnitude, if_pos rfl]
  · rw [if_neg hzero]
    simp only
    cases hfound : (List.range 17).findSome? fun n =>
        style.writeAt bits (leadingPower bits) (n + 1) with
    | none =>
      rw [Option.getD_none]
      exact expansionText_shape hzero h
    | some text =>
      obtain ⟨n, -, hn⟩ := List.exists_of_findSome?_eq_some hfound
      have hback := List.find?_some hn
      obtain ⟨decimal, -, rfl⟩ := List.mem_map.1 (List.mem_of_find?_eq_some hn)
      obtain ⟨numeral, hnumeral, hsign, hchars⟩ := writeDecimal_shape hstyle decimal
      refine ⟨numeral, hnumeral, hsign, hchars, ?_⟩
      rw [decide_eq_true_iff, readBack, ← hchars,
        Numeral.ofChars?_chars hnumeral.toRegular] at hback
      exact Option.some.inj hback

/-- A finite number is written as a numeral whose value it is. -/
theorem write_shape {style : Style} (hstyle : style.bound ≤ 16) {x : Float} (hx : isFinite x) :
    ∃ numeral : Numeral, numeral.Fractional ∧ numeral.chars = style.write x ∧
      numeral.toFloat = x := by
  have hbits : magnitudeBits x < infinity := of_decide_eq_true hx
  obtain ⟨numeral, hnumeral, hsign, hchars, hvalue⟩ := writeMagnitude_shape hstyle hbits
  unfold Style.write
  simp only
  by_cases hnegative : signBit x
  · rw [if_pos hnegative]
    refine ⟨numeral.negated, hnumeral.negated hsign, ?_, ?_⟩
    · rw [Numeral.chars_negated hsign, hchars]
    · have hdecimal : numeral.negated.decimal = numeral.decimal := rfl
      have hsign : numeral.negated.isNegative = signBit x := by
        rw [hnegative]
        rfl
      rw [Numeral.toFloat, hdecimal, hsign, hvalue, signed_magnitudeBits]
  · rw [if_neg hnegative]
    refine ⟨numeral, hnumeral, hchars, ?_⟩
    have hpositive : numeral.isNegative = signBit x := by
      rw [Numeral.isNegative, hsign]
      simpa using hnegative
    rw [Numeral.toFloat, hpositive, hvalue, signed_magnitudeBits]

end Narrative.Decimal
