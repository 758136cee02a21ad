import Narrative.Decimal.Numeral

/-!
# Spelled numerals

A numeral is spelled by writing its parts one behind the other.  Taking a spelling apart gives the
numeral back as long as every part consists of the characters that may stand there, and nothing but
digits, signs, a point and the exponent mark ever occurs in one.
-/

namespace Narrative.Numeral

/-- The point and the digits behind it. -/
def fractionChars : Option (List Char) → List Char
  | none => []
  | some digits => '.' :: digits

/-- The exponent with its mark. -/
def exponentChars : Option (Option Char × List Char) → List Char
  | none => []
  | some (sign, digits) => 'e' :: (sign.toList ++ digits)

/-- The characters of a numeral, part by part. -/
def chars (numeral : Numeral) : List Char :=
  numeral.sign.toList ++
    (numeral.whole ++ (fractionChars numeral.fraction ++ exponentChars numeral.exponent))

/-- Every part consists of the characters that may stand there. -/
structure Regular (numeral : Numeral) : Prop where
  sign : numeral.sign = none ∨ numeral.sign = some '-'
  whole : ∀ c ∈ numeral.whole, c.isDigit
  whole_ne_nil : numeral.whole ≠ []
  fraction : ∀ digits ∈ numeral.fraction, ∀ c ∈ digits, c.isDigit
  exponent : ∀ part ∈ numeral.exponent, (part.1 = some '+' ∨ part.1 = some '-') ∧
    ∀ c ∈ part.2, c.isDigit

/-- The text does not go on with a digit. -/
def EndsDigits (rest : List Char) : Prop := ∀ c ∈ rest.head?, c.isDigit = false

theorem takeDigits_append {digits rest : List Char} (hdigits : ∀ c ∈ digits, c.isDigit)
    (hrest : EndsDigits rest) : takeDigits (digits ++ rest) = (digits, rest) := by
  have hstop : rest.takeWhile Char.isDigit = [] ∧ rest.dropWhile Char.isDigit = rest := by
    cases rest with
    | nil => exact ⟨rfl, rfl⟩
    | cons c rest =>
      have hc := hrest c rfl
      simp [hc]
  rw [takeDigits, List.takeWhile_append_of_pos hdigits, List.dropWhile_append_of_pos hdigits,
    hstop.1, hstop.2, List.append_nil]

theorem takeSign_of_none {c : Char} {rest : List Char} (hplus : c ≠ '+') (hminus : c ≠ '-') :
    takeSign (c :: rest) = (none, c :: rest) := by
  unfold takeSign
  split
  · exact absurd (by simp_all) hplus
  · exact absurd (by simp_all) hminus
  · rfl

theorem ne_of_isDigit {c d : Char} (hc : c.isDigit) (hd : d.isDigit = false) : c ≠ d := by
  intro e
  rw [e, hd] at hc
  exact absurd hc (by decide)

theorem takeExponent_chars {exponent : Option (Option Char × List Char)}
    (h : ∀ part ∈ exponent, (part.1 = some '+' ∨ part.1 = some '-') ∧
      ∀ c ∈ part.2, c.isDigit) :
    takeExponent (exponentChars exponent) = (exponent, []) := by
  cases exponent with
  | none => rfl
  | some part =>
    obtain ⟨sign, digits⟩ := part
    obtain ⟨hsign, hdigits⟩ := h (sign, digits) rfl
    have htake : takeDigits digits = (digits, []) := by
      have htake : takeDigits (digits ++ []) = (digits, []) :=
        takeDigits_append hdigits (by simp [EndsDigits])
      rwa [List.append_nil] at htake
    rcases hsign with rfl | rfl <;> simp [exponentChars, takeExponent, takeSign, htake]

theorem takeFraction_chars {fraction : Option (List Char)}
    (hfraction : ∀ digits ∈ fraction, ∀ c ∈ digits, c.isDigit)
    (exponent : Option (Option Char × List Char)) :
    takeFraction (fractionChars fraction ++ exponentChars exponent) =
      (fraction, exponentChars exponent) := by
  cases fraction with
  | none => cases exponent <;> rfl
  | some digits =>
    have hrest : EndsDigits (exponentChars exponent) := by
      cases exponent <;> simp [EndsDigits, exponentChars]
    have htake := takeDigits_append (hfraction digits rfl) hrest
    simp [fractionChars, takeFraction, htake]

/-- Taking a spelling apart gives the numeral back. -/
theorem ofChars?_chars {numeral : Numeral} (h : numeral.Regular) :
    ofChars? numeral.chars = some numeral := by
  obtain ⟨sign, whole, fraction, exponent⟩ := numeral
  have hrest : EndsDigits (fractionChars fraction ++ exponentChars exponent) := by
    cases fraction <;> cases exponent <;> simp [EndsDigits, fractionChars, exponentChars]
  have hwhole := takeDigits_append h.whole hrest
  have hsign : takeSign (sign.toList ++
      (whole ++ (fractionChars fraction ++ exponentChars exponent))) =
      (sign, whole ++ (fractionChars fraction ++ exponentChars exponent)) := by
    rcases h.sign with e | e
    · subst e
      obtain ⟨c, digits, e⟩ := List.exists_cons_of_ne_nil h.whole_ne_nil
      subst e
      have hc := h.whole c (List.mem_cons_self ..)
      exact takeSign_of_none (ne_of_isDigit hc (by decide)) (ne_of_isDigit hc (by decide))
    · subst e
      rfl
  simp only [ofChars?, chars, hsign, hwhole, takeFraction_chars h.fraction exponent,
    takeExponent_chars h.exponent, List.isEmpty_nil, if_true]

/-- The characters that occur in numerals. -/
def isNumeralChar (c : Char) : Bool :=
  c.isDigit || c = '+' || c = '-' || c = '.' || c = 'e'

theorem isNumeralChar_of_isDigit {c : Char} (h : c.isDigit) : isNumeralChar c := by
  simp [isNumeralChar, h]

theorem isNumeralChar_of_mem {numeral : Numeral} (h : numeral.Regular) :
    ∀ c ∈ numeral.chars, isNumeralChar c := by
  obtain ⟨sign, whole, fraction, exponent⟩ := numeral
  intro c hc
  simp only [chars, List.mem_append] at hc
  rcases hc with hc | hc | hc | hc
  · rcases h.sign with e | e
    · simp only at e
      simp [e] at hc
    · simp only at e
      simp only [e, Option.toList_some, List.mem_singleton] at hc
      subst hc
      decide
  · exact isNumeralChar_of_isDigit (h.whole c hc)
  · cases fraction with
    | none => simp [fractionChars] at hc
    | some digits =>
      rcases List.mem_cons.1 hc with rfl | hc
      · decide
      · exact isNumeralChar_of_isDigit (h.fraction digits rfl c hc)
  · cases exponent with
    | none => simp [exponentChars] at hc
    | some part =>
      obtain ⟨mark, digits⟩ := part
      obtain ⟨hmark, hdigits⟩ := h.exponent (mark, digits) rfl
      rcases List.mem_cons.1 hc with rfl | hc
      · decide
      · rcases List.mem_append.1 hc with hc | hc
        · rcases hmark with e | e <;>
            · simp only at e
              simp only [e, Option.toList_some, List.mem_singleton] at hc
              subst hc
              decide
        · exact isNumeralChar_of_isDigit (hdigits c hc)

/-- The whole digits are the ones whose number is limited. -/
theorem leadingDigits_chars {numeral : Numeral} (h : numeral.Regular) :
    (leadingDigits numeral.chars).1 = numeral.whole := by
  obtain ⟨sign, whole, fraction, exponent⟩ := numeral
  have hrest : EndsDigits (fractionChars fraction ++ exponentChars exponent) := by
    cases fraction <;> cases exponent <;> simp [EndsDigits, fractionChars, exponentChars]
  have hwhole := takeDigits_append h.whole hrest
  rcases h.sign with e | e
  · simp only at e
    subst e
    obtain ⟨c, digits, e⟩ := List.exists_cons_of_ne_nil h.whole_ne_nil
    simp only at e
    subst e
    have hc := ne_of_isDigit (d := '-') (h.whole c (List.mem_cons_self ..)) (by decide)
    simp only [chars, Option.toList_none, List.nil_append, List.cons_append] at hwhole ⊢
    unfold leadingDigits
    split
    · exact absurd (by simp_all) hc
    · rw [hwhole]
  · simp only at e
    subst e
    simp [chars, leadingDigits, hwhole]

theorem beginsOverlong_chars {numeral : Numeral} (h : numeral.Regular)
    (hlength : numeral.whole.length ≤ digitLimit) : beginsOverlong numeral.chars = false := by
  have hwhole := leadingDigits_chars h
  simp only [beginsOverlong, hwhole, Bool.and_eq_false_iff, decide_eq_false_iff_not]
  right
  omega

end Narrative.Numeral
