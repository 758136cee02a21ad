import Mathlib.Tactic.NormNum
import Narrative.Json.Quoted

/-!
# Quoted texts read back

Writing a character either keeps it, gives it a short escape, or spells its code units in
hexadecimal.  Reading turns each of these back into code units that are joined to the character
again, so a quoted text reads back to itself, whatever follows the closing quote.
-/

namespace Narrative.Json

open Text (unitsOf joinUnits)

theorem hexValue?_digitChar : ∀ n < 16, Text.hexValue? (Nat.digitChar n) = some n := by
  decide

/-- The four digits of a code unit. -/
theorem hexEscape_eq {unit : ℕ} (h : unit < 65536) :
    hexEscape unit = ['\\', 'u', Nat.digitChar (unit / 4096), Nat.digitChar (unit / 256 % 16),
      Nat.digitChar (unit / 16 % 16), Nat.digitChar (unit % 16)] := by
  have hstep (n : ℕ) (hn : 16 ≤ n) :
      Nat.toDigits 16 n = Nat.toDigits 16 (n / 16) ++ [Nat.digitChar (n % 16)] :=
    Nat.toDigits_of_base_le (by decide) hn
  have hlast (n : ℕ) (hn : n < 16) : Nat.toDigits 16 n = [Nat.digitChar n] :=
    Nat.toDigits_of_lt_base hn
  have hzero {n : ℕ} (hn : n = 0) : Nat.digitChar n = '0' := by
    rw [hn]
    rfl
  unfold hexEscape
  by_cases h1 : unit < 16
  · rw [hlast unit h1, hzero (n := unit / 4096) (by omega), hzero (n := unit / 256 % 16) (by omega),
      hzero (n := unit / 16 % 16) (by omega), Nat.mod_eq_of_lt h1]
    rfl
  · rw [hstep unit (by omega)]
    by_cases h2 : unit < 256
    · rw [hlast (unit / 16) (by omega), hzero (n := unit / 4096) (by omega),
        hzero (n := unit / 256 % 16) (by omega), Nat.mod_eq_of_lt (a := unit / 16) (by omega)]
      rfl
    · rw [hstep (unit / 16) (by omega), Nat.div_div_eq_div_mul]
      by_cases h3 : unit < 4096
      · rw [hlast (unit / (16 * 16)) (by omega), hzero (n := unit / 4096) (by omega),
          Nat.mod_eq_of_lt (a := unit / 256) (by omega)]
        rfl
      · rw [hstep (unit / (16 * 16)) (by omega), Nat.div_div_eq_div_mul,
          hlast (unit / (16 * 16 * 16)) (by omega)]
        rfl

theorem readUnits_hexEscape {unit : ℕ} (h : unit < 65536) (rest : List Char) :
    readUnits (hexEscape unit ++ rest) =
      (readUnits rest).map fun found => (unit :: found.1, found.2) := by
  have hvalue : hexUnit (Nat.digitChar (unit / 4096)) (Nat.digitChar (unit / 256 % 16))
      (Nat.digitChar (unit / 16 % 16)) (Nat.digitChar (unit % 16)) = some unit := by
    rw [hexUnit, hexValue?_digitChar _ (by omega), hexValue?_digitChar _ (by omega),
      hexValue?_digitChar _ (by omega), hexValue?_digitChar _ (by omega)]
    change some _ = some unit
    congr 1
    omega
  rw [hexEscape_eq h]
  simp only [List.cons_append, List.nil_append, readUnits, hvalue]
  cases readUnits rest <;> rfl

/-- The code units to which a written character is read back. -/
def writtenUnits (charset : Charset) (c : Char) : List ℕ :=
  if (shortName c).isSome || charset.plain c then [c.toNat] else unitsOf c

theorem unitsOf_lt (c : Char) : ∀ unit ∈ unitsOf c, unit < 65536 := by
  have h : c.toNat < 0xD800 ∨ 0xDFFF < c.toNat ∧ c.toNat < 0x110000 := c.valid
  intro unit hunit
  unfold unitsOf at hunit
  split at hunit
  · simp only [List.mem_singleton] at hunit
    omega
  · simp only [List.mem_cons, List.not_mem_nil, or_false] at hunit
    omega

theorem readUnits_flatMap_hexEscape {units : List ℕ} (h : ∀ unit ∈ units, unit < 65536)
    (rest : List Char) :
    readUnits (units.flatMap hexEscape ++ rest) =
      (readUnits rest).map fun found => (units ++ found.1, found.2) := by
  induction units with
  | nil => cases hrest : readUnits rest <;> simp [hrest]
  | cons unit units ih =>
    rw [List.flatMap_cons, List.append_assoc, readUnits_hexEscape (h unit (by simp)),
      ih fun other hother => h other (by simp [hother])]
    cases readUnits rest <;> rfl

theorem shortEscape_of_shortName {c letter : Char} (h : shortName c = some letter) :
    shortEscape letter = some c ∧ letter ≠ 'u' := by
  unfold shortName at h
  split at h <;> simp at h <;> subst h <;> decide

theorem readUnits_plain {c : Char} (hspace : ' ' ≤ c) (hquote : c ≠ '"') (hslash : c ≠ '\\')
    (rest : List Char) :
    readUnits (c :: rest) = (readUnits rest).map fun found => (c.toNat :: found.1, found.2) := by
  have hcontrol : ¬c < ' ' := Char.not_lt.2 hspace
  rw [readUnits.eq_def]
  split <;> simp_all

theorem readUnits_short {c letter : Char} (h : shortName c = some letter) (rest : List Char) :
    readUnits ('\\' :: letter :: rest) =
      (readUnits rest).map fun found => (c.toNat :: found.1, found.2) := by
  obtain ⟨hback, hu⟩ := shortEscape_of_shortName h
  cases hrest : readUnits rest <;> simp [readUnits, hback, hu, hrest]

theorem readUnits_escapeChar (charset : Charset) (c : Char) (rest : List Char) :
    readUnits (escapeChar charset c ++ rest) =
      (readUnits rest).map fun found => (writtenUnits charset c ++ found.1, found.2) := by
  unfold escapeChar writtenUnits
  cases hname : shortName c with
  | some letter => simpa using readUnits_short hname rest
  | none =>
    by_cases hplain : charset.plain c
    · have hspace : ' ' ≤ c := by
        cases charset <;> simp [Charset.plain] at hplain
        · exact hplain
        · exact hplain.1
      have hquote : c ≠ '"' := by
        rintro rfl
        exact absurd hname (by decide)
      have hslash : c ≠ '\\' := by
        rintro rfl
        exact absurd hname (by decide)
      simpa [hplain] using readUnits_plain hspace hquote hslash rest
    · simpa [hplain] using readUnits_flatMap_hexEscape (unitsOf_lt c) rest

theorem joinUnits_toNat (c : Char) (rest : List ℕ) :
    joinUnits (c.toNat :: rest) = c.toNat :: joinUnits rest := by
  have hhalf := Text.isHalf_toNat c
  simp only [Text.isHalf, Bool.or_eq_false_iff] at hhalf
  cases rest with
  | nil => rfl
  | cons next rest => simp [joinUnits, hhalf.1]

/-- The units of a written character are joined to it again. -/
theorem joinUnits_writtenUnits (charset : Charset) (c : Char) (rest : List ℕ) :
    joinUnits (writtenUnits charset c ++ rest) = c.toNat :: joinUnits rest := by
  unfold writtenUnits
  split
  · exact joinUnits_toNat c rest
  · exact Text.joinUnits_unitsOf c rest

theorem readUnits_escaped (charset : Charset) (chars rest : List Char) :
    readUnits (chars.flatMap (escapeChar charset) ++ '"' :: rest) =
      some (chars.flatMap (writtenUnits charset), rest) := by
  induction chars with
  | nil => simp [readUnits]
  | cons c chars ih =>
    rw [List.flatMap_cons, List.append_assoc, readUnits_escapeChar, ih]
    rfl

theorem joinUnits_flatMap (charset : Charset) (chars : List Char) :
    joinUnits (chars.flatMap (writtenUnits charset)) = chars.map Char.toNat := by
  induction chars with
  | nil => rfl
  | cons c chars ih => rw [List.flatMap_cons, joinUnits_writtenUnits, ih, List.map_cons]

theorem ofPoints_toNat (chars : List Char) :
    Label.ofPoints (chars.map Char.toNat) = .text (String.ofList chars) := by
  have hpoints : Text.ofPoints? (chars.map Char.toNat) = some chars := by
    unfold Text.ofPoints?
    induction chars with
    | nil => rfl
    | cons c chars ih =>
      have hvalid : c.toNat.isValidChar := c.valid
      simp [hvalid, ih, Char.ofNat_toNat]
  exact Label.ofPoints_of_some hpoints

/-- A quoted text reads back to itself. -/
theorem readQuoted_escaped (charset : Charset) (s : String) (rest : List Char) :
    readQuoted (s.toList.flatMap (escapeChar charset) ++ '"' :: rest) = some (.text s, rest) := by
  have hlabel : Label.ofPoints (joinUnits (s.toList.flatMap (writtenUnits charset))) =
      .text s := by
    rw [joinUnits_flatMap, ofPoints_toNat, String.ofList_toList]
  rw [readQuoted, readUnits_escaped, Option.map_some]
  simp only [hlabel]

end Narrative.Json
