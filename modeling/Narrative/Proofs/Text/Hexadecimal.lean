import Mathlib.Data.List.TakeWhile
import Narrative.Text.Integer

/-!
# Hexadecimal digits as integers

Written integers in base sixteen may have white space around them, a sign, a mark of the base, and
digits of any script.  Where there are hexadecimal digits of ASCII only, nothing of this plays a
role: the integer is the value of the digits, from left to right.
-/

namespace Narrative.Text

variable {c : Char} {digit value : ℕ} {text digits : List Char} {values : List ℕ}

theorem toNat_lt_of_hexValue? (h : hexValue? c = some digit) : c.toNat < 0x80 := by
  have hc : c.val.toNat = c.toNat := rfl
  have hnine : '9'.val.toNat = 0x39 := rfl
  have hlower : 'f'.val.toNat = 0x66 := rfl
  have hupper : 'F'.val.toNat = 0x46 := rfl
  simp only [hexValue?, Char.isDigit, Char.le_def, UInt32.le_iff_toNat_le, Bool.and_eq_true,
    decide_eq_true_eq] at h
  split at h
  case isTrue hdigit =>
    have hle := hdigit.2
    omega
  case isFalse =>
    split at h
    case isTrue hdigit => omega
    case isFalse =>
      split at h
      case isTrue hdigit => omega
      case isFalse => exact nomatch h

theorem ascii_hexDigits : ∀ n < 0x80, (hexValue? (Char.ofNat n)).isSome →
    digitIn? 16 (Char.ofNat n) = hexValue? (Char.ofNat n) ∧
      isWhiteSpace (Char.ofNat n) = false := by
  decide +kernel

theorem digitIn?_of_hexValue? (h : hexValue? c = some digit) : digitIn? 16 c = some digit := by
  have hascii := ascii_hexDigits _ (toNat_lt_of_hexValue? h)
  rw [Char.ofNat_toNat, h] at hascii
  exact (hascii rfl).1

theorem isWhiteSpace_of_hexValue? (h : hexValue? c = some digit) : isWhiteSpace c = false := by
  have hascii := ascii_hexDigits _ (toNat_lt_of_hexValue? h)
  rw [Char.ofNat_toNat, h] at hascii
  exact (hascii rfl).2

theorem ne_of_hexValue? (h : hexValue? c = some digit) {other : Char}
    (hother : hexValue? other = none) : c ≠ other := by
  rintro rfl
  exact nomatch h.symm.trans hother

theorem dropWhile_append {blank : Char → Bool} {left right : List Char}
    (hleft : ∀ c ∈ left, blank c) (htext : ∀ c ∈ text, blank c = false) (hne : text ≠ []) :
    (left ++ (text ++ right)).dropWhile blank = text ++ right := by
  obtain ⟨first, rest, rfl⟩ := List.exists_cons_of_ne_nil hne
  have hfirst : ¬blank first := by simp [htext first List.mem_cons_self]
  rw [List.dropWhile_append_of_pos hleft, List.cons_append, List.dropWhile_cons_of_neg hfirst]

/-- What is blank goes away on both sides of a text without blanks. -/
theorem trimBy_append {blank : Char → Bool} {left right : List Char}
    (hleft : ∀ c ∈ left, blank c) (hright : ∀ c ∈ right, blank c)
    (htext : ∀ c ∈ text, blank c = false) (hne : text ≠ []) :
    trimBy blank (left ++ (text ++ right)) = text := by
  have hreverse : (right.reverse ++ (text.reverse ++ [])).dropWhile blank = text.reverse ++ [] :=
    dropWhile_append (fun c hc => hright c (List.mem_reverse.1 hc))
      (fun c hc => htext c (List.mem_reverse.1 hc)) (mt List.reverse_eq_nil_iff.1 hne)
  rw [List.append_nil] at hreverse
  rw [trimBy, dropWhile_append hleft htext hne, List.reverse_append, hreverse, List.reverse_reverse]

/-! ## Integers -/

theorem exists_of_mapM_hexValue? (h : digits.mapM hexValue? = some values) (hc : c ∈ digits) :
    ∃ digit, hexValue? c = some digit := by
  induction digits generalizing values with
  | nil => exact absurd hc List.not_mem_nil
  | cons first rest ih =>
    simp only [List.mapM_cons, Option.bind_eq_bind, Option.bind_eq_some_iff] at h
    obtain ⟨digit, hfirst, values, hrest, -⟩ := h
    rcases List.mem_cons.1 hc with rfl | hmem
    · exact ⟨digit, hfirst⟩
    · exact ih hrest hmem

theorem digitsFrom_of_mapM (h : digits.mapM hexValue? = some values) {awaiting : Bool}
    (hne : digits ≠ [] ∨ awaiting = false) : digitsFrom 16 value awaiting digits =
      some (values.foldl (fun n digit => n * 16 + digit) value) := by
  induction digits generalizing value awaiting values with
  | nil =>
    obtain rfl : [] = values := Option.some.inj h
    rw [digitsFrom, hne.resolve_left (fun h => h rfl)]
    rfl
  | cons first rest ih =>
    simp only [List.mapM_cons, Option.bind_eq_bind, Option.bind_eq_some_iff] at h
    obtain ⟨digit, hfirst, values, hrest, hvalues⟩ := h
    obtain rfl := Option.some.inj hvalues
    rw [digitsFrom, if_neg (ne_of_hexValue? hfirst (by decide)), digitIn?_of_hexValue? hfirst]
    exact ih hrest (Or.inr rfl)

theorem skipBaseMark_of_mapM (h : digits.mapM hexValue? = some values) :
    skipBaseMark digits = digits := by
  match digits with
  | [] | [_] => rfl
  | zero :: x :: rest =>
    obtain ⟨digit, hx⟩ := exists_of_mapM_hexValue? h (List.mem_cons_of_mem zero List.mem_cons_self)
    have hlower : x ≠ 'x' := ne_of_hexValue? hx (by decide)
    have hupper : x ≠ 'X' := ne_of_hexValue? hx (by decide)
    simp [skipBaseMark, hlower, hupper]

theorem trim_of_mapM (h : digits.mapM hexValue? = some values) (hne : digits ≠ []) :
    trim digits = digits := by
  have hempty : ∀ c ∈ ([] : List Char), isWhiteSpace c := fun _ hc => absurd hc List.not_mem_nil
  have hdigits : ∀ c ∈ digits, isWhiteSpace c = false := by
    intro c hc
    obtain ⟨digit, hdigit⟩ := exists_of_mapM_hexValue? h hc
    exact isWhiteSpace_of_hexValue? hdigit
  simpa [trim] using trimBy_append hempty hempty hdigits hne

/-- The integer that hexadecimal digits spell. -/
theorem integer?_of_mapM (h : digits.mapM hexValue? = some values) (hne : digits ≠ []) :
    integer? 16 digits = some (.ofNat (values.foldl (fun n digit => n * 16 + digit) 0)) := by
  have hunsigned (sign : Char) (hsign : hexValue? sign = none) (rest : List Char) :
      digits ≠ sign :: rest := by
    rintro rfl
    obtain ⟨digit, hdigit⟩ := exists_of_mapM_hexValue? h List.mem_cons_self
    exact ne_of_hexValue? hdigit hsign rfl
  unfold integer?
  rw [trim_of_mapM h hne]
  simp only [if_true]
  split
  case h_1 rest => exact absurd rfl (hunsigned '+' (by decide) rest)
  case h_2 rest => exact absurd rfl (hunsigned '-' (by decide) rest)
  case h_3 =>
    rw [skipBaseMark_of_mapM h, digitsFrom_of_mapM h (Or.inl hne)]
    rfl

end Narrative.Text
