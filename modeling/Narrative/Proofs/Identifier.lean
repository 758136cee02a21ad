import Mathlib.Data.List.Basic
import Mathlib.Tactic.Ring
import Narrative.Identifier
import Narrative.Proofs.Json.Quoted
import Narrative.Proofs.Text.Hexadecimal

/-!
# Spellings of identifiers

Requests may spell an identifier in several forms.  The catalog is read more liberally: it takes
every text whose characters, without hyphens, braces at the ends and the words `urn:` and `uuid:`,
are 32 digits.  So it takes all forms that requests may use, reads the same identifier from them,
and in particular reads the canonical spelling back.  Beyond that it takes whatever spells an
integer in 32 characters, of which nothing is said here.
-/

namespace Narrative.Identifier

variable {word text digits : List Char} {c : Char} {id other : Identifier}

theorem ofDigits?_eq_some (h : ofDigits? digits = some id) : digits.length = 32 ∧
    ∃ values, digits.mapM Text.hexValue? = some values ∧
      id = ⟨BitVec.ofNat 128 (values.foldl (fun n digit => n * 16 + digit) 0)⟩ := by
  unfold ofDigits? at h
  split at h
  case isTrue hlength =>
    obtain ⟨values, hvalues, hid⟩ := Option.map_eq_some_iff.1 h
    exact ⟨hlength, values, hvalues, hid.symm⟩
  case isFalse => exact nomatch h

theorem exists_hexValue? (h : ofDigits? digits = some id) (hc : c ∈ digits) :
    ∃ digit, Text.hexValue? c = some digit := by
  obtain ⟨-, values, hvalues, -⟩ := ofDigits?_eq_some h
  exact Text.exists_of_mapM_hexValue? hvalues hc

theorem ne_hyphen_of_mem (h : ofDigits? digits = some id) (hc : c ∈ digits) : c ≠ '-' := by
  obtain ⟨digit, hdigit⟩ := exists_hexValue? h hc
  exact Text.ne_of_hexValue? hdigit (by decide)

theorem length_hexDigits (count n : ℕ) : (hexDigits count n).length = count := by
  simp [hexDigits]

theorem hexDigits_succ (count n : ℕ) :
    hexDigits (count + 1) n = hexDigit (n / 16 ^ count) :: hexDigits count n := by
  simp [hexDigits, List.range_succ]

/-- The last digits of a number spell its remainder. -/
theorem mapM_hexDigits (count n : ℕ) :
    ∃ values, (hexDigits count n).mapM Text.hexValue? = some values ∧ ∀ value,
      values.foldl (fun n digit => n * 16 + digit) value = value * 16 ^ count + n % 16 ^ count := by
  induction count with
  | zero => exact ⟨[], rfl, fun value => by simp [Nat.mod_one]⟩
  | succ count ih =>
    obtain ⟨values, hvalues, hfold⟩ := ih
    refine ⟨n / 16 ^ count % 16 :: values, ?_, fun value => ?_⟩
    · rw [hexDigits_succ, List.mapM_cons, hexDigit,
        Json.hexValue?_digitChar _ (Nat.mod_lt _ (by decide)), hvalues]
      rfl
    · calc
        _ = (value * 16 + n / 16 ^ count % 16) * 16 ^ count + n % 16 ^ count := hfold _
        _ = value * 16 ^ (count + 1) + (n % 16 ^ count + 16 ^ count * (n / 16 ^ count % 16)) := by
          ring
        _ = value * 16 ^ (count + 1) + n % 16 ^ (count + 1) := by rw [Nat.mod_pow_succ]

theorem ofDigits?_hexDigits (id : Identifier) :
    ofDigits? (hexDigits 32 id.value.toNat) = some id := by
  obtain ⟨values, hvalues, hfold⟩ := mapM_hexDigits 32 id.value.toNat
  have hvalue : id.value.toNat % 16 ^ 32 = id.value.toNat := Nat.mod_eq_of_lt id.value.isLt
  rw [ofDigits?, if_pos (length_hexDigits _ _), hvalues, Option.map_some, hfold, hvalue,
    Nat.zero_mul, Nat.zero_add, BitVec.ofNat_toNat, BitVec.setWidth_eq]

theorem length_hyphenate (h : digits.length = 32) : (hyphenate digits).length = 36 := by
  simp only [hyphenate, List.length_append, List.length_cons, List.length_take, List.length_drop]
  omega

theorem length_spelling (id : Identifier) : id.spelling.toList.length = 36 := by
  rw [spelling, String.toList_ofList]
  exact length_hyphenate (length_hexDigits _ _)

theorem groups_append (digits : List Char) : digits.take 8 ++ ((digits.drop 8).take 4 ++
    ((digits.drop 12).take 4 ++ ((digits.drop 16).take 4 ++ digits.drop 20))) = digits := by
  conv_rhs => rw [← List.take_append_drop 8 digits, ← List.take_append_drop 4 (digits.drop 8),
    List.drop_drop, ← List.take_append_drop 4 (digits.drop (8 + 4)), List.drop_drop,
    ← List.take_append_drop 4 (digits.drop (8 + 4 + 4)), List.drop_drop]

/-- Without the hyphens the digits are left. -/
theorem filter_hyphenate (h : ∀ c ∈ digits, c ≠ '-') :
    (hyphenate digits).filter (· ≠ '-') = digits := by
  have hkeep {part : List Char} (hpart : part ⊆ digits) : part.filter (· ≠ '-') = part :=
    List.filter_eq_self.2 fun c hc => decide_eq_true (h c (hpart hc))
  have hgroup (n : ℕ) : ((digits.drop n).take 4).filter (· ≠ '-') = (digits.drop n).take 4 :=
    hkeep fun _ hc => List.mem_of_mem_drop (List.mem_of_mem_take hc)
  have hskip (rest : List Char) : ('-' :: rest).filter (· ≠ '-') = rest.filter (· ≠ '-') := rfl
  conv_rhs => rw [← groups_append digits]
  simp only [hyphenate, List.append_assoc, List.cons_append, List.filter_append, hskip, hgroup,
    hkeep (List.take_subset 8 digits), hkeep (List.drop_subset 20 digits)]

theorem removeWord_of_notMem (hc : c ∈ word) (h : c ∉ text) : removeWord word text = text := by
  induction text with
  | nil => rw [removeWord]
  | cons first rest ih =>
    have hword : ¬word.isPrefixOf (first :: rest) := fun hprefix =>
      h ((List.isPrefixOf_iff_prefix.1 hprefix).subset hc)
    rw [removeWord, if_neg hword, ih fun hmem => h (List.mem_cons_of_mem first hmem)]

theorem removeWord_append (hword : word ≠ []) (text : List Char) :
    removeWord word (word ++ text) = removeWord word text := by
  obtain ⟨first, rest, rfl⟩ := List.exists_cons_of_ne_nil hword
  have hprefix : (first :: rest).isPrefixOf (first :: (rest ++ text)) :=
    List.isPrefixOf_iff_prefix.2 (List.prefix_append (first :: rest) text)
  rw [List.cons_append, removeWord, if_pos hprefix]
  simp

/-! ## What the catalog takes -/

section Liberal

variable {left right : List Char} (hid : ofDigits? (text.filter (· ≠ '-')) = some id)
  (hleft : ∀ c ∈ left, c = '\x7b' ∨ c = '\x7d') (hright : ∀ c ∈ right, c = '\x7b' ∨ c = '\x7d')

include hid

theorem eq_or_exists_of_mem (hc : c ∈ text) :
    c = '-' ∨ ∃ digit, Text.hexValue? c = some digit := by
  by_cases hhyphen : c = '-'
  · exact Or.inl hhyphen
  · exact Or.inr (exists_hexValue? hid (List.mem_filter.2 ⟨hc, decide_eq_true hhyphen⟩))

include hleft hright

/-- Other letters do not occur among digits, hyphens and braces. -/
theorem notMem_dressed (hdigit : Text.hexValue? c = none) (hother : c ∉ ['-', '\x7b', '\x7d']) :
    c ∉ left ++ (text ++ right) := by
  simp only [List.mem_cons, List.not_mem_nil, or_false, not_or] at hother
  obtain ⟨hhyphen, hopen, hclose⟩ := hother
  simp only [List.mem_append, not_or]
  refine ⟨fun hmem => (hleft c hmem).elim hopen hclose, fun hmem => ?_,
    fun hmem => (hright c hmem).elim hopen hclose⟩
  rcases eq_or_exists_of_mem hid hmem with heq | ⟨digit, heq⟩
  · exact hhyphen heq
  · exact nomatch hdigit.symm.trans heq

theorem ofLooseText?_of_removeWord {spelled : List Char}
    (hspelled : removeWord "uuid:".toList (removeWord "urn:".toList spelled) =
      left ++ (text ++ right)) :
    ofLooseText? (String.ofList spelled) = some id := by
  obtain ⟨hlength, values, hvalues, hvalue⟩ := ofDigits?_eq_some hid
  have hdigits : text.filter (· ≠ '-') ≠ [] := by
    intro hnil
    rw [hnil] at hlength
    exact absurd hlength (by decide)
  have htext : ∀ c ∈ text, (decide (c = '\x7b') || decide (c = '\x7d')) = false := by
    intro c hc
    rcases eq_or_exists_of_mem hid hc with rfl | ⟨digit, hdigit⟩
    · decide
    · have hopen : c ≠ '\x7b' := Text.ne_of_hexValue? hdigit (by decide)
      have hclose : c ≠ '\x7d' := Text.ne_of_hexValue? hdigit (by decide)
      simp [hopen, hclose]
  have htrim : Text.trimBy (fun c => decide (c = '\x7b') || decide (c = '\x7d'))
      (left ++ (text ++ right)) = text := by
    refine Text.trimBy_append (fun c hc => ?_) (fun c hc => ?_) htext ?_
    · simpa using hleft c hc
    · simpa using hright c hc
    · rintro rfl
      exact hdigits rfl
  unfold ofLooseText?
  simp only [String.toList_ofList, hspelled, htrim, hlength, if_true,
    Text.integer?_of_mapM hvalues hdigits, hvalue]

/-- There may be hyphens anywhere among the digits, and braces around them. -/
theorem ofLooseText?_dressed :
    ofLooseText? (String.ofList (left ++ (text ++ right))) = some id := by
  have hurn : 'r' ∉ left ++ (text ++ right) :=
    notMem_dressed hid hleft hright (by decide) (by decide)
  have huuid : 'u' ∉ left ++ (text ++ right) :=
    notMem_dressed hid hleft hright (by decide) (by decide)
  refine ofLooseText?_of_removeWord hid hleft hright ?_
  rw [removeWord_of_notMem (by decide) hurn, removeWord_of_notMem (by decide) huuid]

/-- There may also be `urn:uuid:` in front. -/
theorem ofLooseText?_named :
    ofLooseText? (String.ofList ("urn:uuid:".toList ++ (left ++ (text ++ right)))) = some id := by
  have hsplit : "urn:uuid:".toList = "urn:".toList ++ "uuid:".toList := rfl
  have hurn : 'r' ∉ "uuid:".toList ++ (left ++ (text ++ right)) := by
    intro hmem
    rcases List.mem_append.1 hmem with hmem | hmem
    · exact absurd hmem (by decide)
    · exact notMem_dressed hid hleft hright (by decide) (by decide) hmem
  have huuid : 'u' ∉ left ++ (text ++ right) :=
    notMem_dressed hid hleft hright (by decide) (by decide)
  refine ofLooseText?_of_removeWord hid hleft hright ?_
  rw [hsplit, List.append_assoc, removeWord_append (by decide),
    removeWord_of_notMem (by decide) hurn, removeWord_append (by decide),
    removeWord_of_notMem (by decide) huuid]

end Liberal

theorem ofLooseText?_of_filter {text : String}
    (hid : ofDigits? (text.toList.filter (· ≠ '-')) = some id) : ofLooseText? text = some id := by
  have hempty : ∀ c ∈ ([] : List Char), c = '\x7b' ∨ c = '\x7d' :=
    fun _ hc => absurd hc List.not_mem_nil
  simpa using ofLooseText?_dressed hid hempty hempty

/-- The canonical spelling is read back. -/
theorem ofLooseText?_spelling (id : Identifier) : ofLooseText? id.spelling = some id := by
  have hdigits := ofDigits?_hexDigits id
  refine ofLooseText?_of_filter ?_
  rw [spelling, String.toList_ofList, filter_hyphenate fun c hc => ne_hyphen_of_mem hdigits hc,
    hdigits]

theorem spelling_injective (h : id.spelling = other.spelling) : id = other := by
  have hread := ofLooseText?_spelling id
  rw [h, ofLooseText?_spelling] at hread
  exact (Option.some.inj hread).symm

/-! ## What requests take -/

theorem ofDigits?_of_ofHyphenated? (h : ofHyphenated? text = some id) :
    ofDigits? (text.filter (· ≠ '-')) = some id := by
  simp only [ofHyphenated?] at h
  split at h
  case isTrue hform =>
    have hfilter := filter_hyphenate fun c hc => ne_hyphen_of_mem h hc
    rw [hform.2] at hfilter
    rw [hfilter, h]
  case isFalse => exact nomatch h

theorem eq_between {first last : Char} (hfirst : text.head? = some first)
    (hlast : text.getLast? = some last) (hlength : 2 ≤ text.length) :
    text = [first] ++ ((text.drop 1).dropLast ++ [last]) := by
  match text with
  | c :: d :: rest =>
    obtain rfl : c = first := Option.some.inj hfirst
    have hrest : last ∈ (d :: rest).getLast? := hlast
    rw [List.drop_one, List.tail_cons, List.dropLast_append_getLast? last hrest]
    rfl

/-- What requests may use is read alike in the catalog. -/
theorem ofLooseText?_of_ofText? {text : String} (h : ofText? text = some id) :
    ofLooseText? text = some id := by
  have hempty : ∀ c ∈ ([] : List Char), c = '\x7b' ∨ c = '\x7d' :=
    fun _ hc => absurd hc List.not_mem_nil
  simp only [ofText?] at h
  split at h
  case isTrue =>
    refine ofLooseText?_of_filter ?_
    rw [List.filter_eq_self.2 fun c hc => decide_eq_true (ne_hyphen_of_mem h hc), h]
  case isFalse =>
    split at h
    case isTrue => exact ofLooseText?_of_filter (ofDigits?_of_ofHyphenated? h)
    case isFalse =>
      split at h
      case isTrue hbraced =>
        have hopen : ∀ c ∈ ['\x7b'], c = '\x7b' ∨ c = '\x7d' := by simp
        have hclose : ∀ c ∈ ['\x7d'], c = '\x7b' ∨ c = '\x7d' := by simp
        have hread := ofLooseText?_dressed (ofDigits?_of_ofHyphenated? h) hopen hclose
        rwa [← eq_between hbraced.2.1 hbraced.2.2 (by omega), String.ofList_toList] at hread
      case isFalse =>
        split at h
        case isTrue hnamed =>
          have hread := ofLooseText?_named (ofDigits?_of_ofHyphenated? h) hempty hempty
          rwa [List.nil_append, List.append_nil, ← hnamed.2, List.take_append_drop,
            String.ofList_toList] at hread
        case isFalse => exact nomatch h

end Narrative.Identifier
