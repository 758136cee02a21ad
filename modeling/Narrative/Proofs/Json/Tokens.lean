import Narrative.Json.Token
import Narrative.Proofs.Decimal.Written
import Narrative.Proofs.Json.Quoted

/-!
# Cutting written texts

What a writer puts one behind the other is cut into the same pieces again.  Punctuation and quoted
texts end by themselves; a bare word ends where a character follows that occurs in no word, so texts
may be joined wherever the second one begins with such a character.
-/

namespace Narrative.Json

/-- No bare word goes on into the text. -/
def Stops (text : List Char) : Prop := ∀ c ∈ text.head?, isWordChar c = false

/-- The text is cut into the tokens, whatever follows it. -/
def Scans (dialect : Dialect) (text : List Char) (tokens : List Token) : Prop :=
  ∀ rest, Stops rest → ∀ steps, (text ++ rest).length ≤ steps →
    ∃ left, rest.length ≤ left ∧
      scanSteps dialect steps (text ++ rest) = tokens ++ scanSteps dialect left rest

variable {dialect : Dialect}

theorem stops_nil : Stops [] := by simp [Stops]

theorem stops_cons {c : Char} {text : List Char} (h : isWordChar c = false) :
    Stops (c :: text) := by simpa [Stops] using h

theorem Stops.append {text rest : List Char} (htext : Stops text) (hrest : Stops rest) :
    Stops (text ++ rest) := by
  cases text with
  | nil => exact hrest
  | cons c text => simpa [Stops] using htext

theorem scans_nil : Scans dialect [] [] :=
  fun _ _ steps hsteps => ⟨steps, hsteps, rfl⟩

theorem Scans.append {first second : List Char} {tokens more : List Token}
    (hfirst : Scans dialect first tokens) (hsecond : Scans dialect second more)
    (hstops : Stops second) : Scans dialect (first ++ second) (tokens ++ more) := by
  intro rest hrest steps hsteps
  rw [List.append_assoc] at hsteps ⊢
  obtain ⟨left, hleft, hscan⟩ := hfirst _ (hstops.append hrest) steps hsteps
  obtain ⟨least, hleast, hmore⟩ := hsecond rest hrest left hleft
  exact ⟨least, hleast, by rw [hscan, hmore, List.append_assoc]⟩

/-- A text that is cut on its own is cut into its tokens. -/
theorem Scans.scan {text : List Char} {tokens : List Token} (h : Scans dialect text tokens) :
    scan dialect text = tokens := by
  obtain ⟨left, -, hscan⟩ := h [] stops_nil text.length (by simp)
  rw [List.append_nil] at hscan
  rw [Json.scan, hscan, scanSteps, List.append_nil]

/-! ## Pieces -/

theorem isBlank_of_punctuation {c : Char} {token : Token} (h : punctuation c = some token) :
    isBlank c = false := by
  unfold punctuation at h
  split at h <;> first | decide | exact absurd h (by simp)

theorem Scans.punctuation {c : Char} {token : Token} {text : List Char} {tokens : List Token}
    (hc : punctuation c = some token) (h : Scans dialect text tokens) :
    Scans dialect (c :: text) (token :: tokens) := by
  intro rest hrest steps hsteps
  obtain ⟨steps, rfl⟩ : ∃ n, steps = n + 1 := ⟨steps - 1, by simp at hsteps; omega⟩
  obtain ⟨left, hleft, hscan⟩ := h rest hrest steps (by simpa using hsteps)
  refine ⟨left, hleft, ?_⟩
  simp [scanSteps, isBlank_of_punctuation hc, hc, hscan]

theorem Scans.blank {c : Char} {text : List Char} {tokens : List Token} (hc : isBlank c)
    (h : Scans dialect text tokens) : Scans dialect (c :: text) tokens := by
  intro rest hrest steps hsteps
  obtain ⟨steps, rfl⟩ : ∃ n, steps = n + 1 := ⟨steps - 1, by simp at hsteps; omega⟩
  obtain ⟨left, hleft, hscan⟩ := h rest hrest steps (by simpa using hsteps)
  refine ⟨left, hleft, ?_⟩
  simp [scanSteps, hc, hscan]

theorem Scans.blanks {blanks text : List Char} {tokens : List Token}
    (hblanks : ∀ c ∈ blanks, isBlank c) (h : Scans dialect text tokens) :
    Scans dialect (blanks ++ text) tokens := by
  induction blanks with
  | nil => exact h
  | cons c blanks ih =>
    exact (ih fun d hd => hblanks d (List.mem_cons_of_mem _ hd)).blank
      (hblanks c (List.mem_cons_self ..))

theorem scans_quote (charset : Charset) (s : String) :
    Scans dialect (quote charset s) [.text (.text s)] := by
  intro rest hrest steps hsteps
  obtain ⟨steps, rfl⟩ : ∃ n, steps = n + 1 := ⟨steps - 1, by simp [quote] at hsteps; omega⟩
  refine ⟨steps, ?_, ?_⟩
  · simp only [quote, List.cons_append, List.length_cons, List.length_append] at hsteps
    omega
  · have hread := readQuoted_escaped charset s rest
    simp only [quote, List.cons_append, List.append_assoc, List.nil_append]
    rw [scanSteps]
    simp [isBlank, Json.punctuation, hread, labelToken]

theorem scans_word {word : List Char} (hne : word ≠ []) (hword : ∀ c ∈ word, isWordChar c) :
    Scans dialect word [wordToken dialect word] := by
  intro rest hrest steps hsteps
  obtain ⟨steps, rfl⟩ : ∃ n, steps = n + 1 := by
    refine ⟨steps - 1, ?_⟩
    have := List.length_pos_of_ne_nil hne
    rw [List.length_append] at hsteps
    omega
  have hstop : rest.takeWhile isWordChar = [] ∧ rest.dropWhile isWordChar = rest := by
    cases rest with
    | nil => exact ⟨rfl, rfl⟩
    | cons c rest =>
      have hc := hrest c rfl
      simp [hc]
  have htake : (word ++ rest).takeWhile isWordChar = word := by
    rw [List.takeWhile_append_of_pos hword, hstop.1, List.append_nil]
  have hdrop : (word ++ rest).dropWhile isWordChar = rest := by
    rw [List.dropWhile_append_of_pos hword, hstop.2]
  obtain ⟨c, tail, rfl⟩ := List.exists_cons_of_ne_nil hne
  have hc : isBlank c = false ∧ punctuation c = none ∧ c ≠ '"' := by
    simpa [isWordChar, and_assoc] using hword c (List.mem_cons_self ..)
  refine ⟨steps, ?_, ?_⟩
  · simp only [List.cons_append, List.length_cons, List.length_append] at hsteps
    omega
  · rw [List.cons_append] at htake hdrop ⊢
    rw [scanSteps]
    simp [hc.1, hc.2.1, hc.2.2, htake, hdrop]

theorem isWordChar_of_isNumeralChar {c : Char} (h : Numeral.isNumeralChar c) : isWordChar c := by
  simp only [Numeral.isNumeralChar, Bool.or_eq_true, decide_eq_true_eq] at h
  rcases h with (((h | rfl) | rfl) | rfl) | rfl
  · have hne {d : Char} (hd : d.isDigit = false) : c ≠ d := Numeral.ne_of_isDigit h hd
    have hpunctuation : punctuation c = none := by
      unfold punctuation
      split <;> first | rfl | exact absurd rfl (hne (by decide))
    simp [isWordChar, isBlank, hpunctuation, hne]
  all_goals decide

theorem ne_of_mem_of_isNumeralChar {word name : List Char} {c : Char} (hc : c ∈ name)
    (hnot : Numeral.isNumeralChar c = false) (hword : ∀ c ∈ word, Numeral.isNumeralChar c) :
    word ≠ name := by
  rintro rfl
  rw [hword c hc] at hnot
  exact absurd hnot (by decide)

/-- A plain numeral that is not too long is a word of its value. -/
theorem wordToken_chars {numeral : Numeral} (h : numeral.Regular) (hplain : numeral.isPlain)
    (hlength : numeral.whole.length ≤ Numeral.digitLimit) :
    wordToken dialect numeral.chars = .word (ofNumeral numeral) := by
  have hchars := Numeral.isNumeralChar_of_mem h
  have hne {name : List Char} (c : Char) (hc : c ∈ name)
      (hnot : Numeral.isNumeralChar c = false) : numeral.chars ≠ name :=
    ne_of_mem_of_isNumeralChar hc hnot hchars
  have hshort := Numeral.beginsOverlong_chars h hlength
  have hrefuses : dialect.refusesLength numeral.chars = false := by
    unfold Dialect.refusesLength Numeral.beginsOverlongInteger
    rw [hshort, Bool.false_and, ite_self]
  unfold wordToken
  rw [if_neg (hne 'n' (by decide) (by decide)), if_neg (hne 't' (by decide) (by decide)),
    if_neg (hne 'f' (by decide) (by decide)), if_neg (hne 'N' (by decide) (by decide)),
    if_neg (hne 'I' (by decide) (by decide)), if_neg (hne 'I' (by decide) (by decide)),
    hrefuses, Numeral.ofChars?_chars h]
  simp [hplain]

theorem scans_numeral {numeral : Numeral} (h : numeral.Regular) (hplain : numeral.isPlain)
    (hlength : numeral.whole.length ≤ Numeral.digitLimit) :
    Scans dialect numeral.chars [.word (ofNumeral numeral)] := by
  have hne : numeral.chars ≠ [] := by simp [Numeral.chars, h.whole_ne_nil]
  have hword : ∀ c ∈ numeral.chars, isWordChar c := fun c hc =>
    isWordChar_of_isNumeralChar (Numeral.isNumeralChar_of_mem h c hc)
  have hscans : Scans dialect numeral.chars [wordToken dialect numeral.chars] :=
    scans_word hne hword
  rwa [wordToken_chars h hplain hlength] at hscans

/-- A finite number is written as the word of that number. -/
theorem scans_number {x : Float} (hx : Decimal.isFinite x) :
    Scans dialect (Decimal.Style.stored.write x) [.word (.num x)] := by
  obtain ⟨numeral, hnumeral, hchars, hvalue⟩ :=
    Decimal.write_shape (by decide : Decimal.Style.stored.bound ≤ 16) hx
  have hscans : Scans dialect numeral.chars [.word (ofNumeral numeral)] :=
    scans_numeral hnumeral.toRegular hnumeral.plain hnumeral.short
  rwa [hchars, ofNumeral, if_neg (by simp [hnumeral.notInteger]), hvalue] at hscans

/-- The numeral of an integer. -/
def integerNumeral (n : ℤ) : Numeral :=
  ⟨if n < 0 then some '-' else none, Nat.toDigits 10 n.natAbs, none, none⟩

theorem chars_integerNumeral (n : ℤ) : (integerNumeral n).chars = (toString n).toList := by
  rw [Int.toString_eq_repr, Int.repr_eq_if]
  by_cases h : n < 0
  · have habs : n.natAbs = (-n).toNat := by omega
    rw [if_neg (by omega)]
    simp [integerNumeral, Numeral.chars, Numeral.fractionChars, Numeral.exponentChars, h, habs]
  · have habs : n.natAbs = n.toNat := by omega
    rw [if_pos (by omega)]
    simp [integerNumeral, Numeral.chars, Numeral.fractionChars, Numeral.exponentChars, h, habs]

theorem toInt_integerNumeral (n : ℤ) : (integerNumeral n).toInt = n := by
  unfold Numeral.toInt integerNumeral Numeral.isNegative
  simp only [Nat.ofDigitChars_ten_toDigits]
  by_cases h : n < 0
  · simp only [h, if_true, decide_true]
    omega
  · simp only [h, if_false]
    rw [if_neg (by decide)]
    omega

theorem scans_integer {n : ℤ} (hn : n.natAbs < 10 ^ Numeral.digitLimit) :
    Scans dialect (toString n).toList [.word (.int n)] := by
  have hdigits : ∀ c ∈ Nat.toDigits 10 n.natAbs, c.isDigit := fun c hc =>
    Nat.isDigit_of_mem_toDigits (by decide) (by decide) hc
  have hregular : (integerNumeral n).Regular := by
    refine ⟨?_, hdigits, Nat.toDigits_ne_nil, by simp [integerNumeral],
      by simp [integerNumeral]⟩
    by_cases h : n < 0 <;> simp [integerNumeral, h]
  have hlength : (integerNumeral n).whole.length ≤ Numeral.digitLimit :=
    (Nat.length_toDigits_le_iff (by decide) (by decide)).2 hn
  have hplain : (integerNumeral n).isPlain := by
    have hhead : (Nat.toDigits 10 n.natAbs).head? = some '0' →
        Nat.toDigits 10 n.natAbs = ['0'] := by
      intro e
      by_cases hzero : n.natAbs = 0
      · rw [hzero, Nat.toDigits_zero]
      · exact absurd e (Decimal.head?_toDigits_ne_zero (Nat.pos_of_ne_zero hzero))
    have hunsigned : Numeral.isPlain ⟨none, Nat.toDigits 10 n.natAbs, none, none⟩ :=
      Numeral.isPlain_of_head Nat.toDigits_ne_nil hhead (by simp) (by simp)
    by_cases h : n < 0
    · simpa [Numeral.isPlain, integerNumeral, h, Numeral.exponentComplete] using hunsigned
    · simpa [integerNumeral, h] using hunsigned
  have hscans : Scans dialect (integerNumeral n).chars [.word (ofNumeral (integerNumeral n))] :=
    scans_numeral hregular hplain hlength
  rwa [chars_integerNumeral, ofNumeral, if_pos (by rfl), toInt_integerNumeral] at hscans

end Narrative.Json
