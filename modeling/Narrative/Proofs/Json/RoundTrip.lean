import Mathlib.Data.List.Forall2
import Narrative.Json.Reader
import Narrative.Json.Writer
import Narrative.Proofs.Json.Tokens
import Narrative.Proofs.Table

/-!
# Written documents read back

Reading the stored text of a document gives the document itself, except that a number which is not
finite has become `null`.  The document has to be one that can be stored: its strings are texts, its
integers are not too long, and its containers are not nested too deep.  Lists of names read back to
the same names.
-/

namespace Narrative.Json

mutual

/-- The value that is left of a document when it is stored. -/
def settled : Json → Json
  | num value => if Decimal.isFinite value then num value else null
  | arr items => arr (settledItems items)
  | obj fields => obj (settledFields fields)
  | value => value

def settledItems : List Json → List Json
  | [] => []
  | item :: rest => settled item :: settledItems rest

def settledFields : List (Label × Json) → List (Label × Json)
  | [] => []
  | (name, value) :: rest => (name, settled value) :: settledFields rest

end

/-- A document that can be stored, with containers nested up to a number of levels. -/
inductive Fits : ℕ → Json → Prop where
  | null (levels : ℕ) : Fits levels .null
  | bool (levels : ℕ) (value : Bool) : Fits levels (.bool value)
  | int (levels : ℕ) {value : ℤ} (h : value.natAbs < 10 ^ Numeral.digitLimit) :
      Fits levels (.int value)
  | num (levels : ℕ) (value : Float) : Fits levels (.num value)
  | str (levels : ℕ) (value : String) : Fits levels (.str value)
  | arr {levels : ℕ} {items : List Json} (h : ∀ item ∈ items, Fits levels item) :
      Fits (levels + 1) (.arr items)
  | obj {levels : ℕ} {fields : Fields} (hnames : (fields.map Prod.fst).Nodup)
      (htexts : ∀ field ∈ fields, ∃ name : String, field.1 = name)
      (h : ∀ field ∈ fields, Fits levels field.2) : Fits (levels + 1) (.obj fields)

theorem settledItems_eq_map (items : List Json) : settledItems items = items.map settled := by
  induction items with
  | nil => rfl
  | cons item rest ih => rw [settledItems, ih, List.map_cons]

theorem settledFields_eq_map (fields : Fields) :
    settledFields fields = fields.map fun field => (field.1, settled field.2) := by
  induction fields with
  | nil => rfl
  | cons field rest ih => rw [settledFields, ih, List.map_cons]

theorem writeItems_eq_map (number : Float → List Char) (items : List Json) :
    writeItems number items = items.map (writeWith number) := by
  induction items with
  | nil => rfl
  | cons item rest ih => rw [writeItems, ih, List.map_cons]

/-- The text of a field. -/
def fieldChars (field : Label × Json) : List Char :=
  quoteLabel .unicode field.1 ++ ':' :: writeWith storedNumber field.2

theorem writeFields_eq_map (fields : Fields) :
    writeFields storedNumber fields = fields.map fieldChars := by
  induction fields with
  | nil => rfl
  | cons field rest ih => rw [writeFields, ih, List.map_cons, fieldChars]

/-! ## Values from tokens -/

variable {dialect : Dialect} {levels : ℕ}

/-- The tokens are those of a value, wherever it stands. -/
structure Builds (dialect : Dialect) (levels : ℕ) (tokens : List Token) (value : Json) : Prop where
  opens : ∃ first more, tokens = first :: more ∧ first ≠ .closeArray
  build_append : ∀ stack rest, stack.length + levels ≤ dialect.nesting →
    build dialect stack .value (tokens ++ rest) = build dialect stack (.separator value) rest

/-- The text is cut into the tokens of a value. -/
def Spells (dialect : Dialect) (levels : ℕ) (text : List Char) (value : Json) : Prop :=
  ∃ tokens, Scans dialect text tokens ∧ Builds dialect levels tokens value

theorem builds_word (value : Json) : Builds dialect levels [.word value] value where
  opens := ⟨_, _, rfl, by simp⟩
  build_append _ _ _ := by simp [build]

theorem builds_text (s : String) : Builds dialect levels [.text (.text s)] (.str s) where
  opens := ⟨_, _, rfl, by simp⟩
  build_append _ _ _ := by simp [build, ofLabel]

theorem opening_eq {level : ℕ} (h : level ≤ dialect.nesting) (next : Except Flaw Json) :
    dialect.opening level next = next := by
  simp [Dialect.opening, Dialect.atLevel, h]

theorem atLevel_eq {level : ℕ} (h : level ≤ dialect.nesting) (next : Except Flaw Json) :
    dialect.atLevel level next = next := by
  simp [Dialect.atLevel, h]

/-- Behind the opening of an array the first item is read like every other one. -/
theorem build_itemOrClose {stack : List Frame} {token : Token} (rest : List Token)
    (htoken : token ≠ .closeArray) (hlevel : stack.length + 1 ≤ dialect.nesting) :
    build dialect stack .itemOrClose (token :: rest) =
      build dialect (.items [] :: stack) .value (token :: rest) := by
  cases token <;> simp [build, atLevel_eq hlevel] at htoken ⊢

theorem spells_items {texts : List (List Char)} {values : List Json}
    (h : List.Forall₂ (Spells dialect levels) texts values) (hne : texts ≠ []) {blanks : List Char}
    (hblanks : ∀ c ∈ blanks, isBlank c) :
    ∃ tokens, Scans dialect (separated (',' :: blanks) texts) tokens ∧
      (∃ first more, tokens = first :: more ∧ first ≠ .closeArray) ∧
      ∀ stack read rest, stack.length + 1 + levels ≤ dialect.nesting →
        build dialect (.items read :: stack) .value (tokens ++ .closeArray :: rest) =
          build dialect stack (.separator (.arr (read.reverse ++ values))) rest := by
  induction h with
  | nil => exact absurd rfl hne
  | @cons text value texts values hitem hrest ih =>
    obtain ⟨tokens, hscans, hbuilds⟩ := hitem
    cases hrest with
    | nil =>
      refine ⟨tokens, hscans, hbuilds.opens, ?_⟩
      intro stack read rest hlevel
      rw [hbuilds.build_append _ _ (by simpa using hlevel)]
      simp [build]
    | @cons next second texts values hnext hmore =>
      obtain ⟨others, hothers, -, hbuild⟩ := ih (by simp)
      obtain ⟨first, more, rfl, hfirst⟩ := hbuilds.opens
      refine ⟨first :: more ++ .comma :: others, ?_, ⟨first, _, rfl, hfirst⟩, ?_⟩
      · have hcomma : Scans dialect (',' :: (blanks ++ separated (',' :: blanks) (next :: texts)))
            (.comma :: others) := (hothers.blanks hblanks).punctuation rfl
        have hscans := hscans.append hcomma (stops_cons (by decide))
        simpa only [separated, List.append_assoc, List.cons_append] using hscans
      · intro stack read rest hlevel
        rw [List.append_assoc, hbuilds.build_append _ _ (by simpa using hlevel)]
        simp only [List.cons_append, build]
        rw [hbuild stack (value :: read) rest hlevel, List.reverse_cons, List.append_assoc]
        rfl

/-- Written items in brackets are an array. -/
theorem spells_arr (blanks : List Char) {texts : List (List Char)} {values : List Json}
    (h : List.Forall₂ (Spells dialect levels) texts values) (hblanks : ∀ c ∈ blanks, isBlank c) :
    Spells dialect (levels + 1) ('[' :: (separated (',' :: blanks) texts ++ [']']))
      (.arr values) := by
  have hclose : Scans dialect [']'] [.closeArray] := scans_nil.punctuation rfl
  by_cases hne : texts = []
  · subst hne
    cases h
    refine ⟨[.openArray, .closeArray], hclose.punctuation rfl, ⟨_, _, rfl, by simp⟩, ?_⟩
    intro stack rest hlevel
    have hopen (next : Except Flaw Json) : dialect.opening (stack.length + 1) next = next :=
      opening_eq (by omega) next
    simp [build, hopen]
  · obtain ⟨tokens, hscans, ⟨first, more, rfl, hfirst⟩, hbuild⟩ := spells_items h hne hblanks
    refine ⟨.openArray :: (first :: more ++ [.closeArray]),
      (hscans.append hclose (stops_cons (by decide))).punctuation rfl, ⟨_, _, rfl, by simp⟩, ?_⟩
    intro stack rest hlevel
    have hopen (rest : List Token) : build dialect stack .value (.openArray :: rest) =
        build dialect stack .itemOrClose rest := by
      rw [build, opening_eq (by omega)]
    rw [List.cons_append, hopen, List.append_assoc, List.cons_append,
      build_itemOrClose _ hfirst (by omega)]
    exact hbuild stack [] rest (by omega)

theorem spells_fields {fields : Fields}
    (htexts : ∀ field ∈ fields, ∃ name : String, field.1 = name)
    (h : ∀ field ∈ fields,
      Spells dialect levels (writeWith storedNumber field.2) (settled field.2))
    (hne : fields ≠ []) :
    ∃ name tokens, Scans dialect (separated [','] (fields.map fieldChars))
        (.text name :: tokens) ∧
      ∀ stack read rest, stack.length + 1 + levels ≤ dialect.nesting →
        ((read ++ fields).map Prod.fst).Nodup →
        build dialect stack (.colon read name) (tokens ++ .closeObject :: rest) =
          build dialect stack (.separator (.obj (read ++ settledFields fields))) rest := by
  induction fields with
  | nil => exact absurd rfl hne
  | cons field fields ih =>
    obtain ⟨_, value⟩ := field
    obtain ⟨name, rfl⟩ := htexts _ (List.mem_cons_self ..)
    obtain ⟨tokens, hscans, hbuilds⟩ := h (name, value) (List.mem_cons_self ..)
    have hfield : Scans dialect (fieldChars (name, value))
        (.text name :: .colon :: tokens) :=
      (scans_quote .unicode name).append (hscans.punctuation rfl) (stops_cons (by decide))
    have hread {read more : Fields}
        (hnames : ((read ++ (.text name, value) :: more).map Prod.fst).Nodup) (v : Json) :
        read.set name v = read ++ [(.text name, v)] := by
      apply Table.setEntry_of_notMem
      rw [List.map_append, List.nodup_append] at hnames
      exact fun hmem => hnames.2.2 _ hmem _ (by simp) rfl
    cases fields with
    | nil =>
      refine ⟨name, .colon :: tokens, hfield, ?_⟩
      intro stack read rest hlevel hnames
      simp only [List.cons_append, build]
      rw [hbuilds.build_append _ _ (by simpa using hlevel)]
      simp only [build, hread hnames, settledFields]
    | cons next fields =>
      obtain ⟨second, others, hothers, hbuild⟩ :=
        ih (fun field hfield => htexts field (List.mem_cons_of_mem _ hfield))
          (fun field hfield => h field (List.mem_cons_of_mem _ hfield)) (by simp)
      refine ⟨name, .colon :: (tokens ++ .comma :: .text second :: others), ?_, ?_⟩
      · have hscans := hfield.append (hothers.punctuation (c := ',') rfl) (stops_cons (by decide))
        simpa only [List.map_cons, separated, List.append_assoc, List.cons_append,
          List.nil_append] using hscans
      · intro stack read rest hlevel hnames
        simp only [List.cons_append, List.append_assoc, build]
        rw [hbuilds.build_append _ _ (by simpa using hlevel)]
        simp only [build, hread hnames]
        rw [hbuild stack (read ++ [((name : Label), settled value)]) rest hlevel ?_]
        · simp [settledFields]
        · simpa using hnames

/-- Written fields in braces are an object. -/
theorem spells_obj {fields : Fields} (hnames : (fields.map Prod.fst).Nodup)
    (htexts : ∀ field ∈ fields, ∃ name : String, field.1 = name)
    (h : ∀ field ∈ fields,
      Spells dialect levels (writeWith storedNumber field.2) (settled field.2)) :
    Spells dialect (levels + 1) (writeWith storedNumber (.obj fields)) (settled (.obj fields)) := by
  have hclose : Scans dialect ['}'] [.closeObject] := scans_nil.punctuation rfl
  have hopen : punctuation '{' = some .openObject := rfl
  rw [writeWith, writeFields_eq_map, settled]
  by_cases hne : fields = []
  · subst hne
    refine ⟨[.openObject, .closeObject], hclose.punctuation hopen, ⟨_, _, rfl, by simp⟩, ?_⟩
    intro stack rest hlevel
    have hopened (next : Except Flaw Json) : dialect.opening (stack.length + 1) next = next :=
      opening_eq (by omega) next
    simp [build, hopened, settledFields]
  · obtain ⟨name, tokens, hscans, hbuild⟩ := spells_fields htexts h hne
    refine ⟨.openObject :: (.text name :: tokens ++ [.closeObject]),
      (hscans.append hclose (stops_cons (by decide))).punctuation hopen,
      ⟨_, _, rfl, by simp⟩, ?_⟩
    intro stack rest hlevel
    simp only [List.cons_append, List.append_assoc, List.nil_append, build]
    rw [opening_eq (by omega), atLevel_eq (by omega)]
    exact hbuild stack [] rest (by omega) hnames

theorem spells_settled {value : Json} (h : Fits levels value) :
    Spells dialect levels (writeWith storedNumber value) (settled value) := by
  have word (name : List Char) (value : Json) (hne : name ≠ [])
      (hword : name.all isWordChar) (htoken : wordToken dialect name = .word value)
      (levels : ℕ) : Spells dialect levels name value :=
    ⟨_, scans_word hne (List.all_eq_true.1 hword), htoken ▸ builds_word value⟩
  have hnull := word "null".toList .null (by decide) (by decide) (by simp [wordToken])
  induction h with
  | null levels => exact hnull levels
  | bool levels value =>
    cases value with
    | true =>
      exact word "true".toList _ (by decide) (by decide) (by simp [wordToken, settled]) levels
    | false =>
      exact word "false".toList _ (by decide) (by decide) (by simp [wordToken, settled]) levels
  | int levels hvalue => exact ⟨_, scans_integer hvalue, builds_word _⟩
  | num levels value =>
    rw [writeWith, storedNumber, settled]
    by_cases hfinite : Decimal.isFinite value
    · rw [if_pos hfinite, if_pos hfinite]
      exact ⟨_, scans_number hfinite, builds_word _⟩
    · rw [if_neg hfinite, if_neg hfinite]
      exact hnull levels
  | str levels value => exact ⟨_, scans_quote .unicode value, builds_text value⟩
  | @arr levels items h ih =>
    rw [writeWith, writeItems_eq_map, settled, settledItems_eq_map]
    refine spells_arr [] ?_ (by simp)
    rw [List.forall₂_map_left_iff, List.forall₂_map_right_iff]
    exact List.forall₂_same.2 ih
  | obj hnames htexts h ih => exact spells_obj hnames htexts ih

theorem Spells.read {text : List Char} {value : Json} (h : Spells dialect levels text value)
    (hlevels : levels ≤ dialect.nesting) :
    Json.read dialect (String.ofList text) = .ok value := by
  obtain ⟨tokens, hscans, hbuilds⟩ := h
  have hbuild := hbuilds.build_append [] [] (by simpa using hlevels)
  rw [List.append_nil] at hbuild
  rw [Json.read, String.toList_ofList, readChars, hscans.scan, hbuild]
  rfl

/-- The stored text of a document reads back to what is kept of the document. -/
theorem read_text {value : Json} (h : Fits levels value) (hlevels : levels ≤ dialect.nesting) :
    Json.read dialect value.text = .ok value.settled :=
  (spells_settled h).read hlevels

/-- The text of a list of names reads back to the names. -/
theorem read_listText (names : List String) (hlevels : 1 ≤ dialect.nesting) :
    Json.read dialect (listText (names.map .text)) = .ok (.arr (names.map .str)) := by
  have hblank : ∀ c ∈ [' '], isBlank c := List.forall_mem_singleton.2 rfl
  refine Spells.read (spells_arr [' '] ?_ hblank) hlevels
  rw [List.forall₂_map_left_iff, List.forall₂_map_left_iff, List.forall₂_map_right_iff]
  exact List.forall₂_same.2 fun name _ => ⟨_, scans_quote .ascii name, builds_text name⟩

end Narrative.Json
