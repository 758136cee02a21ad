import Narrative.Proofs.Wire.Blanks
import Narrative.Proofs.Wire.Readers
import Narrative.Schema.Draft
import Narrative.Wire.Story

/-!
# Readers and fields that are left blank

Older files leave some fields of a story blank instead of leaving them out: numbers of variables,
conditions and operations, the next node of a choice, its condition and its operations, the
identifier of a node, and the start, the version and the definitions of the story.  A reader makes
the same of such a document as of the one without these fields, and if it refuses them, then for the
same reasons.  A field must not be given again under its other spelling, which would come to light
where the field is left out.
-/

namespace Narrative

open Schema (Step Reader Origin spelledOut optional required record nullAs Draft)

/-- The kinds of places in the document of a story. -/
inductive Part where
  | story
  | graph
  | nodes
  | node
  | choices
  | choice
  | condition
  | operations
  | operation
  | definitions
  | group
  | definition
  | other

namespace Part

/-- The kind of place that a step leads to. -/
def sub : Part → Step → Part
  | story, .field (.text "nodes") => nodes
  | story, .field (.text "variableDefinitions") => definitions
  | graph, .field (.text "nodes") => nodes
  | nodes, .field _ => node
  | node, .field (.text "choices") => choices
  | choices, .item _ => choice
  | choice, .field (.text "condition") => condition
  | choice, .field (.text "variableOperations") => operations
  | choice, .field (.text "variable_operations") => operations
  | operations, .item _ => operation
  | definitions, .field _ => group
  | group, .item _ => definition
  | _, _ => other

/-- The kind of place that a path leads to. -/
def follow (part : Part) (path : List Step) : Part := path.foldl sub part

theorem follow_other (path : List Step) : other.follow path = other := by
  induction path with
  | nil => rfl
  | cons step rest ih => exact ih

/-- The fields that older files leave blank, with what they write there. -/
def LeavesBlank : Part → String → Json → Prop
  | story, name, value =>
    name ∈ ["startNode", "version", "variableDefinitions"] ∧ value = .null
  | node, name, value => name = "id" ∧ (value = .null ∨ value = .str "")
  | choice, name, value =>
    name ∈ ["nextNode", "condition", "variableOperations"] ∧ value = .null
  | condition, name, value => name = "value" ∧ value = .null
  | operation, name, value => name = "value" ∧ value = .null
  | definition, name, value => name ∈ ["initial", "min", "max"] ∧ value = .null
  | _, _, _ => False

theorem LeavesBlank.isBlank {part : Part} {name : String} {value : Json}
    (h : part.LeavesBlank name value) : value.IsBlank := by
  cases part with
  | story | choice | condition | operation | definition => exact Or.inl h.2
  | node => exact h.2
  | _ => exact h.elim

end Part

/-- A value stands at a path in a document. -/
def Json.Holds : List Step → Json → Json → Prop
  | [], document, value => document = value
  | .field name :: rest, .obj fields, value =>
    ∃ found, (name, found) ∈ fields ∧ Holds rest found value
  | .item index :: rest, .arr items, value =>
    ∃ found, items[index]? = some found ∧ Holds rest found value
  | _, _, _ => False

/-- The chosen fields of a part that one step leads to, and none elsewhere. -/
def Blanks.within (step : Step) (blanks : Blanks) : Blanks
  | [] => none
  | first :: rest => if first = step then blanks rest else none

/-- The chosen fields are among those that older files leave blank, and nothing in the document has
such a field under its other spelling. -/
structure Blanks.Fit (part : Part) (document : Json) (blanks : Blanks) : Prop where
  places : ∀ path value, blanks path = some value →
    ∃ front name, path = front ++ [.field (.text name)] ∧
      (part.follow front).LeavesBlank name value
  spellings : ∀ front (name : String) fields, (blanks (front ++ [.field name])).isSome →
    Json.Holds front document (.obj fields) → spelledOut name ≠ name →
      Json.Fields.get? fields (spelledOut name) = none

namespace Blanks.Fit

variable {part : Part} {document value : Json} {fields : Json.Fields} {blanks : Blanks}
  {name : String}

theorem isBlank (h : blanks.Fit part document) {path : List Step}
    (hchosen : blanks path = some value) : value.IsBlank := by
  obtain ⟨front, name, -, hleaves⟩ := h.places path value hchosen
  exact hleaves.isBlank

theorem leavesBlank (h : blanks.Fit part document) (hchosen : blanks [.field name] = some value) :
    part.LeavesBlank name value := by
  obtain ⟨front, found, hpath, hleaves⟩ := h.places _ value hchosen
  cases front with
  | nil =>
    obtain rfl : name = found := by simpa using hpath
    exact hleaves
  | cons step rest => simp at hpath

theorem eq_none (h : blanks.Fit part document) (hpart : ∀ value, ¬part.LeavesBlank name value) :
    blanks [.field name] = none := by
  cases hchosen : blanks [.field name] with
  | none => rfl
  | some value => exact absurd (h.leavesBlank hchosen) (hpart value)

/-- No step leads to a blank field where older files leave none blank. -/
theorem eq_none_of_forall (h : blanks.Fit part document)
    (hpart : ∀ name value, ¬part.LeavesBlank name value) (step : Step) : blanks [step] = none := by
  cases hchosen : blanks [step] with
  | none => rfl
  | some value =>
    obtain ⟨front, name, hpath, hleaves⟩ := h.places _ value hchosen
    rcases front with _ | ⟨_, _ | _⟩ <;> simp at hpath
    exact absurd hleaves (hpart name value)

theorem below {step : Step} (h : blanks.Fit part document)
    (hstep : blanks [step] = none)
    (hdocument : ∀ front found, Json.Holds front value found →
      Json.Holds (step :: front) document found) :
    (blanks.below step).Fit (part.sub step) value where
  places := by
    intro path blank hblank
    obtain ⟨front, name, hpath, hleaves⟩ := h.places (step :: path) blank hblank
    cases front with
    | nil =>
      obtain ⟨rfl, rfl⟩ : step = .field name ∧ path = [] := by simpa using hpath
      exact absurd (hstep.symm.trans hblank) (by simp)
    | cons first rest =>
      obtain ⟨rfl, rfl⟩ : step = first ∧ path = rest ++ [.field name] := by simpa using hpath
      exact ⟨rest, name, rfl, hleaves⟩
  spellings := fun front name fields hchosen hholds =>
    h.spellings (step :: front) name fields hchosen (hdocument _ _ hholds)

theorem field {label : Label} (h : blanks.Fit part (.obj fields))
    (hchosen : blanks [.field label] = none) (hvalue : (label, value) ∈ fields) :
    (blanks.below (.field label)).Fit (part.sub (.field label)) value :=
  h.below hchosen fun _ _ hholds => ⟨value, hvalue, hholds⟩

theorem item {items : List Json} {index : ℕ} (h : blanks.Fit part (.arr items))
    (hvalue : items[index]? = some value) :
    (blanks.below (.item index)).Fit (part.sub (.item index)) value := by
  apply h.below
  · cases hchosen : blanks [.item index] with
    | none => rfl
    | some blank =>
      obtain ⟨front, name, hpath, -⟩ := h.places _ blank hchosen
      rcases front with _ | ⟨_, _ | _⟩ <;> simp at hpath
  · exact fun _ _ hholds => ⟨value, hvalue, hholds⟩

/-- Nothing is left blank in other places. -/
theorem blanked_eq_pruned (h : blanks.Fit .other document) :
    document.blanked blanks = document.pruned blanks := by
  have hnone (path : List Step) : blanks path = none := by
    cases hchosen : blanks path with
    | none => rfl
    | some value =>
      obtain ⟨front, name, -, hleaves⟩ := h.places path value hchosen
      rw [Part.follow_other] at hleaves
      exact hleaves.elim
  rw [Json.blanked, Json.pruned, Json.edited_of_none fun path => by rw [Blanks.write, hnone]; rfl,
    Json.edited_of_none fun path => by rw [Blanks.drop, hnone]; rfl]

theorem within {step : Step} (h : blanks.Fit (part.sub step) value)
    (hdocument : ∀ front found, Json.Holds (step :: front) document found →
      Json.Holds front value found) : (within step blanks).Fit part document where
  places := by
    intro path blank hblank
    cases path with
    | nil => exact absurd hblank (by simp [Blanks.within])
    | cons first rest =>
      simp only [Blanks.within] at hblank
      split at hblank
      case isFalse => exact absurd hblank (by simp)
      case isTrue hfirst =>
        obtain ⟨front, name, rfl, hleaves⟩ := h.places rest blank hblank
        exact ⟨step :: front, name, by rw [hfirst]; rfl, hleaves⟩
  spellings := by
    intro front name fields hchosen hholds hname
    cases front with
    | nil =>
      have hnone : blanks [] = none := by
        cases hblank : blanks [] with
        | none => rfl
        | some blank =>
          obtain ⟨front, name, hpath, -⟩ := h.places [] blank hblank
          simp at hpath
      simp [Blanks.within, hnone] at hchosen
    | cons first rest =>
      by_cases hfirst : first = step
      · subst hfirst
        rw [List.cons_append, Blanks.within, if_pos rfl] at hchosen
        exact h.spellings rest name fields hchosen (hdocument _ _ hholds) hname
      · simp [Blanks.within, hfirst] at hchosen

end Blanks.Fit

/-! ## Readers -/

/-- A reader makes the same of a document of the given kind whether the fields that older files
leave blank are blank or left out. -/
def Schema.Reader.Overlooks {α : Type} (reader : Reader α) (part : Part) : Prop :=
  ∀ (blanks : Blanks) (document : Json), blanks.Fit part document →
    reader (document.blanked blanks) = reader (document.pruned blanks)

namespace Schema

variable {α : Type} {part : Part} {reader : Reader α} {blanks : Blanks} {fields : Json.Fields}
  {name : String}

theorem overlooks_other (reader : Reader α) : reader.Overlooks .other :=
  fun _ _ h => congrArg reader h.blanked_eq_pruned

theorem overlooks_nullAs (default : α) (h : reader.Overlooks part) :
    Reader.Overlooks (nullAs default reader) part := by
  intro blanks document hfit
  have hsame := h blanks document hfit
  cases document with
  | arr | obj => exact hsame
  | null | bool | int | num | str | torn => rfl

theorem lookup_of_chosen (h : blanks.Fit part (.obj fields)) {blank : Json}
    (hchosen : blanks [.field name] = some blank) :
    lookup (Json.editedFields blanks.drop fields) name = none ∧
      lookup (Json.editedFields blanks.write fields) name =
        (Json.Fields.get? fields name).map fun _ => (name, blank) := by
  have hdropped : Json.Fields.get? (Json.editedFields blanks.drop fields) name = none := by
    rw [Json.get?_prunedFields, hchosen]
  have hwritten : Json.Fields.get? (Json.editedFields blanks.write fields) name =
      (Json.Fields.get? fields name).map fun _ => blank := by
    rw [Json.get?_blankedFields, hchosen]
  -- The field is given under its other spelling only if that is the same.
  have hother (edits : FieldEdits)
      (hnone : Json.Fields.get? (Json.editedFields edits fields) name = none) :
      lookup (Json.editedFields edits fields) name = none := by
    by_cases hname : spelledOut name = name
    · simp [lookup, hname, hnone]
    · have hmissing := h.spellings [] name fields (by simp [hchosen]) rfl hname
      have hspelled : Json.Fields.get? (Json.editedFields edits fields) (spelledOut name) =
          none := by
        rw [Json.get?_editedFields, hmissing]
        cases edits [.field (spelledOut name)] <;> rfl
      simp [lookup, hnone, hspelled]
  refine ⟨hother _ hdropped, ?_⟩
  cases hfound : Json.Fields.get? fields name with
  | none => exact hother _ (by rw [hwritten, hfound]; rfl)
  | some value => simp [lookup, hwritten, hfound]

theorem lookup_editedFields {edits : FieldEdits}
    (h : ∀ spelling ∈ [name, spelledOut name], edits [.field spelling] = none) :
    lookup (Json.editedFields edits fields) name = (lookup fields name).map fun found =>
      (found.1, found.2.edited (edits.below (.field found.1))) := by
  have hget (spelling : String) (hspelling : spelling ∈ [name, spelledOut name]) :
      Json.Fields.get? (Json.editedFields edits fields) spelling =
        (Json.Fields.get? fields spelling).map
          (Json.edited (edits.below (.field spelling))) := by
    rw [Json.get?_editedFields, h spelling hspelling]
  unfold lookup
  rw [hget name (by simp), hget (spelledOut name) (by simp)]
  cases Json.Fields.get? fields name with
  | some value => rfl
  | none => cases Json.Fields.get? fields (spelledOut name) <;> rfl

theorem of_lookup {found : String × Json} (h : lookup fields name = some found) :
    found.1 ∈ [name, spelledOut name] ∧ (Label.text found.1, found.2) ∈ fields := by
  unfold lookup at h
  cases hvalue : Json.Fields.get? fields name with
  | some value =>
    simp only [hvalue, Option.some.injEq] at h
    subst h
    exact ⟨by simp, Table.mem_of_findEntry hvalue⟩
  | none =>
    simp only [hvalue] at h
    obtain ⟨value, hspelled, rfl⟩ := Option.map_eq_some_iff.1 h
    exact ⟨by simp, Table.mem_of_findEntry hspelled⟩

/-- The reader overlooks what is blank in the values of a field, under both of its spellings. -/
def Reader.OverlooksAt (reader : Reader α) (part : Part) (name : String) : Prop :=
  ∀ spelling ∈ [name, spelledOut name], reader.Overlooks (part.sub (.field spelling))

theorem overlooksAt_of_spelledOut {other : String} (hname : spelledOut name = other)
    (hfirst : reader.Overlooks (part.sub (.field name)))
    (hsecond : reader.Overlooks (part.sub (.field other))) : reader.OverlooksAt part name := by
  intro spelling hspelling
  rw [hname, List.mem_pair] at hspelling
  rcases hspelling with rfl | rfl
  · exact hfirst
  · exact hsecond

/-- Where a field is not left blank, its value is read in the same way. -/
theorem elim_lookup (h : blanks.Fit part (.obj fields)) (hreader : reader.OverlooksAt part name)
    (hchosen : ∀ spelling ∈ [name, spelledOut name], blanks [.field spelling] = none)
    (fallback : Checked α) :
    ((lookup (Json.editedFields blanks.write fields) name).elim fallback
        fun found => .under (.field found.1) (reader found.2)) =
      (lookup (Json.editedFields blanks.drop fields) name).elim fallback
        fun found => .under (.field found.1) (reader found.2) := by
  rw [lookup_editedFields fun spelling hspelling => by simp [Blanks.write, hchosen _ hspelling],
    lookup_editedFields fun spelling hspelling => by simp [Blanks.drop, hchosen _ hspelling]]
  cases hfound : lookup fields name with
  | none => rfl
  | some found =>
    obtain ⟨hspelling, hmem⟩ := of_lookup hfound
    exact congrArg (Checked.under _) (hreader _ hspelling _ _ (h.field (hchosen _ hspelling) hmem))

/-- A field is overlooked if its value is, and if a blank one reads as the default. -/
theorem overlooks_optional {default : α} (h : blanks.Fit part (.obj fields))
    (hreader : reader.OverlooksAt part name)
    (hblank : ∀ value, part.LeavesBlank name value → reader value = .valid default)
    (hspelling : spelledOut name = name ∨ ∀ value, ¬part.LeavesBlank (spelledOut name) value) :
    optional (Json.editedFields blanks.write fields) name default reader =
      optional (Json.editedFields blanks.drop fields) name default reader := by
  have helim (fields : Json.Fields) : optional fields name default reader =
      (lookup fields name).elim (.valid default)
        fun found => .under (.field found.1) (reader found.2) := by
    unfold optional
    cases lookup fields name <;> rfl
  rw [helim, helim]
  cases hchosen : blanks [.field name] with
  | some blank =>
    obtain ⟨hdropped, hwritten⟩ := lookup_of_chosen h hchosen
    rw [hdropped, hwritten]
    cases Json.Fields.get? fields name with
    | none => rfl
    | some value =>
      change Checked.under _ (reader blank) = _
      rw [hblank blank (h.leavesBlank hchosen)]
      rfl
  | none =>
    refine elim_lookup h hreader (fun spelling hmem => ?_) _
    rw [List.mem_pair] at hmem
    rcases hmem with rfl | rfl
    · exact hchosen
    · rcases hspelling with hsame | hnever
      · rw [hsame]
        exact hchosen
      · exact h.eq_none hnever

section Plain

variable (hname : spelledOut name = name) (h : blanks.Fit part (.obj fields))
  (hreader : reader.Overlooks (part.sub (.field name)))

include hname h hreader

/-- A field that must be present, and is never left blank. -/
theorem overlooks_required (hpart : ∀ value, ¬part.LeavesBlank name value) :
    required (Json.editedFields blanks.write fields) name reader =
      required (Json.editedFields blanks.drop fields) name reader := by
  have helim (fields : Json.Fields) : required fields name reader =
      (lookup fields name).elim (.under (.field name) (.fail .missing))
        fun found => .under (.field found.1) (reader found.2) := by
    unfold required
    cases lookup fields name <;> rfl
  rw [helim, helim]
  apply elim_lookup h (overlooksAt_of_spelledOut hname hreader hreader)
  intro spelling hspelling
  obtain rfl : spelling = name := by simpa [hname] using hspelling
  exact h.eq_none hpart

/-- A field that is never left blank. -/
theorem overlooks_kept {default : α} (hpart : ∀ value, ¬part.LeavesBlank name value) :
    optional (Json.editedFields blanks.write fields) name default reader =
      optional (Json.editedFields blanks.drop fields) name default reader :=
  overlooks_optional h (overlooksAt_of_spelledOut hname hreader hreader)
    (fun value hleaves => absurd hleaves (hpart value)) (Or.inl hname)

/-- A field that is left blank by writing null. -/
theorem overlooks_null {default : α}
    (hpart : ∀ value, part.LeavesBlank name value → value = .null) :
    optional (Json.editedFields blanks.write fields) name default (nullAs default reader) =
      optional (Json.editedFields blanks.drop fields) name default (nullAs default reader) := by
  have hnullAs := overlooks_nullAs default hreader
  apply overlooks_optional h (overlooksAt_of_spelledOut hname hnullAs hnullAs) _ (Or.inl hname)
  intro value hleaves
  rw [hpart value hleaves]
  rfl

end Plain

theorem overlooks_record {origin : Origin} {read : Json.Fields → Checked α}
    (h : ∀ (blanks : Blanks) fields, blanks.Fit part (.obj fields) →
      read (Json.editedFields blanks.write fields) = read (Json.editedFields blanks.drop fields)) :
    Reader.Overlooks (record origin read) part := by
  intro blanks document hfit
  cases document with
  | obj fields => exact h blanks fields hfit
  | null | bool | int | num | str | torn | arr => rfl

theorem overlooks_list {item : Part} (hitem : ∀ index, part.sub (.item index) = item)
    (h : reader.Overlooks item) : Reader.Overlooks (list reader) part := by
  intro blanks document hfit
  cases document with
  | arr items =>
    have hitems (index : ℕ) (items : List Json)
        (hsame : ∀ place (value : Json), items[place]? = some value →
          reader (value.blanked (blanks.below (.item (index + place)))) =
            reader (value.pruned (blanks.below (.item (index + place))))) :
        itemsFrom reader index (Json.editedItems blanks.write index items) =
          itemsFrom reader index (Json.editedItems blanks.drop index items) := by
      induction items generalizing index with
      | nil => rfl
      | cons value rest ih =>
        have hfirst := hsame 0 value rfl
        have hrest := ih (index + 1) fun place value hvalue => by
          rw [Nat.add_right_comm]
          exact hsame (place + 1) value hvalue
        simp only [Json.editedItems, itemsFrom]
        rw [hrest]
        exact congrArg (fun first => Checked.combine (.map List.cons (.under _ first)) _) hfirst
    refine hitems 0 items fun place value hvalue => ?_
    rw [Nat.zero_add]
    exact h _ _ (hitem place ▸ hfit.item hvalue)
  | null | bool | int | num | str | torn | obj => rfl

end Schema

/-! ## Documents of a story -/

section Readers

open Schema

variable (origin : Origin)

theorem VariableDefinition.overlooks_reader :
    Reader.Overlooks (VariableDefinition.reader origin) .definition := by
  apply overlooks_record
  intro blanks fields h
  have hnull (name : String) (value : Json) (hleaves : Part.definition.LeavesBlank name value) :
      value = .null := hleaves.2
  unfold ofFields
  rw [overlooks_required (by decide) h (overlooks_other _) fun _ hno => absurd hno.1 (by decide),
    overlooks_kept (by decide) h (overlooks_other _) fun _ hno => absurd hno.1 (by decide),
    overlooks_null (by decide) h (overlooks_other _) (hnull _),
    overlooks_null (by decide) h (overlooks_other _) (hnull _),
    overlooks_null (by decide) h (overlooks_other _) (hnull _)]

theorem Definitions.overlooks_reader :
    Reader.Overlooks (Definitions.reader origin) .definitions := by
  apply overlooks_record
  intro blanks fields h
  have hlist : Reader.Overlooks (list (VariableDefinition.reader origin)) .group :=
    overlooks_list (fun _ => rfl) (VariableDefinition.overlooks_reader origin)
  dsimp only [ofFields]
  rw [overlooks_kept (by decide) h hlist fun _ hno => hno,
    overlooks_kept (by decide) h hlist fun _ hno => hno,
    overlooks_kept (by decide) h hlist fun _ hno => hno]

theorem Condition.overlooks_reader : Reader.Overlooks (Condition.reader origin) .condition := by
  apply overlooks_record
  intro blanks fields h
  unfold ofFields
  rw [overlooks_kept (by decide) h (overlooks_other _) fun _ hno => absurd hno.1 (by decide),
    overlooks_kept (by decide) h (overlooks_other _) fun _ hno => absurd hno.1 (by decide),
    overlooks_kept (by decide) h (overlooks_other _) fun _ hno => absurd hno.1 (by decide),
    overlooks_kept (by decide) h (overlooks_other _) fun _ hno => absurd hno.1 (by decide),
    overlooks_null (by decide) h (overlooks_other _) fun _ hleaves => hleaves.2]

theorem VariableOperation.overlooks_reader :
    Reader.Overlooks (VariableOperation.reader origin) .operation := by
  apply overlooks_record
  intro blanks fields h
  unfold ofFields
  rw [overlooks_kept (by decide) h (overlooks_other _) fun _ hno => absurd hno.1 (by decide),
    overlooks_kept (by decide) h (overlooks_other _) fun _ hno => absurd hno.1 (by decide),
    overlooks_kept (by decide) h (overlooks_other _) fun _ hno => absurd hno.1 (by decide),
    overlooks_null (by decide) h (overlooks_other _) fun _ hleaves => hleaves.2]

theorem Choice.overlooks_reader : Reader.Overlooks (Choice.reader origin) .choice := by
  apply overlooks_record
  intro blanks fields h
  have hnull (name : String) (value : Json) (hleaves : Part.choice.LeavesBlank name value) :
      value = .null := hleaves.2
  have hnext : Reader.OverlooksAt (nullAs "" string) .choice "nextNode" :=
    overlooksAt_of_spelledOut (by decide : _ = "next_node") (overlooks_other _) (overlooks_other _)
  have hlist : Reader.Overlooks (nullAs [] (list (VariableOperation.reader origin))) .operations :=
    overlooks_nullAs [] (overlooks_list (fun _ => rfl) (VariableOperation.overlooks_reader origin))
  have hoperations : Reader.OverlooksAt (nullAs [] (list (VariableOperation.reader origin)))
      .choice "variableOperations" :=
    overlooksAt_of_spelledOut (by decide : _ = "variable_operations") hlist hlist
  unfold ofFields
  rw [overlooks_kept (by decide) h (overlooks_other _) fun _ hno => absurd hno.1 (by decide),
    overlooks_optional h hnext (fun value hleaves => by rw [hnull _ value hleaves]; rfl)
      (Or.inr fun _ hno => absurd hno.1 (by decide)),
    overlooks_null (by decide) h (Condition.overlooks_reader origin) (hnull _),
    overlooks_optional h hoperations (fun value hleaves => by rw [hnull _ value hleaves]; rfl)
      (Or.inr fun _ hno => absurd hno.1 (by decide))]

namespace Node

/-- The identifier under which a node is read. -/
def filledId (key : Label) : Option Json → Json
  | some id => if id.isVacant then .ofLabel key else id
  | none => .ofLabel key

theorem exists_fillId (key : Label) (fields : Json.Fields) :
    ∃ filled, Graph.fillId key (.obj fields) = .obj filled ∧
      ∀ name, Json.Fields.get? filled name =
        if .text "id" = name then some (filledId key (Json.Fields.get? fields "id"))
        else Json.Fields.get? fields name := by
  have hset (name : Label) :
      Json.Fields.get? (Json.Fields.set fields "id" (.ofLabel key)) name =
        if .text "id" = name then some (.ofLabel key) else Json.Fields.get? fields name :=
    Table.findEntry_setEntry (Label.text "id") name _ fields
  simp only [Graph.fillId]
  cases hid : Json.Fields.get? fields "id" with
  | none => exact ⟨_, rfl, hset⟩
  | some id =>
    simp only [filledId]
    split
    case isTrue => exact ⟨_, rfl, hset⟩
    case isFalse =>
      refine ⟨fields, rfl, fun name => ?_⟩
      split
      case isTrue hname => rw [← hname, hid]
      case isFalse => rfl

/-- A node is read with its identifier filled in, and otherwise as it stands. -/
theorem read_fillId (key : Label) (fields : Json.Fields) :
    reader origin (Graph.fillId key (.obj fields)) =
      Node.mk <$> .under (.field "id") (string (filledId key (Json.Fields.get? fields "id")))
        <*> optional fields "title" "" string
        <*> optional fields "text" "" string
        <*> optional fields "choices" [] (list (Choice.reader origin)) := by
  obtain ⟨filled, hfilled, hget⟩ := exists_fillId key fields
  have hkept {α : Type} {name : String} {default : α} {reader : Reader α} (hname : "id" ≠ name)
      (hspelled : spelledOut name = name) :
      optional filled name default reader = optional fields name default reader := by
    unfold Schema.optional lookup
    rw [hspelled, hget, if_neg fun h => hname (Label.text.inj h)]
  have hid : required filled "id" string =
      .under (.field "id") (string (filledId key (Json.Fields.get? fields "id"))) := by
    unfold required lookup
    rw [hget, if_pos rfl]
  rw [hfilled]
  change ofFields origin filled = _
  rw [ofFields, hid, hkept (by decide) (by decide), hkept (by decide) (by decide),
    hkept (by decide) (by decide)]

/-- A node is read in the same way whether its identifier is blank or left out. -/
theorem overlooks_fillId (key : Label) :
    Reader.Overlooks (fun value => reader origin (Graph.fillId key value)) .node := by
  intro blanks document h
  cases document with
  | null | bool | int | num | str | torn | arr => rfl
  | obj fields =>
    have hchoices : Reader.Overlooks (list (Choice.reader origin)) .choices :=
      overlooks_list (fun _ => rfl) (Choice.overlooks_reader origin)
    have hid : filledId key (Json.Fields.get? (Json.editedFields blanks.write fields) "id") =
        filledId key (Json.Fields.get? (Json.editedFields blanks.drop fields) "id") := by
      rw [Json.get?_blankedFields, Json.get?_prunedFields]
      cases hchosen : blanks [.field "id"] with
      | some blank =>
        cases Json.Fields.get? fields "id" with
        | none => rfl
        | some value => rcases (h.isBlank hchosen) with rfl | rfl <;> rfl
      | none =>
        cases hvalue : Json.Fields.get? fields "id" with
        | none => rfl
        | some value =>
          have hfit := h.field hchosen (Table.mem_of_findEntry hvalue)
          exact congrArg (fun value => filledId key (some value)) hfit.blanked_eq_pruned
    change reader origin (Graph.fillId key (.obj _)) = reader origin (Graph.fillId key (.obj _))
    rw [read_fillId, read_fillId, hid,
      overlooks_kept (by decide) h (overlooks_other _) fun _ hno => absurd hno.1 (by decide),
      overlooks_kept (by decide) h (overlooks_other _) fun _ hno => absurd hno.1 (by decide),
      overlooks_kept (by decide) h hchoices fun _ hno => absurd hno.1 (by decide)]

end Node

namespace Graph

/-- The nodes of a document with their identifiers filled in. -/
def filledNodes : Json → Json
  | .obj nodes => .obj (nodes.map fun (key, value) => (key, fillId key value))
  | value => value

theorem overlooks_filledNodes :
    Reader.Overlooks (fun value => table string (Node.reader origin) (filledNodes value))
      .nodes := by
  intro blanks document h
  cases document with
  | null | bool | int | num | str | torn | arr => rfl
  | obj nodes =>
    have hnone (name : Label) : blanks [.field name] = none :=
      h.eq_none_of_forall (fun _ _ hno => hno) _
    have hentries (nodes : Json.Fields)
        (hsame : ∀ node ∈ nodes,
          Node.reader origin (fillId node.1 (node.2.blanked (blanks.below (.field node.1)))) =
            Node.reader origin (fillId node.1 (node.2.pruned (blanks.below (.field node.1))))) :
        entries string (Node.reader origin) ((nodes.map fun node =>
            (node.1, node.2.blanked (blanks.below (.field node.1)))).map
              fun (key, value) => (key, fillId key value)) =
          entries string (Node.reader origin) ((nodes.map fun node =>
            (node.1, node.2.pruned (blanks.below (.field node.1)))).map
              fun (key, value) => (key, fillId key value)) := by
      induction nodes with
      | nil => rfl
      | cons node rest ih =>
        obtain ⟨hnode, hrest⟩ := List.forall_mem_cons.1 hsame
        simp only [List.map_cons, entries]
        rw [hnode, ih hrest]
    rw [Json.blanked, Json.pruned, Json.edited, Json.edited,
      Json.editedFields_eq_map fun name => by rw [Blanks.write, hnone]; rfl,
      Json.editedFields_eq_map fun name => by rw [Blanks.drop, hnone]; rfl]
    refine congrArg (Checked.map Table.ofList) (hentries nodes fun node hnode => ?_)
    exact Node.overlooks_fillId origin node.1 _ _ (h.field (hnone node.1) hnode)

theorem get?_fillIds (fields : Json.Fields) (name : Label) :
    Json.Fields.get? (fillIds fields) name =
      if .text "nodes" = name then (Json.Fields.get? fields "nodes").map filledNodes
      else Json.Fields.get? fields name := by
  unfold fillIds
  split
  case h_1 nodes hnodes =>
    rw [hnodes]
    exact Table.findEntry_setEntry (Label.text "nodes") name _ fields
  case h_2 hnone =>
    split
    case isTrue hname =>
      subst hname
      cases hnodes : Json.Fields.get? fields "nodes" with
      | none => rfl
      | some nodes =>
        cases nodes with
        | obj nodes => exact absurd hnodes (hnone nodes)
        | _ => rfl
    case isFalse => rfl

/-- A graph is read with the identifiers of its nodes filled in, and otherwise as it stands. -/
theorem read_fillIds (fields : Json.Fields) :
    reader origin (.obj fields) =
      Graph.mk <$> optional fields "nodes" .empty
          (fun value => table string (Node.reader origin) (filledNodes value))
        <*> optional fields "startNode" startNodeId string
        <*> optional fields "version" graphVersion string := by
  have hkept {α : Type} {name : String} {default : α} {reader : Reader α}
      (hname : "nodes" ≠ name) (hspelled : "nodes" ≠ spelledOut name) :
      optional (fillIds fields) name default reader = optional fields name default reader := by
    unfold Schema.optional lookup
    rw [get?_fillIds, if_neg fun h => hname (Label.text.inj h), get?_fillIds,
      if_neg fun h => hspelled (Label.text.inj h)]
  have hnodes : optional (fillIds fields) "nodes" .empty (table string (Node.reader origin)) =
      optional fields "nodes" .empty
        (fun value => table string (Node.reader origin) (filledNodes value)) := by
    have hspelled : spelledOut "nodes" = "nodes" := by decide
    unfold Schema.optional lookup
    rw [hspelled, get?_fillIds, if_pos rfl]
    cases Json.Fields.get? fields "nodes" <;> rfl
  change ofFields origin fields = _
  simp only [ofFields]
  rw [hnodes, hkept (by decide) (by decide), hkept (by decide) (by decide)]

theorem overlooks_reader : Reader.Overlooks (Graph.reader origin) .graph := by
  intro blanks document h
  cases document with
  | null | bool | int | num | str | torn | arr => rfl
  | obj fields =>
    have hstart : Reader.OverlooksAt string .graph "startNode" :=
      overlooksAt_of_spelledOut (by decide : _ = "start_node") (overlooks_other _)
        (overlooks_other _)
    change reader origin (.obj _) = reader origin (.obj _)
    rw [read_fillIds, read_fillIds,
      overlooks_kept (by decide) h (overlooks_filledNodes origin) fun _ hno => hno,
      overlooks_optional h hstart (fun _ hno => hno.elim) (Or.inr fun _ hno => hno),
      overlooks_kept (by decide) h (overlooks_other _) fun _ hno => hno]

end Graph

end Readers

/-- What a document says is the same with fields that are left blank and without them. -/
theorem Schema.Reader.Overlooks.read {α : Type} {reader : Reader α} {part : Part}
    (h : reader.Overlooks part) {blanks : Blanks} {document : Json}
    (hfit : blanks.Fit part document) :
    Draft.read reader (document.blanked blanks) = Draft.read reader (document.pruned blanks) := by
  unfold Draft.read
  rw [h blanks document hfit]

end Narrative
