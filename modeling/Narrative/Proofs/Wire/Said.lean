import Mathlib.Data.List.Forall2
import Narrative.Proofs.Wire.Readers
import Narrative.Wire.Playback

/-!
# What a saved position says

A document is read as a saved position exactly if it says one, and then as the one that it says:
every part of it, at any depth, has to say what its place asks for.  Only fields that may be left
out may be missing, and then they say their defaults.  What a single number or integer says is
taken from its reader.
-/

namespace Narrative

namespace Schema

universe u v

variable {α : Type u} {κ : Type v}

/-- The values that a reader takes are those that a document says. -/
def Reads (reader : Reader α) (content : Json → α → Prop) : Prop :=
  ∀ document value, reader document = .valid value ↔ content document value

/-- A text says itself. -/
def SaysText (document : Json) (text : String) : Prop := document = .str text

/-- What a document says to a reader. -/
def SaysTo (reader : Reader α) (document : Json) (value : α) : Prop :=
  reader document = .valid value

/-- An array says the list of what its items say. -/
def SaysList (content : Json → α → Prop) (document : Json) (values : List α) : Prop :=
  ∃ items, document = .arr items ∧ List.Forall₂ content items values

/-- An object says a table: every name, mended where it is no text, a key, and every value the value
under it. -/
def SaysTable [DecidableEq κ] (keyContent : Json → κ → Prop) (content : Json → α → Prop)
    (document : Json) (table : Table κ α) : Prop :=
  ∃ fields entries, document = .obj fields ∧ table = Table.ofList entries ∧
    List.Forall₂
      (fun field entry => keyContent (.str field.1.mended) entry.1 ∧ content field.2 entry.2)
        fields entries

/-- An object says what its fields do. -/
def SaysObject (content : Json.Fields → α → Prop) (document : Json) (value : α) : Prop :=
  ∃ fields, document = .obj fields ∧ content fields value

/-- A field of an object says a value. -/
def FieldSays (fields : Json.Fields) (name : String) (content : Json → α → Prop)
    (value : α) : Prop :=
  ∃ spelling document, lookup fields name = some (spelling, document) ∧ content document value

/-- A field of an object says a value, or is left out and the value is the default. -/
def FieldMaySay (fields : Json.Fields) (name : String) (default : α) (content : Json → α → Prop)
    (value : α) : Prop :=
  FieldSays fields name content value ∨ lookup fields name = none ∧ value = default

/-! ## Readers of parts -/

variable {reader : Reader α} {content : Json → α → Prop}

theorem Checked.toOption_eq_some {x : Checked α} {value : α} :
    x.toOption = some value ↔ x = .valid value := by
  cases x <;> simp [Checked.toOption]

theorem reads_saysTo (reader : Reader α) : Reads reader (SaysTo reader) := fun _ _ => Iff.rfl

theorem reads_string : Reads string SaysText := by
  intro document text
  cases document <;> simp [string, SaysText, Checked.fail]

theorem itemsFrom_eq_valid (h : Reads reader content) {items : List Json} {values : List α}
    (index : ℕ) :
    itemsFrom reader index items = .valid values ↔ List.Forall₂ content items values := by
  induction items generalizing values index with
  | nil => simp [itemsFrom, eq_comm]
  | cons item rest ih =>
    simp only [itemsFrom, Checked.combine_eq_valid, Checked.map_eq_valid, Checked.under_eq_valid,
      h item, ih, List.forall₂_cons_left_iff]
    constructor
    · rintro ⟨_, others, ⟨value, hvalue, rfl⟩, hothers, rfl⟩
      exact ⟨value, others, hvalue, hothers, rfl⟩
    · rintro ⟨value, others, hvalue, hothers, rfl⟩
      exact ⟨_, others, ⟨value, hvalue, rfl⟩, hothers, rfl⟩

theorem reads_list (h : Reads reader content) : Reads (list reader) (SaysList content) := by
  intro document values
  cases document with
  | arr items =>
    have hitems : itemsFrom reader 0 items = .valid values ↔ List.Forall₂ content items values :=
      itemsFrom_eq_valid h 0
    simpa [list, SaysList] using hitems
  | _ => simp [list, SaysList, Checked.fail]

theorem entries_eq_valid {key : Reader κ} {keyContent : Json → κ → Prop}
    (hkey : Reads key keyContent)
    (h : Reads reader content) {fields : Json.Fields} {found : List (κ × α)} :
    entries key reader fields = .valid found ↔
      List.Forall₂
        (fun field entry => keyContent (.str field.1.mended) entry.1 ∧ content field.2 entry.2)
        fields found := by
  induction fields generalizing found with
  | nil => simp [entries, eq_comm]
  | cons field rest ih =>
    simp only [entries, Checked.combine_eq_valid, Checked.map_eq_valid, Checked.under_eq_valid,
      hkey (.str field.1.mended), h field.2, ih, List.forall₂_cons_left_iff]
    constructor
    · rintro ⟨_, others, ⟨_, ⟨_, value, ⟨name, hname, rfl⟩, hvalue, rfl⟩, rfl⟩, hothers, rfl⟩
      exact ⟨(name, value), others, ⟨hname, hvalue⟩, hothers, rfl⟩
    · rintro ⟨⟨name, value⟩, others, ⟨hname, hvalue⟩, hothers, rfl⟩
      exact ⟨_, others, ⟨_, ⟨_, value, ⟨name, hname, rfl⟩, hvalue, rfl⟩, rfl⟩, hothers, rfl⟩

theorem reads_table [DecidableEq κ] {key : Reader κ} {keyContent : Json → κ → Prop}
    (hkey : Reads key keyContent) (h : Reads reader content) :
    Reads (table key reader) (SaysTable keyContent content) := by
  intro document found
  cases document with
  | obj fields =>
    simp only [table, Checked.map_eq_valid, entries_eq_valid hkey h, SaysTable, Json.obj.injEq]
    constructor
    · rintro ⟨entries, hentries, rfl⟩
      exact ⟨fields, entries, rfl, rfl, hentries⟩
    · rintro ⟨_, entries, rfl, rfl, hentries⟩
      exact ⟨entries, hentries, rfl⟩
  | _ => simp [table, SaysTable, Checked.fail]

theorem required_eq_valid (h : Reads reader content) {fields : Json.Fields} {name : String}
    {value : α} :
    required fields name reader = .valid value ↔ FieldSays fields name content value := by
  unfold required FieldSays
  cases hfield : lookup fields name with
  | none => simp [Checked.fail, Checked.under]
  | some found => simp [Checked.under_eq_valid, h found.2, Prod.ext_iff]

theorem optional_eq_valid (h : Reads reader content) {fields : Json.Fields} {name : String}
    {default value : α} :
    optional fields name default reader = .valid value ↔
      FieldMaySay fields name default content value := by
  unfold optional FieldMaySay FieldSays
  cases hfield : lookup fields name with
  | none => simp [eq_comm]
  | some found => simp [Checked.under_eq_valid, h found.2, Prod.ext_iff]

theorem reads_record {ofFields : Json.Fields → Checked α} {content : Json.Fields → α → Prop}
    (h : ∀ fields value, ofFields fields = .valid value ↔ content fields value) (origin : Origin) :
    Reads (record origin ofFields) (SaysObject content) := by
  intro document value
  cases document with
  | obj fields =>
    change ofFields fields = _ ↔ _
    simp [h, SaysObject]
  | _ => simp [record, SaysObject, Checked.fail]

end Schema

open Schema

/-! ## Saved positions -/

/-- A text says the category that it names. -/
def Category.SaidBy (document : Json) (category : Category) : Prop := document = .str category.name

theorem Category.reads : Reads Category.reader Category.SaidBy := by
  intro document category
  cases document with
  | str name =>
    have hname : ofName? name = some category ↔ name = category.name := by
      constructor
      · intro h
        have hfound := List.find?_some h
        exact (of_decide_eq_true hfound).symm
      · rintro rfl
        exact category.ofName?_name
    rw [SaidBy, Json.str.injEq, ← hname]
    change Checked.ofOption .notListed (ofName? name) = _ ↔ _
    cases ofName? name <;> simp [Checked.ofOption, Checked.fail]
  | _ => simp [reader, oneOf, SaidBy, Checked.fail]

/-- An object says a table of values: a number under every name of every category that it names. -/
def ValueTable.SaidBy : Json → ValueTable → Prop :=
  SaysTable Category.SaidBy (SaysTable SaysText (SaysTo Origin.text.number))

theorem ValueTable.reads : Reads (ValueTable.reader .text) ValueTable.SaidBy :=
  reads_table Category.reads (reads_table reads_string (reads_saysTo _))

/-- The fields of an object say an entry of a history. -/
structure HistoryEntry.SaidByFields (fields : Json.Fields) (entry : HistoryEntry) : Prop where
  nodeId : FieldSays fields "nodeId" SaysText entry.nodeId
  text : FieldMaySay fields "text" "" SaysText entry.text
  choice : FieldMaySay fields "choice" "" SaysText entry.choice
  timestamp : FieldMaySay fields "timestamp" 0 (SaysTo integer) entry.timestamp

/-- An object says an entry of a history. -/
def HistoryEntry.SaidBy : Json → HistoryEntry → Prop := SaysObject SaidByFields

/-- The fields of an object say a saved position. -/
structure SaveSlot.SaidByFields (fields : Json.Fields) (position : SaveSlot) : Prop where
  currentNodeId : FieldSays fields "currentNodeId" SaysText position.currentNodeId
  values : FieldMaySay fields "variables" .empty ValueTable.SaidBy position.values
  history : FieldMaySay fields "history" [] (SaysList HistoryEntry.SaidBy) position.history
  timestamp : FieldMaySay fields "timestamp" 0 (SaysTo integer) position.timestamp

/-- An object says a saved position. -/
def SaveSlot.SaidBy : Json → SaveSlot → Prop := SaysObject SaidByFields

theorem HistoryEntry.reads : Reads (HistoryEntry.reader .text) HistoryEntry.SaidBy := by
  apply reads_record
  intro fields entry
  change Checked.combine (Checked.combine (Checked.combine (Checked.map _ _) _) _) _ = _ ↔ _
  simp only [Checked.combine_eq_valid, Checked.map_eq_valid, required_eq_valid reads_string,
    optional_eq_valid reads_string, optional_eq_valid (reads_saysTo integer)]
  constructor
  · rintro ⟨_, _, ⟨_, _, ⟨_, _, ⟨_, hnodeId, rfl⟩, htext, rfl⟩, hchoice, rfl⟩, htimestamp, rfl⟩
    exact ⟨hnodeId, htext, hchoice, htimestamp⟩
  · rintro ⟨hnodeId, htext, hchoice, htimestamp⟩
    exact ⟨_, _, ⟨_, _, ⟨_, _, ⟨_, hnodeId, rfl⟩, htext, rfl⟩, hchoice, rfl⟩, htimestamp, rfl⟩

theorem SaveSlot.reads : Reads (SaveSlot.reader .text) SaveSlot.SaidBy := by
  apply reads_record
  intro fields position
  change Checked.combine (Checked.combine (Checked.combine (Checked.map _ _) _) _) _ = _ ↔ _
  simp only [Checked.combine_eq_valid, Checked.map_eq_valid, required_eq_valid reads_string,
    optional_eq_valid ValueTable.reads, optional_eq_valid (reads_list HistoryEntry.reads),
    optional_eq_valid (reads_saysTo integer)]
  constructor
  · rintro ⟨_, _, ⟨_, _, ⟨_, _, ⟨_, hnodeId, rfl⟩, hvalues, rfl⟩, hhistory, rfl⟩, htimestamp, rfl⟩
    exact ⟨hnodeId, hvalues, hhistory, htimestamp⟩
  · rintro ⟨hnodeId, hvalues, hhistory, htimestamp⟩
    exact ⟨_, _, ⟨_, _, ⟨_, _, ⟨_, hnodeId, rfl⟩, hvalues, rfl⟩, hhistory, rfl⟩, htimestamp, rfl⟩

end Narrative
