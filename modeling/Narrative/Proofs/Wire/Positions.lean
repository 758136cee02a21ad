import Narrative.Proofs.Wire.Documents
import Narrative.Storage.Repository

/-!
# Stored positions

A saved position reads back from its stored text as it was, provided that its values are finite and
its times are not absurdly long.  A value that is not finite would make the whole position
unreadable.
-/

namespace Narrative

open Json (settled Fits)
open Schema

/-- Every value of the table is finite. -/
def ValueTable.Finite (values : ValueTable) : Prop :=
  ∀ group ∈ values.entries, ∀ entry ∈ group.2.entries, Decimal.isFinite entry.2

/-- A time that can be read again. -/
def ShortTime (time : ℤ) : Prop := time.natAbs < 10 ^ Numeral.digitLimit

/-- A history whose times can be read again. -/
def ShortTimes (history : List HistoryEntry) : Prop :=
  ∀ entry ∈ history, ShortTime entry.timestamp

/-- The times of a position can be read again. -/
structure SaveSlot.Timely (slot : SaveSlot) : Prop where
  history : ShortTimes slot.history
  timestamp : ShortTime slot.timestamp

/-- A position that can be read again. -/
structure SaveSlot.Readable (slot : SaveSlot) : Prop extends Timely slot where
  values : slot.values.Finite

theorem ValueTable.reader_settled {values : ValueTable} (h : values.Finite) :
    reader .text (settled values.toJson) = .valid values := by
  have hnumber (entry : String × Float) (hentry : Decimal.isFinite entry.2) :
      Origin.text.number (settled (.num entry.2)) = .valid entry.2 := by
    rw [Json.settled_num hentry]
    rfl
  have hgroup (group : Category × Table String Float) (hgroup : group ∈ values.entries) :
      Schema.table Schema.string Origin.text.number (settled (.obj (group.2.entries.map
        fun entry => (entry.1, .num entry.2)))) = .valid group.2 := by
    rw [Json.settled_obj_map, table_map (fun key => key)
      (fun _ value => settled (.num value)) (fun _ value => value) (fun _ _ => rfl)
      fun entry hentry => hnumber entry (h group hgroup entry hentry)]
    simp [Table.ofList_entries]
  have hcategory (category : Category) :
      Category.reader (.str category.name) = .valid category := category.reader_settled
  unfold reader toJson
  rw [Json.settled_obj_map]
  simp only
  rw [table_map Category.name
    (fun _ (group : Table String Float) => settled (.obj (group.entries.map
      fun entry => (entry.1, .num entry.2)))) (fun _ group => group)
    (fun group _ => hcategory group.1) hgroup]
  simp [Table.ofList_entries]

/-- A value that is not finite makes the whole table unreadable. -/
theorem ValueTable.finite_of_reader {values found : ValueTable}
    (h : reader .text (settled values.toJson) = .valid found) : values.Finite := by
  intro group hgroup entry hentry
  unfold reader toJson at h
  rw [Json.settled_obj_map] at h
  obtain ⟨_, hread⟩ := valid_of_table h _ (List.mem_map_of_mem hgroup)
  simp only at hread
  rw [Json.settled_obj_map] at hread
  obtain ⟨_, hnumber⟩ := valid_of_table hread _ (List.mem_map_of_mem hentry)
  by_contra hinfinite
  simp only [settled, if_neg hinfinite] at hnumber
  exact absurd hnumber (by simp [Origin.number, roundedNumber, number, Checked.fail])

theorem ValueTable.fits (levels : ℕ) (values : ValueTable) : Fits (levels + 2) values.toJson := by
  have hinjective : Function.Injective Category.name := by
    intro category other h
    have hname := Category.ofName?_name category
    rw [h, Category.ofName?_name] at hname
    exact (Option.some.inj hname).symm
  apply Json.fits_table
  · have hnodup := values.nodup_keys.map hinjective
    rwa [List.map_map] at hnodup
  · intro group _
    apply Json.fits_table group.2.nodup_keys
    intro entry _
    exact .num ..

theorem HistoryEntry.reader_settled (origin : Origin) (entry : HistoryEntry) :
    reader origin (settled entry.toJson) = .valid entry := by
  unfold toJson reader record ofFields
  rw [settled]
  simp only [Json.settledFields]
  rw [required_of_get? Schema.string entry.nodeId rfl rfl,
    optional_of_get? Schema.string entry.text rfl rfl,
    optional_of_get? Schema.string entry.choice rfl rfl,
    optional_of_get? Schema.integer entry.timestamp rfl rfl]
  rfl

theorem HistoryEntry.fits (levels : ℕ) {entry : HistoryEntry} (h : ShortTime entry.timestamp) :
    Fits (levels + 1) entry.toJson := by
  refine Fits.obj (by simp) (by simp) ?_
  simp only [List.forall_mem_cons]
  exact ⟨.str .., .str .., .str .., .int _ h, by simp⟩

/-! ## Positions -/

namespace SaveSlot

theorem reader_settled {slot : SaveSlot} (h : slot.Readable) :
    reader .text (settled slot.toJson) = .valid slot := by
  have hhistory : Schema.list (HistoryEntry.reader .text)
      (settled (.arr (slot.history.map HistoryEntry.toJson))) = .valid slot.history := by
    rw [Json.settled_arr_map, list_map id fun entry _ => entry.reader_settled .text,
      List.map_id]
  unfold toJson reader record ofFields
  rw [settled]
  simp only [Json.settledFields]
  rw [required_of_get? Schema.string slot.currentNodeId rfl rfl,
    optional_of_get? _ _ rfl (ValueTable.reader_settled h.values),
    optional_of_get? _ _ rfl hhistory,
    optional_of_get? Schema.integer slot.timestamp rfl rfl]
  rfl

theorem fits (levels : ℕ) {slot : SaveSlot} (h : slot.Timely) :
    Fits (levels + 3) slot.toJson := by
  refine Fits.obj (by simp) (by simp) ?_
  simp only [List.forall_mem_cons]
  exact ⟨.str .., slot.values.fits _, Json.fits_list fun entry hentry =>
    HistoryEntry.fits levels (h.history entry hentry), .int _ h.timestamp, by simp⟩

/-- A stored position is read as it was. -/
theorem ofText_text {slot : SaveSlot} (h : slot.Readable) :
    ofText reader slot.toJson.text = .valid slot := by
  rw [Schema.ofText_text (fits 0 h.toTimely) (by decide), reader_settled h]

/-- A stored position that is read has finite values only, so it is read as it was. -/
theorem readable_of_ofText {slot found : SaveSlot} (h : slot.Timely)
    (hfound : ofText reader slot.toJson.text = .valid found) : slot.Readable := by
  rw [Schema.ofText_text (fits 0 h) (by decide)] at hfound
  unfold toJson reader record ofFields at hfound
  rw [settled] at hfound
  simp only [Json.settledFields] at hfound
  obtain ⟨_, _, hhistory, -, -⟩ := Checked.combine_eq_valid.1 hfound
  obtain ⟨_, _, hvalues, -, -⟩ := Checked.combine_eq_valid.1 hhistory
  obtain ⟨_, values, -, hread, -⟩ := Checked.combine_eq_valid.1 hvalues
  exact ⟨h, ValueTable.finite_of_reader (Checked.under_eq_valid.1 hread)⟩

end SaveSlot

/-! ## Lists of names -/

theorem Json.text_isEmpty {fields : Json.Fields} :
    (Json.obj fields).text.isEmpty = false := by
  rw [Json.text, writeWith, String.isEmpty_eq_false_iff]
  intro h
  have := congrArg String.toList h
  simp at this

namespace Repository

theorem parsedSlot_text {slot : SaveSlot} (h : slot.Readable) :
    parsedSlot slot.toJson.text = some slot := by
  rw [parsedSlot, SaveSlot.ofText_text h]
  rfl

/-- A stored position is read as it was or not at all. -/
theorem eq_of_parsedSlot {slot found : SaveSlot} (h : slot.Timely)
    (hfound : parsedSlot slot.toJson.text = some found) : found = slot ∧ slot.Readable := by
  cases hread : ofText SaveSlot.reader slot.toJson.text with
  | unwritable | invalid => simp [parsedSlot, hread, Checked.toOption] at hfound
  | valid value =>
    have hreadable := SaveSlot.readable_of_ofText h hread
    rw [parsedSlot_text hreadable] at hfound
    exact ⟨(Option.some.inj hfound).symm, hreadable⟩

theorem parsedNames_listText (names : List String) :
    parsedNames (Json.listText (names.map .text)) = .ok (names.map .text) := by
  have hne : (Json.listText (names.map .text)).isEmpty = false := by
    rw [Json.listText, String.isEmpty_eq_false_iff]
    intro h
    have := congrArg String.toList h
    simp at this
  rw [parsedNames, hne, Json.read_listText names (by decide)]
  simp [Repository.names, Json.asName]

theorem parsed_definitions (definitions : Definitions) :
    parsed "VariableDefinitionSet" Definitions.reader definitions.toJson.text =
      .ok definitions.kept := by
  rw [parsed, Definitions.ofText_text]

theorem parsed_graph (graph : Graph) :
    parsed "StoryGraph" Graph.reader graph.toJson.text = .ok graph.kept := by
  rw [parsed, Graph.ofText_text]

end Repository

end Narrative
