import Narrative.Proofs.Table
import Narrative.Schema.Issue

/-!
# Fields that are left blank

Fields of a document can be chosen by the paths that lead to them.  The document with the chosen
fields left blank and the document without them differ only there, and all other fields are the
same.  What a reader makes of the two documents is another matter.
-/

namespace Narrative

open Schema (Step)

/-- Fields of a document that are chosen by their paths, each with the value that leaves it
blank. -/
abbrev Blanks := List Step → Option Json

/-- What becomes of the fields of a document: a field may stay (`none`), get another value, or
disappear (`some none`). -/
abbrev FieldEdits := List Step → Option (Option Json)

/-- The edits of the parts of a place. -/
def FieldEdits.below (edits : FieldEdits) (step : Step) : FieldEdits := fun path =>
  edits (step :: path)

namespace Blanks

variable (blanks : Blanks)

/-- The chosen fields of the parts of a place. -/
def below (step : Step) : Blanks := fun path => blanks (step :: path)

/-- Leave the chosen fields blank. -/
def write : FieldEdits := fun path => (blanks path).map some

/-- Take the chosen fields away. -/
def drop : FieldEdits := fun path => (blanks path).map fun _ => none

end Blanks

namespace Json

/-! ## Edited documents -/

mutual

/-- A document with its fields edited. -/
def edited (edits : FieldEdits) : Json → Json
  | arr items => arr (editedItems edits 0 items)
  | obj fields => obj (editedFields edits fields)
  | value => value

/-- The items of an array from a position on, with their fields edited. -/
def editedItems (edits : FieldEdits) (index : ℕ) : List Json → List Json
  | [] => []
  | item :: rest =>
    edited (edits.below (.item index)) item :: editedItems edits (index + 1) rest

/-- The fields of an object, edited. -/
def editedFields (edits : FieldEdits) : List (Label × Json) → List (Label × Json)
  | [] => []
  | (name, value) :: rest =>
    match edits [.field name] with
    | none => (name, edited (edits.below (.field name)) value) :: editedFields edits rest
    | some (some new) => (name, new) :: editedFields edits rest
    | some none => editedFields edits rest

end

/-- The document with the chosen fields left blank. -/
def blanked (blanks : Blanks) (document : Json) : Json := document.edited blanks.write

/-- The document without the chosen fields. -/
def pruned (blanks : Blanks) (document : Json) : Json := document.edited blanks.drop

/-- A value that leaves a field blank. -/
def IsBlank (value : Json) : Prop := value = .null ∨ value = .str ""

mutual

theorem edited_of_none {edits : FieldEdits} (h : ∀ path, edits path = none) (value : Json) :
    value.edited edits = value := by
  cases value with
  | arr items => rw [edited, editedItems_of_none h]
  | obj fields => rw [edited, editedFields_of_none h]
  | _ => rfl

theorem editedItems_of_none {edits : FieldEdits} (h : ∀ path, edits path = none) (index : ℕ)
    (items : List Json) :
    editedItems edits index items = items := by
  cases items with
  | nil => rfl
  | cons item rest =>
    have hbelow (path : List Step) : edits.below (.item index) path = none := h _
    rw [editedItems, edited_of_none hbelow, editedItems_of_none h]

theorem editedFields_of_none {edits : FieldEdits} (h : ∀ path, edits path = none)
    (fields : Fields) :
    editedFields edits fields = fields := by
  cases fields with
  | nil => rfl
  | cons field rest =>
    have hbelow (path : List Step) : edits.below (.field field.1) path = none := h _
    rw [editedFields, h]
    simp only
    rw [edited_of_none hbelow, editedFields_of_none h]

end

/-- Where no field of an object is chosen, the values are edited one by one. -/
theorem editedFields_eq_map {edits : FieldEdits} (h : ∀ name, edits [.field name] = none)
    (fields : Fields) :
    editedFields edits fields =
      fields.map fun field => (field.1, edited (edits.below (.field field.1)) field.2) := by
  induction fields with
  | nil => rfl
  | cons field rest ih =>
    rw [editedFields, h]
    simp only
    rw [ih, List.map_cons]

theorem get?_editedFields (edits : FieldEdits) (fields : Fields) (name : Label) :
    Fields.get? (editedFields edits fields) name =
      match edits [.field name] with
      | none => (Fields.get? fields name).map (edited (edits.below (.field name)))
      | some new => (Fields.get? fields name).bind fun _ => new := by
  induction fields with
  | nil => cases edits [.field name] <;> rfl
  | cons field rest ih =>
    obtain ⟨key, value⟩ := field
    by_cases hkey : key = name
    · subst hkey
      have hfound : Fields.get? ((key, value) :: rest) key = some value := by
        simp [Fields.get?, Table.findEntry]
      rw [hfound]
      rw [editedFields]
      cases hedit : edits [.field key] with
      | none => simp [Fields.get?, Table.findEntry]
      | some new =>
        cases new with
        | some new => simp [Fields.get?, Table.findEntry]
        | none =>
          rw [hedit] at ih
          simpa using ih
    · have hfound : Fields.get? ((key, value) :: rest) name = Fields.get? rest name := by
        simp [Fields.get?, Table.findEntry, hkey]
      rw [hfound, ← ih, editedFields]
      cases hedit : edits [.field key] with
      | none => simp [Fields.get?, Table.findEntry, hkey]
      | some new => cases new <;> simp [Fields.get?, Table.findEntry, hkey]

/-! ## Fields of the two documents -/

section Blanks

variable (blanks : Blanks)

theorem get?_blankedFields (fields : Fields) (name : Label) :
    Fields.get? (editedFields blanks.write fields) name =
      match blanks [.field name] with
      | none => (Fields.get? fields name).map (blanked (blanks.below (.field name)))
      | some value => (Fields.get? fields name).map fun _ => value := by
  rw [get?_editedFields, Blanks.write]
  cases blanks [.field name] with
  | none => rfl
  | some value => cases Fields.get? fields name <;> rfl

theorem get?_prunedFields (fields : Fields) (name : Label) :
    Fields.get? (editedFields blanks.drop fields) name =
      match blanks [.field name] with
      | none => (Fields.get? fields name).map (pruned (blanks.below (.field name)))
      | some _ => none := by
  rw [get?_editedFields, Blanks.drop]
  cases blanks [.field name] with
  | none => rfl
  | some value => cases Fields.get? fields name <;> rfl

end Blanks

end Json

end Narrative
