import Narrative.Proofs.Json.RoundTrip
import Narrative.Schema.Draft
import Narrative.Schema.Record

/-!
# Readers of written documents

A reader is complete for a writer when it takes everything the writer makes, as it is left in the
stored text.  Fields, lists and tables inherit this from their parts.
-/

namespace Narrative.Schema

open Json (settled)

universe u v

variable {α : Type u} {β : Type v}

/-- A field that is written is read. -/
theorem required_of_get? {fields : Json.Fields} {name : String} {value : Json} (reader : Reader α)
    (x : α) (hfield : fields.get? name = some value) (hvalue : reader value = .valid x) :
    required fields name reader = .valid x := by
  simp [required, lookup, hfield, hvalue]

theorem optional_of_get? {fields : Json.Fields} {name : String} {value : Json} {default : α}
    (reader : Reader α) (x : α) (hfield : fields.get? name = some value)
    (hvalue : reader value = .valid x) : optional fields name default reader = .valid x := by
  simp [optional, lookup, hfield, hvalue]

theorem nullAs_of_ne {value : Json} (default : α) (reader : Reader α) (h : value ≠ .null) :
    nullAs default reader value = reader value := by
  cases value <;> first | rfl | exact absurd rfl h

theorem itemsFrom_map {reader : Reader β} {write : α → Json} {keep : α → β} {items : List α}
    (h : ∀ item ∈ items, reader (write item) = .valid (keep item)) (index : ℕ) :
    itemsFrom reader index (items.map write) = .valid (items.map keep) := by
  induction items generalizing index with
  | nil => rfl
  | cons item rest ih =>
    rw [List.map_cons, itemsFrom, h item (List.mem_cons_self ..),
      ih fun other hother => h other (List.mem_cons_of_mem _ hother)]
    rfl

theorem list_map {reader : Reader β} {write : α → Json} (keep : α → β) {items : List α}
    (h : ∀ item ∈ items, reader (write item) = .valid (keep item)) :
    list reader (.arr (items.map write)) = .valid (items.map keep) :=
  itemsFrom_map h 0

theorem entries_map {κ : Type u} {key : Reader κ} {reader : Reader β} {name : κ → String}
    {write : κ → α → Json} {keep : κ → α → β} {items : List (κ × α)}
    (hkey : ∀ item ∈ items, key (.str (name item.1)) = .valid item.1)
    (hvalue : ∀ item ∈ items, reader (write item.1 item.2) = .valid (keep item.1 item.2)) :
    entries key reader (items.map fun item => (name item.1, write item.1 item.2)) =
      .valid (items.map fun item => (item.1, keep item.1 item.2)) := by
  induction items with
  | nil => rfl
  | cons item rest ih =>
    rw [List.map_cons, entries, Label.mended_text, hkey item (List.mem_cons_self ..),
      hvalue item (List.mem_cons_self ..),
      ih (fun other hother => hkey other (List.mem_cons_of_mem _ hother))
        (fun other hother => hvalue other (List.mem_cons_of_mem _ hother))]
    rfl

theorem table_map {κ : Type u} [DecidableEq κ] {key : Reader κ} {reader : Reader β}
    (name : κ → String) (write : κ → α → Json) (keep : κ → α → β) {items : List (κ × α)}
    (hkey : ∀ item ∈ items, key (.str (name item.1)) = .valid item.1)
    (hvalue : ∀ item ∈ items, reader (write item.1 item.2) = .valid (keep item.1 item.2)) :
    table key reader (.obj (items.map fun item => (name item.1, write item.1 item.2))) =
      .valid (Table.ofList (items.map fun item => (item.1, keep item.1 item.2))) := by
  change Checked.map Table.ofList _ = _
  rw [entries_map hkey hvalue, Checked.map_valid]

/-! ## Values that are read -/

theorem Checked.map_eq_valid {f : α → β} {x : Checked α} {result : β} :
    map f x = .valid result ↔ ∃ value, x = .valid value ∧ f value = result := by
  cases x <;> simp [map]

theorem Checked.under_eq_valid {step : Step} {x : Checked α} {result : α} :
    under step x = .valid result ↔ x = .valid result := by
  cases x <;> simp [under]

namespace Checked

/-- What a document says, whether or not it can be written again. -/
def value? : Checked α → Option α
  | valid value | unwritable value _ => some value
  | invalid _ => none

@[simp]
theorem value?_valid (value : α) : (valid value).value? = some value := rfl

@[simp]
theorem value?_invalid (issues : List Issue) : (invalid issues : Checked α).value? = none := rfl

@[simp]
theorem value?_under (step : Step) (x : Checked α) : (under step x).value? = x.value? := by
  cases x <;> rfl

theorem value?_map_eq_some {f : α → β} {x : Checked α} {result : β} :
    (map f x).value? = some result ↔ ∃ value, x.value? = some value ∧ f value = result := by
  cases x <;> simp [map, value?]

theorem value?_combine_eq_some {f : Checked (α → β)} {x : Checked α} {result : β} :
    (combine f x).value? = some result ↔
      ∃ g value, f.value? = some g ∧ x.value? = some value ∧ g value = result := by
  cases f <;> cases x <;> simp [combine, value?]

end Checked

/-- A draft is what a document says, and it can be stored if the document is in order. -/
theorem Draft.of_read {α : Type} {reader : Reader α} {document : Json} {draft : Draft α}
    (h : read reader document = .ok draft) :
    (reader document).value? = some draft.value ∧
      ∀ value, draft.storable = .ok value → reader document = .valid value := by
  unfold read at h
  cases hread : reader document with
  | valid value =>
    rw [hread] at h
    rw [← Except.ok.inj h]
    exact ⟨rfl, fun other hother => by rw [← Except.ok.inj hother]⟩
  | unwritable value points =>
    rw [hread] at h
    rw [← Except.ok.inj h]
    exact ⟨rfl, fun other hother => absurd hother (by simp [storable])⟩
  | invalid issues =>
    rw [hread] at h
    exact absurd h (by simp)

/-- If a table is read, so is every value in it. -/
theorem valid_of_entries {κ : Type u} {key : Reader κ} {reader : Reader β} {fields : Json.Fields}
    {result : List (κ × β)} (h : entries key reader fields = .valid result) :
    ∀ field ∈ fields, ∃ value, reader field.2 = .valid value := by
  induction fields generalizing result with
  | nil => simp
  | cons field rest ih =>
    obtain ⟨_, more, hfirst, hrest, -⟩ := Checked.combine_eq_valid.1 h
    obtain ⟨_, hentry, -⟩ := Checked.map_eq_valid.1 hfirst
    obtain ⟨_, value, -, hvalue, -⟩ := Checked.combine_eq_valid.1 hentry
    exact List.forall_mem_cons.2 ⟨⟨value, Checked.under_eq_valid.1 hvalue⟩, ih hrest⟩

theorem valid_of_table {κ : Type u} [DecidableEq κ] {key : Reader κ} {reader : Reader β}
    {fields : Json.Fields} {result : Table κ β}
    (h : table key reader (.obj fields) = .valid result) :
    ∀ field ∈ fields, ∃ value, reader field.2 = .valid value := by
  obtain ⟨_, hentries, -⟩ := Checked.map_eq_valid.1 h
  exact valid_of_entries hentries

end Narrative.Schema

namespace Narrative

theorem Text.exists_of_ofPoints?_eq_none {points : List ℕ} (h : ofPoints? points = none) :
    ∃ point ∈ points, ¬point.isValidChar := by
  induction points with
  | nil => exact absurd h (by simp [ofPoints?])
  | cons point rest ih =>
    by_cases hpoint : point.isValidChar
    · have hrest : ofPoints? rest = none := by
        unfold ofPoints? at h ⊢
        rw [List.mapM_cons, if_pos hpoint] at h
        cases hfound : rest.mapM fun point =>
          if point.isValidChar then some (Char.ofNat point) else none with
        | none => rfl
        | some chars => simp [hfound] at h
      obtain ⟨other, hother, hinvalid⟩ := ih hrest
      exact ⟨other, List.mem_cons_of_mem _ hother, hinvalid⟩
    · exact ⟨point, List.mem_cons_self .., hpoint⟩

/-- The first half of a surrogate pair is no text. -/
theorem Text.ofPoints?_half : ofPoints? [0xD800] = none := rfl

/-- The text in the place of a string that is none shows where it was mended. -/
theorem Label.replacement_mem_mended {points : List ℕ} (h : Text.ofPoints? points = none) :
    '\ufffd' ∈ (mended (.torn points h)).toList := by
  obtain ⟨point, hpoint, hinvalid⟩ := Text.exists_of_ofPoints?_eq_none h
  rw [mended, String.toList_ofList, List.mem_flatMap]
  exact ⟨point, hpoint, by rw [if_neg hinvalid]; simp⟩

theorem Label.mended_torn_ne_empty {points : List ℕ} (h : Text.ofPoints? points = none) :
    mended (.torn points h) ≠ "" := by
  intro hempty
  exact absurd (hempty ▸ replacement_mem_mended h) (by simp)

/-- Only one string stands for a text without replacement characters. -/
theorem Label.eq_text_of_mended {label : Label} {text : String} (h : label.mended = text)
    (htext : '\ufffd' ∉ text.toList) : label = .text text := by
  cases label with
  | text value => exact congrArg Label.text h
  | torn points htorn => exact absurd (h ▸ replacement_mem_mended htorn) htext
end Narrative

namespace Narrative.Json

/-! ## Stored documents -/

theorem settled_arr_map {α : Type} (write : α → Json) (items : List α) :
    settled (.arr (items.map write)) = .arr (items.map fun item => settled (write item)) := by
  rw [settled, settledItems_eq_map, List.map_map]
  rfl

theorem settled_obj_map {α : Type} (write : α → Label × Json) (items : List α) :
    settled (.obj (items.map write)) =
      .obj (items.map fun item => ((write item).1, settled (write item).2)) := by
  rw [settled, settledFields_eq_map, List.map_map]
  rfl

/-- A number as it is kept, with a default for the ones that are not. -/
def keptNumber (default x : Float) : Float := if Decimal.isFinite x then x else default

theorem nullAs_settled_num (default x : Float) :
    Schema.nullAs default Schema.number (settled (.num x)) = .valid (keptNumber default x) := by
  unfold settled keptNumber
  by_cases h : Decimal.isFinite x
  · rw [if_pos h, if_pos h]
    rfl
  · rw [if_neg h, if_neg h]
    rfl

theorem settled_num {x : Float} (h : Decimal.isFinite x) : settled (.num x) = .num x := by
  rw [settled, if_pos h]

theorem fits_list {α : Type} {levels : ℕ} {write : α → Json} {items : List α}
    (h : ∀ item ∈ items, Fits levels (write item)) :
    Fits (levels + 1) (.arr (items.map write)) := by
  apply Fits.arr
  intro value hvalue
  obtain ⟨item, hitem, rfl⟩ := List.mem_map.1 hvalue
  exact h item hitem

theorem fits_table {α : Type} {levels : ℕ} {name : α → String} {write : α → Json}
    {items : List α} (hnames : (items.map name).Nodup)
    (h : ∀ item ∈ items, Fits levels (write item)) :
    Fits (levels + 1) (.obj (items.map fun item => (.text (name item), write item))) := by
  have hinjective : Function.Injective Label.text := fun _ _ => Label.text.inj
  apply Fits.obj
  · rw [List.map_map]
    have hnodup := hnames.map hinjective
    rwa [List.map_map] at hnodup
  · intro field hfield
    obtain ⟨item, -, rfl⟩ := List.mem_map.1 hfield
    exact ⟨name item, rfl⟩
  · intro field hfield
    obtain ⟨item, hitem, rfl⟩ := List.mem_map.1 hfield
    exact h item hitem

end Narrative.Json
