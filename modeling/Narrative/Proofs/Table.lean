import Mathlib.Data.List.Nodup
import Narrative.Table

/-!
# Laws of tables

Writing a key that is absent appends it, writing what is already there changes nothing, and
removing a key forgets whatever was written under it while the other keys keep their places.
-/

namespace Narrative.Table

universe u v w

variable {κ : Type u} {α : Type v} [DecidableEq κ]

theorem setEntry_of_notMem {key : κ} {entries : List (κ × α)} (value : α)
    (h : key ∉ entries.map Prod.fst) : setEntry key value entries = entries ++ [(key, value)] := by
  induction entries with
  | nil => rfl
  | cons entry rest ih =>
    rw [List.map_cons, List.mem_cons, not_or] at h
    rw [setEntry, if_neg fun e => h.1 e.symm, ih h.2, List.cons_append]

theorem setEntry_append_cons {key : κ} {ahead : List (κ × α)} (h : key ∉ ahead.map Prod.fst)
    (old new : α) (behind : List (κ × α)) :
    setEntry key new (ahead ++ (key, old) :: behind) = ahead ++ (key, new) :: behind := by
  induction ahead with
  | nil => simp [setEntry]
  | cons entry rest ih =>
    rw [List.map_cons, List.mem_cons, not_or] at h
    rw [List.cons_append, setEntry, if_neg fun e => h.1 e.symm, ih h.2, List.cons_append]

theorem findEntry_eq_none {key : κ} {entries : List (κ × α)} :
    findEntry key entries = none ↔ key ∉ entries.map Prod.fst := by
  induction entries with
  | nil => simp [findEntry]
  | cons entry rest ih =>
    by_cases h : entry.1 = key
    · simp [findEntry, h]
    · simp only [findEntry, if_neg h, ih, List.map_cons, List.mem_cons, not_or]
      exact ⟨fun hrest => ⟨fun e => h e.symm, hrest⟩, And.right⟩

theorem findEntry_of_mem {key : κ} {value : α} {entries : List (κ × α)}
    (hnodup : (entries.map Prod.fst).Nodup) (h : (key, value) ∈ entries) :
    findEntry key entries = some value := by
  induction entries with
  | nil => simp at h
  | cons entry rest ih =>
    rw [List.map_cons, List.nodup_cons] at hnodup
    rcases List.mem_cons.1 h with rfl | h
    · simp [findEntry]
    · have hkey : entry.1 ≠ key := by
        rintro rfl
        exact hnodup.1 (List.mem_map.2 ⟨_, h, rfl⟩)
      rw [findEntry, if_neg hkey, ih hnodup.2 h]

theorem mem_of_findEntry {key : κ} {value : α} {entries : List (κ × α)}
    (h : findEntry key entries = some value) : (key, value) ∈ entries := by
  induction entries with
  | nil => simp [findEntry] at h
  | cons entry rest ih =>
    by_cases hkey : entry.1 = key
    · rw [findEntry, if_pos hkey] at h
      rw [← hkey, ← Option.some.inj h]
      exact List.mem_cons_self ..
    · rw [findEntry, if_neg hkey] at h
      exact List.mem_cons_of_mem _ (ih h)

theorem filter_key_of_findEntry {key : κ} {value : α} {entries : List (κ × α)}
    (hnodup : (entries.map Prod.fst).Nodup) (h : findEntry key entries = some value) :
    (entries.filter fun entry => entry.1 = key) = [(key, value)] := by
  induction entries with
  | nil => simp [findEntry] at h
  | cons entry rest ih =>
    rw [List.map_cons, List.nodup_cons] at hnodup
    by_cases hkey : entry.1 = key
    · have hrest : (rest.filter fun other => other.1 = key) = [] := by
        refine List.filter_eq_nil_iff.2 fun other hother => ?_
        have hne : other.1 ≠ key := by
          rw [← hkey]
          exact fun e => hnodup.1 (e ▸ List.mem_map_of_mem hother)
        simpa using hne
      rw [findEntry, if_pos hkey] at h
      rw [List.filter_cons_of_pos (by simpa using hkey), hrest, ← hkey, ← Option.some.inj h]
    · rw [findEntry, if_neg hkey] at h
      rw [List.filter_cons_of_neg (by simpa using hkey), ih hnodup.2 h]

theorem findEntry_map {β : Type w} (f : κ → α → β) (key : κ) (entries : List (κ × α)) :
    findEntry key (entries.map fun entry => (entry.1, f entry.1 entry.2)) =
      (findEntry key entries).map (f key) := by
  induction entries with
  | nil => rfl
  | cons entry rest ih =>
    by_cases hkey : entry.1 = key
    · simp [findEntry, hkey]
    · simp only [List.map_cons, findEntry, if_neg hkey, ih]

theorem dropEntry_of_notMem {key : κ} {entries : List (κ × α)}
    (h : key ∉ entries.map Prod.fst) : dropEntry key entries = entries := by
  rw [dropEntry, List.filter_eq_self]
  intro entry hentry
  have hkey : entry.1 ≠ key := by
    rintro rfl
    exact h (List.mem_map_of_mem hentry)
  simpa using hkey

theorem dropEntry_setEntry_self (key : κ) (value : α) (entries : List (κ × α)) :
    dropEntry key (setEntry key value entries) = dropEntry key entries := by
  induction entries with
  | nil => simp [setEntry, dropEntry]
  | cons entry rest ih =>
    by_cases h : entry.1 = key
    · simp [setEntry, dropEntry, h]
    · simpa [setEntry, dropEntry, h] using ih

theorem dropEntry_setEntry_of_ne {key other : κ} (h : key ≠ other) (value : α)
    (entries : List (κ × α)) :
    dropEntry other (setEntry key value entries) =
      setEntry key value (dropEntry other entries) := by
  induction entries with
  | nil => simp [setEntry, dropEntry, h]
  | cons entry rest ih =>
    by_cases hkey : entry.1 = key
    · have hother : entry.1 ≠ other := fun e => h (hkey.symm.trans e)
      simp [setEntry, dropEntry, hkey, h]
    · by_cases hother : entry.1 = other
      · simpa [setEntry, dropEntry, hkey, hother, Ne.symm h] using ih
      · simpa [setEntry, dropEntry, hkey, hother] using ih

theorem setEntry_setEntry (key : κ) (old new : α) (entries : List (κ × α)) :
    setEntry key new (setEntry key old entries) = setEntry key new entries := by
  induction entries with
  | nil => simp [setEntry]
  | cons entry rest ih =>
    by_cases h : entry.1 = key
    · simp [setEntry, h]
    · simpa [setEntry, h] using ih

theorem setEntry_comm {key other : κ} (h : key ≠ other) {entries : List (κ × α)}
    (hkey : key ∈ entries.map Prod.fst) (value new : α) :
    setEntry other new (setEntry key value entries) =
      setEntry key value (setEntry other new entries) := by
  induction entries with
  | nil => exact absurd hkey List.not_mem_nil
  | cons entry rest ih =>
    by_cases hfirst : entry.1 = key
    · have hother : entry.1 ≠ other := fun e => h (hfirst.symm.trans e)
      simp [setEntry, hfirst, h]
    · have hrest : key ∈ rest.map Prod.fst :=
        (List.mem_cons.1 hkey).resolve_left (Ne.symm hfirst)
      by_cases hother : entry.1 = other
      · simp [setEntry, hother, Ne.symm h]
      · simpa [setEntry, hfirst, hother] using ih hrest

/-! ## Tables -/

omit [DecidableEq κ] in
theorem ext_entries {table other : Table κ α} (h : table.entries = other.entries) :
    table = other := by
  cases table
  cases other
  simpa using h

theorem contains_eq_false {table : Table κ α} {key : κ} :
    table.contains key = false ↔ table.get? key = none := by
  simp [contains]

theorem entries_insert_of_notMem {table : Table κ α} {key : κ} (value : α)
    (h : table.get? key = none) :
    (table.insert key value).entries = table.entries ++ [(key, value)] :=
  setEntry_of_notMem value (findEntry_eq_none.1 h)

/-- Writing a key that is present leaves the entries ahead of it and behind it in their places. -/
theorem entries_insert_of_entries {table : Table κ α} {key : κ} {old : α}
    {ahead behind : List (κ × α)} (h : table.entries = ahead ++ (key, old) :: behind) (new : α) :
    (table.insert key new).entries = ahead ++ (key, new) :: behind := by
  have hnodup := table.nodup_keys
  rw [h, List.map_append, List.nodup_append] at hnodup
  have hahead : key ∉ ahead.map Prod.fst := fun hmem =>
    hnodup.2.2 key hmem key (List.mem_cons_self ..) rfl
  calc
    (table.insert key new).entries = setEntry key new table.entries := rfl
    _ = ahead ++ (key, new) :: behind := by rw [h, setEntry_append_cons hahead]

theorem insert_insert (table : Table κ α) (key : κ) (old new : α) :
    (table.insert key old).insert key new = table.insert key new :=
  ext_entries (setEntry_setEntry key old new table.entries)

/-- Two keys can be written in either order, unless both are new. -/
theorem insert_comm {table : Table κ α} {key other : κ} (h : key ≠ other)
    (hkey : (table.get? key).isSome) (value new : α) :
    (table.insert key value).insert other new = (table.insert other new).insert key value := by
  obtain ⟨old, hold⟩ := Option.isSome_iff_exists.1 hkey
  exact ext_entries (setEntry_comm h (List.mem_map_of_mem (mem_of_findEntry hold)) value new)

theorem erase_of_get? {table : Table κ α} {key : κ} (h : table.get? key = none) :
    table.erase key = table :=
  ext_entries (dropEntry_of_notMem (findEntry_eq_none.1 h))

theorem erase_insert_self (table : Table κ α) (key : κ) (value : α) :
    (table.insert key value).erase key = table.erase key :=
  ext_entries (dropEntry_setEntry_self key value table.entries)

theorem erase_insert_of_ne {key other : κ} (h : key ≠ other) (table : Table κ α) (value : α) :
    (table.insert key value).erase other = (table.erase other).insert key value :=
  ext_entries (dropEntry_setEntry_of_ne h value table.entries)

theorem foldl_insert_entries {entries : List (κ × α)} {table : Table κ α}
    (h : (table.entries ++ entries).map Prod.fst |>.Nodup) :
    (entries.foldl (fun table entry => table.insert entry.1 entry.2) table).entries =
      table.entries ++ entries := by
  induction entries generalizing table with
  | nil => simp
  | cons entry rest ih =>
    have hnew : table.get? entry.1 = none := by
      apply findEntry_eq_none.2
      rw [List.map_append, List.nodup_append] at h
      exact fun hmem => h.2.2 _ hmem _ (by simp) rfl
    have hentries := entries_insert_of_notMem entry.2 hnew
    rw [List.foldl_cons, ih (by rwa [hentries, List.append_assoc]), hentries, List.append_assoc]
    rfl

/-- A list without repeated keys is kept as it is. -/
theorem entries_ofList {entries : List (κ × α)} (h : (entries.map Prod.fst).Nodup) :
    (ofList entries).entries = entries :=
  foldl_insert_entries h

theorem ofList_entries (table : Table κ α) : ofList table.entries = table :=
  ext_entries (entries_ofList table.nodup_keys)

theorem contains_iff_mem_keys {table : Table κ α} {key : κ} :
    table.contains key ↔ key ∈ table.keys := by
  have hnone : table.get? key = none ↔ key ∉ table.keys := findEntry_eq_none
  rw [contains, Option.isSome_iff_ne_none, ne_eq, hnone, not_not]

theorem mem_keys_insert {table : Table κ α} {key other : κ} {value : α} :
    other ∈ (table.insert key value).keys ↔ other ∈ table.keys ∨ other = key := by
  rw [keys_insert]
  split
  case isTrue h => exact ⟨Or.inl, fun hmem => hmem.elim id fun heq => heq ▸ h⟩
  case isFalse => rw [List.mem_append, List.mem_singleton]

theorem mem_keys_ofList {entries : List (κ × α)} {key : κ} :
    key ∈ (ofList entries).keys ↔ key ∈ entries.map Prod.fst := by
  have hfold (table : Table κ α) :
      key ∈ (entries.foldl (fun table entry => table.insert entry.1 entry.2) table).keys ↔
        key ∈ table.keys ∨ key ∈ entries.map Prod.fst := by
    induction entries generalizing table with
    | nil => simp
    | cons entry rest ih =>
      rw [List.foldl_cons, ih, mem_keys_insert, List.map_cons, List.mem_cons, or_assoc]
  exact (hfold empty).trans ⟨fun h => h.resolve_left List.not_mem_nil, Or.inr⟩

/-- What is found in a table made from a list is in the list. -/
theorem mem_of_get?_ofList {entries : List (κ × α)} {key : κ} {value : α} :
    (ofList entries).get? key = some value → (key, value) ∈ entries := by
  have hfold (table : Table κ α)
      (h : (entries.foldl (fun table entry => table.insert entry.1 entry.2) table).get? key =
        some value) : (key, value) ∈ entries ∨ table.get? key = some value := by
    induction entries generalizing table with
    | nil => exact Or.inr h
    | cons entry rest ih =>
      rcases ih _ h with hrest | hfirst
      · exact Or.inl (List.mem_cons_of_mem _ hrest)
      · rw [get?_insert] at hfirst
        split at hfirst
        case isTrue hkey =>
          rw [← hkey, ← Option.some.inj hfirst]
          exact Or.inl (List.mem_cons_self ..)
        case isFalse => exact Or.inr hfirst
  exact fun h => (hfold empty h).resolve_right (by simp [get?_empty])

/-! ## Properties of all values -/

/-- Every value of the table has a property. -/
def All (p : α → Prop) (table : Table κ α) : Prop := ∀ entry ∈ table.entries, p entry.2

omit [DecidableEq κ] in
theorem all_empty (p : α → Prop) : (empty : Table κ α).All p := by simp [All, empty]

theorem All.insert {p : α → Prop} {table : Table κ α} (h : table.All p) (key : κ) {value : α}
    (hvalue : p value) : (table.insert key value).All p := by
  have hset (entries : List (κ × α)) (h : ∀ entry ∈ entries, p entry.2) :
      ∀ entry ∈ setEntry key value entries, p entry.2 := by
    induction entries with
    | nil => simpa [setEntry] using hvalue
    | cons entry rest ih =>
      rw [List.forall_mem_cons] at h
      unfold setEntry
      split
      · exact List.forall_mem_cons.2 ⟨hvalue, h.2⟩
      · exact List.forall_mem_cons.2 ⟨h.1, ih h.2⟩
  exact hset table.entries h

theorem all_ofList {p : α → Prop} {entries : List (κ × α)} (h : ∀ entry ∈ entries, p entry.2) :
    (ofList entries).All p := by
  have hfold (table : Table κ α) (htable : table.All p) :
      (entries.foldl (fun table entry => table.insert entry.1 entry.2) table).All p := by
    induction entries generalizing table with
    | nil => exact htable
    | cons entry rest ih =>
      rw [List.forall_mem_cons] at h
      exact ih h.2 _ (htable.insert entry.1 h.1)
  exact hfold empty (all_empty p)

end Narrative.Table
