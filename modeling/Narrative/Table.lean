/-!
# Ordered tables

A `Table` is a finite map that keeps its keys in the order in which they first arrived: writing a
key that is present replaces its value in place, writing a new key appends it.  Distinctness of the
keys is part of the type, so a table is determined by its lookups together with its key order.

The lemmas say what each operation does to `keys` and to `get?`.
-/

namespace Narrative

universe u v w

/-- A finite map that remembers the order in which its keys first arrived. -/
structure Table (κ : Type u) (α : Type v) where
  /-- The keys with their values, oldest key first. -/
  entries : List (κ × α)
  /-- No key occurs twice. -/
  nodup_keys : (entries.map Prod.fst).Nodup

namespace Table

variable {κ : Type u} {α : Type v} {β : Type w} [DecidableEq κ]

/-! ## Lists of entries -/

/-- Write `value` under `key`: in place when the key is present, at the end otherwise. -/
def setEntry (key : κ) (value : α) : List (κ × α) → List (κ × α)
  | [] => [(key, value)]
  | entry :: rest =>
    if entry.1 = key then (key, value) :: rest else entry :: setEntry key value rest

/-- The value of the first entry under `key`. -/
def findEntry (key : κ) : List (κ × α) → Option α
  | [] => none
  | entry :: rest => if entry.1 = key then some entry.2 else findEntry key rest

/-- The entries under other keys than `key`. -/
def dropEntry (key : κ) (entries : List (κ × α)) : List (κ × α) :=
  entries.filter fun entry => entry.1 ≠ key

theorem map_fst_setEntry (key : κ) (value : α) (entries : List (κ × α)) :
    (setEntry key value entries).map Prod.fst =
      if key ∈ entries.map Prod.fst then entries.map Prod.fst
      else entries.map Prod.fst ++ [key] := by
  induction entries with
  | nil => simp [setEntry]
  | cons entry rest ih =>
    by_cases h : entry.1 = key
    · simp [setEntry, h]
    · have h' : ¬ key = entry.1 := fun e => h e.symm
      by_cases hr : key ∈ rest.map Prod.fst
      · simp only [setEntry, h, if_false, List.map_cons, ih, hr, if_true, List.mem_cons, h',
          false_or]
      · simp only [setEntry, h, if_false, List.map_cons, ih, hr, List.mem_cons, h', false_or,
          List.cons_append]

theorem nodup_setEntry (key : κ) (value : α) {entries : List (κ × α)}
    (h : (entries.map Prod.fst).Nodup) : ((setEntry key value entries).map Prod.fst).Nodup := by
  rw [map_fst_setEntry]
  split
  · exact h
  · rename_i hk
    rw [List.nodup_append]
    refine ⟨h, by simp, ?_⟩
    intro a ha b hb
    simp only [List.mem_singleton] at hb
    subst hb
    exact fun e => hk (e ▸ ha)

theorem findEntry_setEntry (key other : κ) (value : α) (entries : List (κ × α)) :
    findEntry other (setEntry key value entries) =
      if key = other then some value else findEntry other entries := by
  induction entries with
  | nil => simp [setEntry, findEntry]
  | cons entry rest ih =>
    by_cases h : entry.1 = key <;> by_cases ho : entry.1 = other <;>
      simp_all [setEntry, findEntry]
    intro e
    exact absurd e.symm h

theorem findEntry_dropEntry (key other : κ) (entries : List (κ × α)) :
    findEntry other (dropEntry key entries) =
      if key = other then none else findEntry other entries := by
  induction entries with
  | nil => simp [dropEntry, findEntry]
  | cons entry rest ih =>
    by_cases h : entry.1 = key <;> by_cases ho : entry.1 = other <;> by_cases hk : key = other <;>
      simp_all [findEntry, dropEntry]

/-! ## Operations -/

/-- The table without entries. -/
def empty : Table κ α := ⟨[], by simp⟩

instance : Inhabited (Table κ α) := ⟨empty⟩

/-- The keys, oldest first. -/
def keys (table : Table κ α) : List κ := table.entries.map Prod.fst

/-- The values, in the order of their keys. -/
def values (table : Table κ α) : List α := table.entries.map Prod.snd

/-- The value under `key`, if there is one. -/
def get? (table : Table κ α) (key : κ) : Option α := findEntry key table.entries

/-- Whether `key` has a value. -/
def contains (table : Table κ α) (key : κ) : Bool := (table.get? key).isSome

/-- Write `value` under `key`; a new key goes to the end. -/
def insert (table : Table κ α) (key : κ) (value : α) : Table κ α :=
  ⟨setEntry key value table.entries, nodup_setEntry key value table.nodup_keys⟩

/-- Remove `key`; the others keep their order. -/
def erase (table : Table κ α) (key : κ) : Table κ α :=
  ⟨dropEntry key table.entries,
    table.nodup_keys.sublist (List.filter_sublist.map Prod.fst)⟩

/-- Write a list of entries in turn: of two equal keys the later value counts, at the place of the
earlier one. -/
def ofList (entries : List (κ × α)) : Table κ α :=
  entries.foldl (fun table entry => table.insert entry.1 entry.2) empty

/-! ## What the operations do -/

theorem get?_empty (key : κ) : (empty : Table κ α).get? key = none := rfl

theorem get?_insert (table : Table κ α) (key other : κ) (value : α) :
    (table.insert key value).get? other = if key = other then some value else table.get? other :=
  findEntry_setEntry key other value table.entries

theorem keys_insert (table : Table κ α) (key : κ) (value : α) :
    (table.insert key value).keys =
      if key ∈ table.keys then table.keys else table.keys ++ [key] :=
  map_fst_setEntry key value table.entries

theorem get?_erase (table : Table κ α) (key other : κ) :
    (table.erase key).get? other = if key = other then none else table.get? other :=
  findEntry_dropEntry key other table.entries

end Table

end Narrative
