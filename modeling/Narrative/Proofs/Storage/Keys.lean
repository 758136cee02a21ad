import Mathlib.Data.List.Basic
import Narrative.Storage.Repository
import Narrative.Proofs.Identifier
import Narrative.Proofs.Table

/-!
# Keys

Everything that is stored has a key of its own.  The spelling of an identifier has a fixed length,
so the key of a part of a story tells both the story and the part, however the name of a save slot
reads.  Two keys with the same text are the same key.
-/

namespace Narrative

/-! ## Keys -/

/-- What is kept of a story. -/
inductive StoryKey where
  | graph
  | definitions
  | slotList
  | slot (name : String)
deriving DecidableEq

/-- What is kept in the store. -/
inductive StoreKey where
  | catalog
  | lock (id : Identifier)
  | story (id : Identifier) (part : StoryKey)
deriving DecidableEq

/-- The last part of a key. -/
def StoryKey.part : StoryKey → String
  | graph => "storyData"
  | definitions => "variableDefinitions"
  | slotList => "saves"
  | slot name => "save_" ++ name

namespace StoreKey

/-- The text of a key. -/
def text : StoreKey → String
  | catalog => Repository.catalogKey
  | lock id => Repository.lockKey id.spelling
  | .story id part => Repository.key id.spelling part.part

theorem part_injective {part other : StoryKey} (h : part.part = other.part) : part = other := by
  have hchars := congrArg String.toList h
  cases part <;> cases other <;> simp [StoryKey.part] at hchars ⊢
  exact String.toList_inj.1 hchars

theorem toList_key (story part : String) :
    (Repository.key story part).toList =
      "branchtale:story:".toList ++ (story.toList ++ (":".toList ++ part.toList)) := by
  have hkey : Repository.key story part = "branchtale:story:" ++ story ++ ":" ++ part := rfl
  rw [hkey]
  simp only [String.toList_append, List.append_assoc]

theorem key_right_injective {story part other : String}
    (h : Repository.key story part = Repository.key story other) : part = other := by
  have hchars := congrArg String.toList h
  rw [toList_key, toList_key] at hchars
  exact String.toList_inj.1 (List.append_cancel_left (List.append_cancel_left
    (List.append_cancel_left hchars)))

theorem key_injective {id other : Identifier} {part more : String}
    (h : Repository.key id.spelling part = Repository.key other.spelling more) :
    id = other ∧ part = more := by
  have hchars := congrArg String.toList h
  rw [toList_key, toList_key] at hchars
  obtain ⟨hstory, hrest⟩ := List.append_inj (List.append_cancel_left hchars)
    (by rw [Identifier.length_spelling, Identifier.length_spelling])
  exact ⟨Identifier.spelling_injective (String.toList_inj.1 hstory),
    String.toList_inj.1 (List.append_cancel_left hrest)⟩

theorem catalogKey_ne_key (story part : String) :
    Repository.catalogKey ≠ Repository.key story part := by
  intro h
  have hchars := congrArg String.toList h
  rw [toList_key] at hchars
  simp [Repository.catalogKey] at hchars

theorem lockKey_ne_catalogKey (story : String) :
    Repository.lockKey story ≠ Repository.catalogKey := by
  intro h
  have hchars := congrArg String.toList h
  simp [Repository.catalogKey, Repository.lockKey] at hchars

theorem lockKey_ne_key (story other part : String) :
    Repository.lockKey story ≠ Repository.key other part := by
  intro h
  have hchars := congrArg String.toList h
  rw [toList_key] at hchars
  simp [Repository.lockKey] at hchars

/-- Keys with the same text are the same. -/
theorem text_injective {key other : StoreKey} (h : key.text = other.text) : key = other := by
  cases key with
  | catalog =>
    cases other with
    | catalog => rfl
    | lock => exact absurd h.symm (lockKey_ne_catalogKey _)
    | story => exact absurd h (catalogKey_ne_key _ _)
  | lock id =>
    cases other with
    | catalog => exact absurd h (lockKey_ne_catalogKey _)
    | lock other =>
      have hchars := congrArg String.toList h
      simp only [text, Repository.lockKey, String.toList_append] at hchars
      rw [Identifier.spelling_injective
        (String.toList_inj.1 (List.append_cancel_left hchars))]
    | story => exact absurd h (lockKey_ne_key _ _ _)
  | story id part =>
    cases other with
    | catalog => exact absurd h.symm (catalogKey_ne_key _ _)
    | lock => exact absurd h.symm (lockKey_ne_key _ _ _)
    | story other more =>
      obtain ⟨rfl, hpart⟩ := key_injective h
      rw [part_injective hpart]

@[simp]
theorem text_eq_text {key other : StoreKey} : key.text = other.text ↔ key = other :=
  ⟨text_injective, fun e => e ▸ rfl⟩

end StoreKey

/-! ## Reading and writing -/

theorem get?_insert_text (records : Records) (key other : StoreKey) (value : String) :
    (records.insert key.text value).get? other.text =
      if key = other then some value else records.get? other.text := by
  rw [Table.get?_insert]
  simp only [StoreKey.text_eq_text]

theorem get?_erase_text (records : Records) (key other : StoreKey) :
    (records.erase key.text).get? other.text =
      if key = other then none else records.get? other.text := by
  rw [Table.get?_erase]
  simp only [StoreKey.text_eq_text]

theorem erase_insert_text {key other : StoreKey} (h : key ≠ other) (records : Records)
    (value : String) :
    (records.insert key.text value).erase other.text =
      (records.erase other.text).insert key.text value :=
  Table.erase_insert_of_ne (fun e => h (StoreKey.text_injective e)) records value

end Narrative
