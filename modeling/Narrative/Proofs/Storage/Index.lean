import Mathlib.Data.List.Induction
import Narrative.Proofs.Storage.Plan

/-!
# The list of slots

The names of the save slots of a story are kept in a list beside the slots, under a key of its own.
After a save the two agree: what is listed is what has been saved, each name once and in the order
of the first saves.  Between the two writes of a save they may differ, but only in one direction: a
slot may be stored that is not listed yet, and never the other way around.
-/

namespace Narrative

variable {records other : Records} {id : Identifier} {names : List String} {name : String}

/-! ## Names that have been saved -/

theorem eraseDups_append_singleton (names : List String) (name : String) :
    (names ++ [name]).eraseDups =
      if name ∈ names.eraseDups then names.eraseDups else names.eraseDups ++ [name] := by
  have hsingle : [name].eraseDups = [name] := rfl
  rw [List.eraseDups_append]
  split
  case isTrue hmem =>
    have hold : [name].removeAll names = [] := by
      simpa [List.removeAll] using List.mem_eraseDups.1 hmem
    rw [hold, List.eraseDups_nil, List.append_nil]
  case isFalse hnew =>
    have hold : [name].removeAll names = [name] := by
      simpa [List.removeAll] using hnew
    rw [hold, hsingle]

theorem nodup_eraseDups (names : List String) : names.eraseDups.Nodup := by
  induction names using List.reverseRecOn with
  | nil => exact List.nodup_nil
  | append_singleton names name ih =>
    rw [eraseDups_append_singleton]
    split
    case isTrue => exact ih
    case isFalse hnew =>
      exact ih.append (List.nodup_singleton name) (by simpa using hnew)

/-- The slots of the story that hold a text are those with the names, and the list of slots has each
name at the place of its first save. -/
structure HoldsSlots (id : Identifier) (names : List String) (records : Records) : Prop where
  listed : NamesAt records (.story id .slotList) names.eraseDups
  stored : ∀ name,
    (records.get? (StoreKey.story id (.slot name)).text).isSome ↔ name ∈ names

namespace HoldsSlots

theorem congr (h : HoldsSlots id names records)
    (hlist : other.get? (StoreKey.story id .slotList).text =
      records.get? (StoreKey.story id .slotList).text)
    (hslot : ∀ name, other.get? (StoreKey.story id (.slot name)).text =
      records.get? (StoreKey.story id (.slot name)).text) : HoldsSlots id names other where
  listed := h.listed.congr hlist
  stored := by
    intro name
    rw [hslot]
    exact h.stored name

/-- Saving to a slot adds its name to those that have been saved. -/
theorem saved (h : HoldsSlots id names records) (name : String) (position : SaveSlot) :
    HoldsSlots id (names ++ [name]) (saved id name position records) where
  listed := by
    rw [eraseDups_append_singleton]
    exact namesAt_saved h.listed name position
  stored := by
    intro other
    rw [get?_saved_slot, List.mem_append, List.mem_singleton]
    by_cases hname : name = other
    · simp [hname]
    · rw [if_neg hname, h.stored]
      simp [Ne.symm hname]

/-- A plan adds the names of the slots to which it saves. -/
theorem store (h : HoldsSlots id names records) {α : Type} (plan : Plan α) :
    HoldsSlots id (names ++ plan.slots.map Prod.fst) (plan.store id records) := by
  have hfold (slots : List (String × SaveSlot)) (names : List String) (records : Records)
      (h : HoldsSlots id names records) : HoldsSlots id (names ++ slots.map Prod.fst)
        (slots.foldl (fun records entry => Narrative.saved id entry.1 entry.2 records)
          records) := by
    induction slots generalizing names records with
    | nil => simpa using h
    | cons entry rest ih =>
      have hrest := ih _ _ (h.saved entry.1 entry.2)
      rwa [List.append_assoc] at hrest
  rw [Plan.store_eq_foldl]
  apply hfold
  have hput (key : StoreKey) (hgraph : .story id .graph ≠ key)
      (hdefinitions : .story id .definitions ≠ key) :
      ({ plan with slots := [] : Plan α }.store id records).get? key.text =
        records.get? key.text := by
    change (putText _ _ (putText _ _ records)).get? key.text = _
    rw [get?_putText, if_neg hgraph, get?_putText, if_neg hdefinitions]
  exact h.congr (hput _ (by simp) (by simp)) fun name => hput _ (by simp) (by simp)

/-- A plan of another story adds none. -/
theorem store_story (h : HoldsSlots id names records) {α : Type} (plan : Plan α)
    (story : Identifier) :
    HoldsSlots id (names ++ if story = id then plan.slots.map Prod.fst else [])
      (plan.store story records) := by
  by_cases hid : story = id
  · subst hid
    rw [if_pos rfl]
    exact h.store plan
  · rw [if_neg hid, List.append_nil]
    have hget := plan.get?_store_story records hid
    exact h.congr (hget _) fun _ => hget _

end HoldsSlots

/-! ## Lists without gaps -/

/-- The list of the slots of every story names no slot twice, and none that holds no text. -/
def Indexed (records : Records) : Prop :=
  ∀ id, ∃ names, NamesAt records (.story id .slotList) names ∧ names.Nodup ∧
    ∀ name ∈ names, (records.get? (StoreKey.story id (.slot name)).text).isSome

theorem indexed_empty : Indexed .empty :=
  fun _ => ⟨[], Or.inl ⟨rfl, rfl⟩, List.nodup_nil, fun _ h => absurd h List.not_mem_nil⟩

namespace Indexed

theorem listed (h : Indexed records) (id : Identifier) : Listed records id := by
  obtain ⟨names, hnames, -⟩ := h id
  exact ⟨names, hnames⟩

/-- Where the lists stay and no slot is taken away, the lists stay without gaps. -/
theorem of_frame (h : Indexed records)
    (hlist : ∀ id, other.get? (StoreKey.story id .slotList).text =
      records.get? (StoreKey.story id .slotList).text)
    (hslot : ∀ id name, (records.get? (StoreKey.story id (.slot name)).text).isSome →
      (other.get? (StoreKey.story id (.slot name)).text).isSome) : Indexed other := by
  intro id
  obtain ⟨names, hnames, hnodup, hstored⟩ := h id
  exact ⟨names, hnames.congr (hlist id), hnodup, fun name hname =>
    hslot id name (hstored name hname)⟩

/-- A text may be put anywhere but in the place of a list. -/
theorem insert (h : Indexed records) {key : StoreKey} (hkey : ∀ id, key ≠ .story id .slotList)
    (text : String) : Indexed (records.insert key.text text) := by
  refine h.of_frame (fun id => ?_) fun id name hsome => ?_
  · rw [get?_insert_text, if_neg (hkey id)]
  · rw [get?_insert_text]
    split
    · rfl
    · exact hsome

theorem erase_lock (h : Indexed records) (id : Identifier) :
    Indexed (records.erase (StoreKey.lock id).text) := by
  refine h.of_frame (fun other => ?_) fun other name hsome => ?_
  · rw [get?_erase_text, if_neg (by simp)]
  · rwa [get?_erase_text, if_neg (by simp)]

theorem saved (h : Indexed records) (id : Identifier) (name : String) (position : SaveSlot) :
    Indexed (saved id name position records) := by
  intro other
  obtain ⟨names, hnames, hnodup, hstored⟩ := h other
  by_cases hid : id = other
  · subst hid
    refine ⟨_, namesAt_saved hnames name position, ?_, fun found hfound => ?_⟩
    · split
      case isTrue => exact hnodup
      case isFalse hnew =>
        exact hnodup.append (List.nodup_singleton name) (by simpa using hnew)
    · rw [get?_saved_slot]
      by_cases hname : name = found
      · rw [if_pos hname]
        rfl
      · rw [if_neg hname]
        apply hstored
        split at hfound
        · exact hfound
        · simpa [Ne.symm hname] using hfound
  · have hget (part : StoryKey) : (Narrative.saved id name position records).get?
        (StoreKey.story other part).text = records.get? (StoreKey.story other part).text :=
      get?_saved_of_ne _ _ _ (by simp [hid]) (by simp [hid])
    refine ⟨names, hnames.congr (hget _), hnodup, fun found hfound => ?_⟩
    rw [hget]
    exact hstored found hfound

end Indexed

end Narrative
