import Narrative.Proofs.Storage.Stored

/-!
# Plans

A plan says what is to be stored of a story: perhaps definitions, perhaps a graph, and positions in
save slots, in this order.  Whatever changes a story amounts to a plan that is made in memory and
then stored.  Storing a plan touches the keys of its story only, keeps a kept store kept, and does
not notice a lock.
-/

namespace Narrative

/-- What is to be stored of a story, and what is answered. -/
structure Plan (α : Type) where
  definitions : Option Definitions := none
  graph : Option Graph := none
  slots : List (String × SaveSlot) := []
  outcome : Except Failure α

/-- Write a text if there is one. -/
def putText (key : StoreKey) (text : Option String) (records : Records) : Records :=
  match text with
  | some text => records.insert key.text text
  | none => records

/-- The store with a position in a save slot, and with the name of the slot in the list. -/
def saved (id : Identifier) (name : String) (position : SaveSlot) (records : Records) : Records :=
  let labels := Stored.labels records (.story id .slotList)
  putText (.story id .slotList)
    (if Label.text name ∈ labels then none else some (Json.listText (labels ++ [.text name])))
    (records.insert (StoreKey.story id (.slot name)).text position.toJson.text)

namespace Plan

variable {α β : Type}

/-- A plan that stores nothing. -/
def refused (failure : Failure) : Plan α := { outcome := .error failure }

/-- The plan with another answer. -/
def map (f : α → β) (plan : Plan α) : Plan β :=
  { definitions := plan.definitions, graph := plan.graph, slots := plan.slots
    outcome := plan.outcome.map f }

/-- The store with a plan carried out. -/
def store (plan : Plan α) (id : Identifier) (records : Records) : Records :=
  plan.slots.foldl (fun records entry => saved id entry.1 entry.2 records)
    (putText (.story id .graph) (plan.graph.map fun graph => graph.toJson.text)
      (putText (.story id .definitions)
        (plan.definitions.map fun definitions => definitions.toJson.text) records))

/-- The positions of the plan can be read again, apart from values that are not finite. -/
def Timely (plan : Plan α) : Prop := ∀ entry ∈ plan.slots, entry.2.Timely

@[simp]
theorem store_map (f : α → β) (plan : Plan α) (id : Identifier) (records : Records) :
    (plan.map f).store id records = plan.store id records := rfl

@[simp]
theorem store_refused (failure : Failure) (id : Identifier) (records : Records) :
    (refused failure : Plan α).store id records = records := rfl

end Plan

theorem get?_putText (key other : StoreKey) (text : Option String) (records : Records) :
    (putText key text records).get? other.text =
      if key = other then text.or (records.get? other.text) else records.get? other.text := by
  cases text with
  | none =>
    rw [putText, Option.none_or, ite_self]
  | some text => rw [putText, get?_insert_text, Option.some_or]

theorem erase_putText {key other : StoreKey} (h : key ≠ other) (text : Option String)
    (records : Records) :
    (putText key text records).erase other.text = putText key text (records.erase other.text) := by
  cases text with
  | none => rfl
  | some text => exact erase_insert_text h records text

theorem get?_saved_of_ne {id : Identifier} {key : StoreKey} (name : String) (position : SaveSlot)
    (records : Records) (hlist : .story id .slotList ≠ key) (hslot : .story id (.slot name) ≠ key) :
    (saved id name position records).get? key.text = records.get? key.text := by
  rw [saved, get?_putText, if_neg hlist, get?_insert_text, if_neg hslot]

theorem get?_saved_slot (id : Identifier) (name other : String) (position : SaveSlot)
    (records : Records) :
    (saved id name position records).get? (StoreKey.story id (.slot other)).text =
      if name = other then some position.toJson.text
      else records.get? (StoreKey.story id (.slot other)).text := by
  rw [saved, get?_putText, if_neg (by simp), get?_insert_text]
  simp only [StoreKey.story.injEq, true_and, StoryKey.slot.injEq]

theorem Stored.definitions_saved (id : Identifier) (name : String) (position : SaveSlot)
    (records : Records) : definitions (saved id name position records) id =
      definitions records id := by
  rw [definitions, get?_saved_of_ne _ _ _ (by simp) (by simp)]
  rfl

theorem Stored.graph_saved (id : Identifier) (name : String) (position : SaveSlot)
    (records : Records) : graph (saved id name position records) id = graph records id := by
  rw [graph, get?_saved_of_ne _ _ _ (by simp) (by simp)]
  rfl

/-- Saving a position keeps the list of names in order. -/
theorem namesAt_saved {id : Identifier} {records : Records} {names : List String}
    (h : NamesAt records (.story id .slotList) names) (name : String) (position : SaveSlot) :
    NamesAt (saved id name position records) (.story id .slotList)
      (if name ∈ names then names else names ++ [name]) := by
  have hmem : Label.text name ∈ names.map Label.text ↔ name ∈ names := by simp
  have hget : (records.insert (StoreKey.story id (.slot name)).text position.toJson.text).get?
      (StoreKey.story id .slotList).text = records.get? (StoreKey.story id .slotList).text := by
    rw [get?_insert_text, if_neg (by simp)]
  unfold saved
  simp only [h.labels]
  by_cases hlisted : name ∈ names
  · rw [if_pos hlisted, if_pos (hmem.2 hlisted)]
    exact h.congr hget
  · rw [if_neg hlisted, if_neg fun hin => hlisted (hmem.1 hin)]
    apply Or.inr
    rw [get?_putText, if_pos rfl, Option.some_or, List.map_append]
    rfl

/-- The list of names of a store is the same under a lock. -/
theorem erase_saved (id other : Identifier) (name : String) (position : SaveSlot)
    (records : Records) :
    (saved id name position records).erase (StoreKey.lock other).text =
      saved id name position (records.erase (StoreKey.lock other).text) := by
  have hlabels : Stored.labels (records.erase (StoreKey.lock other).text)
      (.story id .slotList) = Stored.labels records (.story id .slotList) := by
    rw [Stored.labels, get?_erase_text, if_neg (by simp)]
    rfl
  unfold saved
  rw [erase_putText (by simp), erase_insert_text (by simp), hlabels]

theorem kept_saved {records : Records} (h : Kept records) (id : Identifier) (name : String)
    {position : SaveSlot} (hposition : position.Timely) :
    Kept (saved id name position records) := by
  have hget (key : StoreKey) (hlist : .story id .slotList ≠ key)
      (hslot : .story id (.slot name) ≠ key) :
      (saved id name position records).get? key.text = records.get? key.text :=
    get?_saved_of_ne name position records hlist hslot
  refine ⟨?_, ?_, ?_, ?_, ?_⟩
  · obtain ⟨ids, hids⟩ := h.catalog
    exact ⟨ids, hids.congr (hget _ (by simp) (by simp))⟩
  · intro other
    obtain ⟨names, hnames⟩ := h.slotList other
    by_cases hid : id = other
    · subst hid
      exact ⟨_, namesAt_saved hnames name position⟩
    · exact ⟨names, hnames.congr (hget _ (by simpa using hid) (by simp))⟩
  · intro other text htext
    rw [hget _ (by simp) (by simp)] at htext
    exact h.definitions other text htext
  · intro other text htext
    rw [hget _ (by simp) (by simp)] at htext
    exact h.graph other text htext
  · intro other found text htext
    by_cases hslot : StoreKey.story id (.slot name) = .story other (.slot found)
    · simp only [StoreKey.story.injEq, StoryKey.slot.injEq] at hslot
      obtain ⟨rfl, rfl⟩ := hslot
      rw [get?_saved_slot, if_pos rfl] at htext
      exact ⟨position, hposition, (Option.some.inj htext).symm⟩
    · rw [hget _ (by simp) hslot] at htext
      exact h.slot other found text htext

/-! ## Plans -/

namespace Plan

variable {α : Type} {id : Identifier}

/-- The store before the positions are saved. -/
theorem store_eq_foldl (plan : Plan α) (id : Identifier) (records : Records) :
    plan.store id records =
      plan.slots.foldl (fun records entry => saved id entry.1 entry.2 records)
        ({ plan with slots := [] : Plan α }.store id records) := rfl

theorem get?_foldl_saved {key : StoreKey} (slots : List (String × SaveSlot)) (records : Records)
    (hlist : .story id .slotList ≠ key)
    (hslot : ∀ entry ∈ slots, .story id (.slot entry.1) ≠ key) :
    (slots.foldl (fun records entry => saved id entry.1 entry.2 records) records).get? key.text =
      records.get? key.text := by
  induction slots generalizing records with
  | nil => rfl
  | cons entry rest ih =>
    rw [List.forall_mem_cons] at hslot
    rw [List.foldl_cons, ih _ hslot.2, get?_saved_of_ne _ _ _ hlist hslot.1]

/-- A plan touches the keys of its story only, and of the slots only those that it names. -/
theorem get?_store_of_ne (plan : Plan α) {key : StoreKey} (records : Records)
    (hgraph : .story id .graph ≠ key) (hdefinitions : .story id .definitions ≠ key)
    (hlist : .story id .slotList ≠ key)
    (hslot : ∀ entry ∈ plan.slots, .story id (.slot entry.1) ≠ key) :
    (plan.store id records).get? key.text = records.get? key.text := by
  rw [store, get?_foldl_saved _ _ hlist hslot, get?_putText, if_neg hgraph, get?_putText,
    if_neg hdefinitions]

theorem get?_store_catalog (plan : Plan α) (records : Records) :
    (plan.store id records).get? StoreKey.catalog.text = records.get? StoreKey.catalog.text :=
  plan.get?_store_of_ne records (by simp) (by simp) (by simp) (by simp)

theorem registered_store (plan : Plan α) (records : Records) (other : Identifier) :
    Stored.Registered (plan.store id records) other ↔ Stored.Registered records other := by
  rw [Stored.Registered, Stored.labels, get?_store_catalog]
  rfl

theorem get?_store_lock (plan : Plan α) (records : Records) (other : Identifier) :
    (plan.store id records).get? (StoreKey.lock other).text =
      records.get? (StoreKey.lock other).text :=
  plan.get?_store_of_ne records (by simp) (by simp) (by simp) (by simp)

theorem get?_store_story (plan : Plan α) (records : Records) {other : Identifier}
    (h : id ≠ other) (part : StoryKey) :
    (plan.store id records).get? (StoreKey.story other part).text =
      records.get? (StoreKey.story other part).text :=
  plan.get?_store_of_ne records (by simp [h]) (by simp [h]) (by simp [h]) (by simp [h])

theorem get?_store_definitions (plan : Plan α) (records : Records) :
    (plan.store id records).get? (StoreKey.story id .definitions).text =
      (plan.definitions.map fun definitions => definitions.toJson.text).or
        (records.get? (StoreKey.story id .definitions).text) := by
  rw [store, get?_foldl_saved _ _ (by simp) (by simp), get?_putText, if_neg (by simp),
    get?_putText, if_pos rfl]

theorem get?_store_graph (plan : Plan α) (records : Records) :
    (plan.store id records).get? (StoreKey.story id .graph).text =
      (plan.graph.map fun graph => graph.toJson.text).or
        (records.get? (StoreKey.story id .graph).text) := by
  rw [store, get?_foldl_saved _ _ (by simp) (by simp), get?_putText, if_pos rfl, get?_putText,
    if_neg (by simp)]

theorem get?_store_slot (plan : Plan α) (records : Records) (name : String)
    (h : ∀ entry ∈ plan.slots, entry.1 ≠ name) :
    (plan.store id records).get? (StoreKey.story id (.slot name)).text =
      records.get? (StoreKey.story id (.slot name)).text :=
  plan.get?_store_of_ne records (by simp) (by simp) (by simp) (by simpa using h)

theorem get?_store_last (plan : Plan α) (records : Records) {front : List (String × SaveSlot)}
    {name : String} {position : SaveSlot} (h : plan.slots = front ++ [(name, position)]) :
    (plan.store id records).get? (StoreKey.story id (.slot name)).text =
      some position.toJson.text := by
  rw [store, h, List.foldl_append, List.foldl_cons, List.foldl_nil, get?_saved_slot, if_pos rfl]

theorem listed_store (plan : Plan α) {records : Records} (h : Listed records id) :
    Listed (plan.store id records) id := by
  have hfold (slots : List (String × SaveSlot)) (records : Records) (hrecords : Listed records id) :
      Listed (slots.foldl (fun records entry => saved id entry.1 entry.2 records) records) id := by
    induction slots generalizing records with
    | nil => exact hrecords
    | cons entry rest ih =>
      obtain ⟨names, hnames⟩ := hrecords
      exact ih _ ⟨_, namesAt_saved hnames entry.1 entry.2⟩
  apply hfold
  obtain ⟨names, hnames⟩ := h
  refine ⟨names, hnames.congr ?_⟩
  rw [get?_putText, if_neg (by simp), get?_putText, if_neg (by simp)]

/-- Carrying out a plan keeps a kept store kept. -/
theorem kept_store {plan : Plan α} (hplan : plan.Timely) {records : Records} (h : Kept records) :
    Kept (plan.store id records) := by
  have hput : Kept ({ plan with slots := [] : Plan α }.store id records) := by
    have hget (key : StoreKey) (hgraph : .story id .graph ≠ key)
        (hdefinitions : .story id .definitions ≠ key) :
        ({ plan with slots := [] : Plan α }.store id records).get? key.text =
          records.get? key.text := by
      change (putText _ _ (putText _ _ records)).get? key.text = _
      rw [get?_putText, if_neg hgraph, get?_putText, if_neg hdefinitions]
    refine ⟨?_, ?_, ?_, ?_, ?_⟩
    · obtain ⟨ids, hids⟩ := h.catalog
      exact ⟨ids, hids.congr (hget _ (by simp) (by simp))⟩
    · intro other
      obtain ⟨names, hnames⟩ := h.slotList other
      exact ⟨names, hnames.congr (hget _ (by simp) (by simp))⟩
    · intro other text htext
      by_cases hid : id = other
      · subst hid
        rw [get?_store_definitions] at htext
        cases hplanned : plan.definitions with
        | none =>
          rw [hplanned, Option.map_none, Option.none_or] at htext
          exact h.definitions id text htext
        | some definitions =>
          rw [hplanned, Option.map_some, Option.some_or] at htext
          exact ⟨definitions, (Option.some.inj htext).symm⟩
      · rw [hget _ (by simp) (by simpa using hid)] at htext
        exact h.definitions other text htext
    · intro other text htext
      by_cases hid : id = other
      · subst hid
        rw [get?_store_graph] at htext
        cases hplanned : plan.graph with
        | none =>
          rw [hplanned, Option.map_none, Option.none_or] at htext
          exact h.graph id text htext
        | some graph =>
          rw [hplanned, Option.map_some, Option.some_or] at htext
          exact ⟨graph, (Option.some.inj htext).symm⟩
      · rw [hget _ (by simpa using hid) (by simp)] at htext
        exact h.graph other text htext
    · intro other name text htext
      rw [hget _ (by simp) (by simp)] at htext
      exact h.slot other name text htext
  have hfold (slots : List (String × SaveSlot)) (hslots : ∀ entry ∈ slots, entry.2.Timely)
      (records : Records) (hrecords : Kept records) :
      Kept (slots.foldl (fun records entry => saved id entry.1 entry.2 records) records) := by
    induction slots generalizing records with
    | nil => exact hrecords
    | cons entry rest ih =>
      rw [List.forall_mem_cons] at hslots
      exact ih hslots.2 _ (kept_saved hrecords id entry.1 hslots.1)
  rw [store_eq_foldl]
  exact hfold plan.slots hplan _ hput

/-- Carrying out a plan does not notice a lock. -/
theorem erase_store (plan : Plan α) (id other : Identifier) (records : Records) :
    (plan.store id records).erase (StoreKey.lock other).text =
      plan.store id (records.erase (StoreKey.lock other).text) := by
  have hfold (slots : List (String × SaveSlot)) (records : Records) :
      (slots.foldl (fun records entry => saved id entry.1 entry.2 records) records).erase
        (StoreKey.lock other).text =
      slots.foldl (fun records entry => saved id entry.1 entry.2 records)
        (records.erase (StoreKey.lock other).text) := by
    induction slots generalizing records with
    | nil => rfl
    | cons entry rest ih => rw [List.foldl_cons, ih, erase_saved, List.foldl_cons]
  rw [store, store, hfold, erase_putText (by simp), erase_putText (by simp)]

end Plan

/-! ## Saving -/

theorem Repository.run_saveSlot {records : Records} {id : Identifier} (hlisted : Listed records id)
    (name : String) (position : SaveSlot) :
    (saveSlot id.spelling name position).run records =
      (.ok (), saved id name position records) := by
  obtain ⟨names, h⟩ := hlisted
  have hget : (records.insert (StoreKey.story id (.slot name)).text position.toJson.text).get?
      (StoreKey.story id .slotList).text = records.get? (StoreKey.story id .slotList).text := by
    rw [get?_insert_text, if_neg (by simp)]
  have hlist : (listSlots id.spelling).run
      (records.insert (StoreKey.story id (.slot name)).text position.toJson.text) =
      (.ok (Stored.labels records (.story id .slotList)),
        records.insert (StoreKey.story id (.slot name)).text position.toJson.text) := by
    have hloaded := run_loadNames (h.congr hget)
    rw [(h.congr hget).labels, ← h.labels] at hloaded
    exact hloaded
  have hput (value : String) (records : Records) :
      (Script.put (slotListKey id.spelling) value).run records =
        ((), records.insert (StoreKey.story id .slotList).text value) := rfl
  rw [saveSlot, Attempt.run_bind, Attempt.run_lift, Repository.run_put]
  change (listSlots id.spelling >>= _ : Attempt Unit).run
    (records.insert (StoreKey.story id (.slot name)).text position.toJson.text) = _
  rw [Attempt.run_bind, hlist]
  unfold saved
  by_cases hlisted : Label.text name ∈ Stored.labels records (.story id .slotList)
  · simp [hlisted, putText]
  · simp only [if_neg hlisted]
    rw [Attempt.run_lift, hput]
    rfl

/-- Saving the position of a session stores it under the name of the slot. -/
theorem Session.run_save {records : Records} {id : Identifier} (h : Listed records id)
    {session : Session} (hstory : session.story = id.spelling) {now : Instant} {time : ℤ}
    (hnow : now.millis = .ok time) (name : String) :
    (session.save now name).run records =
      (.ok (session.player.position time),
        saved id name (session.player.position time) records) := by
  rw [save, hnow, hstory, Attempt.run_bind, Attempt.run_ofExcept]
  simp only
  rw [Attempt.run_bind, Repository.run_saveSlot h]
  rfl

end Narrative
