import Narrative.Proofs.Storage.Keys
import Narrative.Proofs.Wire.Positions
import Narrative.Session.Basic

/-!
# Kept stores

A store is kept if every text in it was written by the repository: definitions, graphs and positions
from documents, lists of names from texts.  In a kept store everything that is there can be read, so
loading never fails, and opening a story fails only if the catalog does not list it.
-/

namespace Narrative

open Repository (parsed parsedNames parsedSlot)

namespace Stored

/-- The names in a list. -/
def labels (records : Records) (key : StoreKey) : List Label :=
  match records.get? key.text with
  | some text => (parsedNames text).toOption.getD []
  | none => []

/-- The definitions of a story. -/
def definitions (records : Records) (id : Identifier) : Definitions :=
  ((records.get? (StoreKey.story id .definitions).text).bind fun text =>
    (parsed "VariableDefinitionSet" Definitions.reader text).toOption).getD .default

/-- The graph of a story. -/
def graph (records : Records) (id : Identifier) : Graph :=
  ((records.get? (StoreKey.story id .graph).text).bind fun text =>
    (parsed "StoryGraph" Graph.reader text).toOption).getD .default

/-- The position in a save slot of a story. -/
def slot (records : Records) (id : Identifier) (name : String) : Option SaveSlot :=
  (records.get? (StoreKey.story id (.slot name)).text).bind parsedSlot

/-- The catalog lists the story. -/
def Registered (records : Records) (id : Identifier) : Prop :=
  Label.text id.spelling ∈ labels records .catalog

instance (records : Records) (id : Identifier) : Decidable (Registered records id) :=
  inferInstanceAs (Decidable (_ ∈ _))

/-- The session that a story opens with. -/
def session (records : Records) (id : Identifier) : Session :=
  let session := Session.fresh id.spelling (definitions records id) (graph records id)
  ((slot records id Repository.autosaveSlot).map fun position =>
    session.withPlayer (session.player.resume position)).getD session

/-- What a story opens with depends on the texts of the story only. -/
theorem session_congr {records other : Records} {id : Identifier}
    (h : ∀ part, other.get? (StoreKey.story id part).text =
      records.get? (StoreKey.story id part).text) :
    session other id = session records id := by
  have hdefinitions : definitions other id = definitions records id := by
    rw [definitions, definitions, h]
  have hgraph : graph other id = graph records id := by
    rw [graph, graph, h]
  have hslot : slot other id Repository.autosaveSlot = slot records id Repository.autosaveSlot := by
    rw [slot, slot, h]
  rw [session, session, hdefinitions, hgraph, hslot]

end Stored

/-! ## Kept stores -/

/-- A list of names is stored under a key, or nothing at all where there are no names. -/
def NamesAt (records : Records) (key : StoreKey) (names : List String) : Prop :=
  records.get? key.text = none ∧ names = [] ∨
    records.get? key.text = some (Json.listText (names.map .text))

/-- The list of the save slots of a story can be read. -/
def Listed (records : Records) (id : Identifier) : Prop :=
  ∃ names, NamesAt records (.story id .slotList) names

/-- Every text was written by the repository. -/
structure Kept (records : Records) : Prop where
  catalog : ∃ ids : List Identifier, NamesAt records .catalog (ids.map Identifier.spelling)
  slotList : ∀ id, Listed records id
  definitions : ∀ id text, records.get? (StoreKey.story id .definitions).text = some text →
    ∃ definitions : Definitions, text = definitions.toJson.text
  graph : ∀ id text, records.get? (StoreKey.story id .graph).text = some text →
    ∃ graph : Graph, text = graph.toJson.text
  slot : ∀ id name text, records.get? (StoreKey.story id (.slot name)).text = some text →
    ∃ position : SaveSlot, position.Timely ∧ text = position.toJson.text

theorem NamesAt.labels {records : Records} {key : StoreKey} {names : List String}
    (h : NamesAt records key names) : Stored.labels records key = names.map .text := by
  unfold Stored.labels
  rcases h with ⟨hnone, rfl⟩ | hsome
  · rw [hnone]
    rfl
  · rw [hsome]
    simp [Repository.parsedNames_listText, Except.toOption]

theorem NamesAt.congr {records other : Records} {key : StoreKey} {names : List String}
    (h : NamesAt records key names) (heq : other.get? key.text = records.get? key.text) :
    NamesAt other key names := by
  rwa [NamesAt, heq]

theorem kept_empty : Kept .empty where
  catalog := ⟨[], Or.inl ⟨rfl, rfl⟩⟩
  slotList _ := ⟨[], Or.inl ⟨rfl, rfl⟩⟩
  definitions _ _ h := by simp [Table.get?_empty] at h
  graph _ _ h := by simp [Table.get?_empty] at h
  slot _ _ _ h := by simp [Table.get?_empty] at h

/-- A lock is nobody's document. -/
theorem Kept.insert_lock {records : Records} (h : Kept records) (id : Identifier)
    (value : String) : Kept (records.insert (StoreKey.lock id).text value) := by
  have hget (key : StoreKey) (hkey : StoreKey.lock id ≠ key) :
      (records.insert (StoreKey.lock id).text value).get? key.text = records.get? key.text := by
    rw [get?_insert_text, if_neg hkey]
  refine ⟨?_, ?_, ?_, ?_, ?_⟩
  · obtain ⟨ids, hids⟩ := h.catalog
    exact ⟨ids, hids.congr (hget _ (by simp))⟩
  · intro other
    obtain ⟨names, hnames⟩ := h.slotList other
    exact ⟨names, hnames.congr (hget _ (by simp))⟩
  · intro other text htext
    rw [hget _ (by simp)] at htext
    exact h.definitions other text htext
  · intro other text htext
    rw [hget _ (by simp)] at htext
    exact h.graph other text htext
  · intro other name text htext
    rw [hget _ (by simp)] at htext
    exact h.slot other name text htext

/-- A store is kept with any catalog. -/
theorem Kept.insert_catalog {records : Records} (h : Kept records) (ids : List Identifier) :
    Kept (records.insert StoreKey.catalog.text
      (Json.listText ((ids.map Identifier.spelling).map .text))) := by
  have hget (key : StoreKey) (hkey : StoreKey.catalog ≠ key) (text : String) :
      (records.insert StoreKey.catalog.text text).get? key.text = records.get? key.text := by
    rw [get?_insert_text, if_neg hkey]
  refine ⟨⟨ids, Or.inr ?_⟩, ?_, ?_, ?_, ?_⟩
  · rw [get?_insert_text, if_pos rfl]
  · intro other
    obtain ⟨names, hnames⟩ := h.slotList other
    exact ⟨names, hnames.congr (hget _ (by simp) _)⟩
  · intro other text htext
    rw [hget _ (by simp)] at htext
    exact h.definitions other text htext
  · intro other text htext
    rw [hget _ (by simp)] at htext
    exact h.graph other text htext
  · intro other name text htext
    rw [hget _ (by simp)] at htext
    exact h.slot other name text htext

/-! ## Loading -/

namespace Attempt

variable {α β : Type}

@[simp]
theorem run_ofExcept (outcome : Except Failure α) (records : Records) :
    run (ofExcept outcome) records = (outcome, records) := by
  cases outcome <;> rfl

@[simp]
theorem run_lift (script : Script α) (records : Records) :
    run (liftM script : Attempt α) records =
      (.ok (script.run records).1, (script.run records).2) := by
  change Script.run (script >>= fun value =>
    (pure (Except.ok value) : Script (Except Failure α))) records = _
  rw [Script.run_bind, Script.run_pure]

theorem run_map (f : α → β) (attempt : Attempt α) (records : Records) :
    run (f <$> attempt) records =
      ((run attempt records).1.map f, (run attempt records).2) := by
  change run (attempt >>= pure ∘ f) records = _
  rw [run_bind]
  rcases run attempt records with ⟨outcome | outcome, records⟩ <;> rfl

theorem run_unexplained (attempt : Attempt α) (records : Records) :
    attempt.unexplained.run records =
      ((attempt.run records).1.mapError fun _ => .unexplained, (attempt.run records).2) := by
  change Script.run (ExceptT.run attempt >>= _) records =
    ((Script.run (ExceptT.run attempt) records).1.mapError _,
      (Script.run (ExceptT.run attempt) records).2)
  rw [Script.run_bind]
  cases (Script.run (ExceptT.run attempt) records).1 <;> rfl

/-- A sequence of two attempts succeeds only if both do. -/
theorem ok_of_bind {attempt : Attempt α} {f : α → Attempt β} {records : Records} {value : β}
    (h : ((attempt >>= f).run records).1 = .ok value) :
    ∃ found between, attempt.run records = (.ok found, between) ∧
      ((f found).run between).1 = .ok value := by
  rw [run_bind] at h
  cases hrun : attempt.run records with
  | mk result between =>
    rw [hrun] at h
    cases result with
    | error failure => exact absurd h (by simp)
    | ok found => exact ⟨found, between, rfl, h⟩

end Attempt

namespace Repository

theorem run_get (key : String) (records : Records) :
    (Script.get key).run records = (records.get? key, records) := rfl

theorem run_put (key value : String) (records : Records) :
    (Script.put key value).run records = ((), records.insert key value) := rfl

theorem run_load_none {α : Type} {key title : String} {reader : Schema.Origin → Schema.Reader α}
    {records : Records} (h : records.get? key = none) :
    (load key title reader).run records = (.ok none, records) := by
  rw [load, Attempt.run_bind, Attempt.run_lift, run_get, h]
  rfl

theorem run_load_some {α : Type} {key title text : String}
    {reader : Schema.Origin → Schema.Reader α} {records : Records}
    (h : records.get? key = some text) (hne : text.isEmpty = false) :
    (load key title reader).run records =
      ((parsed title reader text).map some, records) := by
  rw [load, Attempt.run_bind, Attempt.run_lift, run_get, h]
  simp only [hne, Bool.false_eq_true, if_false]
  rw [Attempt.run_map, Attempt.run_ofExcept]

theorem run_loadNames {records : Records} {key : StoreKey} {names : List String}
    (h : NamesAt records key names) :
    (loadNames key.text).run records = (.ok (Stored.labels records key), records) := by
  rw [h.labels, loadNames, Attempt.run_bind, Attempt.run_lift, run_get]
  rcases h with ⟨hnone, rfl⟩ | hsome
  · rw [hnone]
    rfl
  · rw [hsome]
    simp only [Attempt.run_ofExcept, parsedNames_listText]

theorem run_loadDefinitions {records : Records} (h : Kept records) (id : Identifier) :
    ∃ found, (loadDefinitions id.spelling).run records = (.ok found, records) ∧
      found.getD .default = Stored.definitions records id := by
  have hload : loadDefinitions id.spelling =
    load (StoreKey.story id .definitions).text "VariableDefinitionSet" Definitions.reader := rfl
  rw [hload]
  unfold Stored.definitions
  cases htext : records.get? (StoreKey.story id .definitions).text with
  | none => exact ⟨none, run_load_none htext, rfl⟩
  | some text =>
    obtain ⟨definitions, rfl⟩ := h.definitions id text htext
    refine ⟨some definitions.kept, ?_, ?_⟩
    · rw [run_load_some htext Json.text_isEmpty, parsed_definitions]
      rfl
    · simp [parsed_definitions, Except.toOption]

theorem run_loadGraph {records : Records} (h : Kept records) (id : Identifier) :
    ∃ found, (loadGraph id.spelling).run records = (.ok found, records) ∧
      found.getD .default = Stored.graph records id := by
  have hload : loadGraph id.spelling =
    load (StoreKey.story id .graph).text "StoryGraph" Graph.reader := rfl
  rw [hload]
  unfold Stored.graph
  cases htext : records.get? (StoreKey.story id .graph).text with
  | none => exact ⟨none, run_load_none htext, rfl⟩
  | some text =>
    obtain ⟨graph, rfl⟩ := h.graph id text htext
    refine ⟨some graph.kept, ?_, ?_⟩
    · rw [run_load_some htext Json.text_isEmpty, parsed_graph]
      rfl
    · simp [parsed_graph, Except.toOption]

end Repository

namespace Catalog

variable {records : Records} {entries : List Label}

theorem run_contains (hload : load.run records = (.ok entries, records)) (story : String) :
    (contains story).run records = (.ok (decide (.text story ∈ entries)), records) := by
  rw [contains, Attempt.run_bind, hload]
  rfl

theorem run_require (hload : load.run records = (.ok entries, records)) (story : String) :
    (require story).run records =
      (if .text story ∈ entries then .ok () else .error .storyNotFound, records) := by
  rw [require, Attempt.run_bind, run_contains hload]
  by_cases hlisted : Label.text story ∈ entries <;> simp [hlisted]

end Catalog

namespace Session

theorem run_loadSave (session : Session) {id : Identifier} (hstory : session.story = id.spelling)
    (name : String) (records : Records) :
    (session.loadSave name).run records =
      ((Stored.slot records id name).map fun position =>
        session.withPlayer (session.player.resume position), records) := by
  rw [loadSave, hstory]
  rfl

/-- Opening a story reads what is stored and changes nothing; it fails only if the catalog does
not list the story. -/
theorem run_openStory {records : Records} (h : Kept records) (id : Identifier) :
    (openStory id.spelling true).run records =
      (if Stored.Registered records id then .ok (Stored.session records id)
        else .error .storyNotFound, records) := by
  obtain ⟨ids, hids⟩ := h.catalog
  obtain ⟨definitions, hdefinitions, hgivenDefinitions⟩ := Repository.run_loadDefinitions h id
  obtain ⟨graph, hgraph, hgivenGraph⟩ := Repository.run_loadGraph h id
  have hcatalog : Catalog.load.run records = (.ok (Stored.labels records .catalog), records) :=
    Repository.run_loadNames hids
  have hbuild : (build id.spelling true).run records =
      (.ok (Stored.session records id), records) := by
    rw [build, Attempt.run_bind, hdefinitions]
    simp only [hgivenDefinitions]
    rw [Attempt.run_bind, hgraph]
    simp only [hgivenGraph, if_true]
    have hload := run_loadSave (fresh id.spelling (Stored.definitions records id)
      (Stored.graph records id)) rfl Repository.autosaveSlot records
    rw [Attempt.run_bind, Attempt.run_lift, hload]
    rfl
  rw [openStory, Attempt.run_bind, Catalog.run_require hcatalog]
  by_cases hlisted : Stored.Registered records id
  · have hmem : Label.text id.spelling ∈ Stored.labels records .catalog := hlisted
    simp [hmem, hlisted, hbuild]
  · have hmem : Label.text id.spelling ∉ Stored.labels records .catalog := hlisted
    simp [hmem, hlisted]

theorem openStory_of_registered {records : Records} {id : Identifier} (h : Kept records)
    (hlisted : Stored.Registered records id) :
    (openStory id.spelling true).run records = (.ok (Stored.session records id), records) := by
  rw [run_openStory h, if_pos hlisted]

end Session

end Narrative
