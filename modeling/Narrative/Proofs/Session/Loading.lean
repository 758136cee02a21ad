import Narrative.Proofs.Service.Forgetting
import Narrative.Proofs.Wire.Said

/-!
# Loading a saved position

Whatever text is stored in a slot, loading the slot does not fail.  Either the text says a position,
and then the session goes there and takes everything from it; or it says none, because there is no
text, or it is no document, or some part of the document is not what its place asks for, and then
nothing of the session changes.  So a story whose other parts can be loaded can be opened, whatever
its current position has become.  A position that can be loaded is not checked against the graph: it
may lead to a node that does not exist.
-/

namespace Narrative

variable {records : Records} {story slot : String} {position : SaveSlot}

namespace Repository

/-- There is a text in the slot, and it says the position. -/
def SlotSays (records : Records) (story slot : String) (position : SaveSlot) : Prop :=
  ∃ text document, records.get? (slotKey story slot) = some text ∧
    Json.read .stored text = .ok document ∧ position.SaidBy document

theorem parsedSlot_eq_some {text : String} :
    parsedSlot text = some position ↔
      ∃ document, Json.read .stored text = .ok document ∧ position.SaidBy document := by
  unfold parsedSlot Schema.ofText
  cases hread : Json.read .stored text with
  | error flaw => simp [Schema.Checked.fail, Schema.Checked.toOption]
  | ok document =>
    calc
      (SaveSlot.reader .text document).toOption = some position ↔
          SaveSlot.reader .text document = .valid position := Schema.Checked.toOption_eq_some
      _ ↔ position.SaidBy document := SaveSlot.reads document position
      _ ↔ _ := by simp

theorem slotSays_iff :
    SlotSays records story slot position ↔
      (records.get? (slotKey story slot)).bind parsedSlot = some position := by
  simp only [SlotSays, Option.bind_eq_some_iff, parsedSlot_eq_some, exists_and_left]

theorem not_slotSays_iff :
    (¬∃ position, SlotSays records story slot position) ↔
      (records.get? (slotKey story slot)).bind parsedSlot = none := by
  simp only [slotSays_iff, Option.eq_none_iff_forall_ne_some, not_exists, ne_eq]

end Repository

namespace Session

/-! ## Positions -/

/-- Load a slot, and tell whether that went through. -/
def load (session : Session) (slot : String) : Script (Bool × Session) := do
  match ← session.loadSave slot with
  | some loaded => return (true, loaded)
  | none => return (false, session)

/-- The session has gone to a position: the place and the values are those of the position, and
everything that is not saved with a position has stayed. -/
structure GoneTo (session : Session) (position : SaveSlot) (result : Session) : Prop where
  nodeId : result.place.nodeId = position.currentNodeId
  history : result.place.history = position.history
  /-- A category that the position does not name has no values. -/
  values : ∀ category,
    result.store.values.get category = (position.values.get? category).getD .empty
  status : result.place.status =
    Status.at? (session.playedGraph.node? position.currentNodeId)
  definitions : result.store.definitions = session.store.definitions
  graph : result.graph = session.graph
  ownGraph : result.ownGraph = session.ownGraph
  story : result.story = session.story

theorem goneTo_resume (session : Session) (position : SaveSlot) :
    session.GoneTo position (session.withPlayer (session.player.resume position)) where
  nodeId := rfl
  history := rfl
  values := session.store.values_restore position.values
  status := rfl
  definitions := rfl
  graph := rfl
  ownGraph := rfl
  story := rfl

theorem run_load (session : Session) (slot : String) (records : Records) :
    (session.load slot).run records =
      (match (records.get? (Repository.slotKey session.story slot)).bind Repository.parsedSlot with
        | some position => (true, session.withPlayer (session.player.resume position))
        | none => (false, session), records) := by
  have hfound : (session.loadSave slot).run records =
      (((records.get? (Repository.slotKey session.story slot)).bind Repository.parsedSlot).map
        fun position => session.withPlayer (session.player.resume position), records) := rfl
  rw [load, Script.run_bind, hfound]
  cases (records.get? (Repository.slotKey session.story slot)).bind Repository.parsedSlot <;> rfl

/-! ## Opening -/

theorem resumed_of_slotSays {session : Session}
    (h : Repository.SlotSays records session.story Repository.autosaveSlot position) :
    session.resumed records = session.withPlayer (session.player.resume position) := by
  rw [resumed, Repository.slotSays_iff.1 h]
  rfl

theorem resumed_of_not_slotSays {session : Session}
    (h : ¬∃ position, Repository.SlotSays records session.story Repository.autosaveSlot position) :
    session.resumed records = session := by
  rw [resumed, Repository.not_slotSays_iff.1 h]
  rfl

theorem run_openStory_of_loads {definitions : Option Definitions} {graph : Option Graph}
    (hlisted : (Catalog.contains story).run records = (.ok true, records))
    (hdefinitions : (Repository.loadDefinitions story).run records = (.ok definitions, records))
    (hgraph : (Repository.loadGraph story).run records = (.ok graph, records)) :
    (openStory story false).run records =
      (.ok (fresh story (definitions.getD .default) (graph.getD .default)), records) := by
  have hbuild : (build story false).run records =
      (.ok (fresh story (definitions.getD .default) (graph.getD .default)), records) := by
    rw [build, Attempt.run_bind, hdefinitions]
    simp only
    rw [Attempt.run_bind, hgraph]
    rfl
  have hrequire : (Catalog.require story).run records = (.ok (), records) := by
    rw [Catalog.require, Attempt.run_bind, hlisted]
    rfl
  rw [openStory, Attempt.run_bind, hrequire]
  exact hbuild

end Session

/-- Loading a slot goes to the position that its text says, and changes nothing if it says none.  In
the same way a story of the catalog whose definitions and graph can be loaded is opened where its
current position says, or else where a new reader starts. -/
theorem loading_any_text (records : Records) :
    (∀ (session : Session) (slot : String),
      (∀ position, Repository.SlotSays records session.story slot position →
        ∃ result, (session.load slot).run records = ((true, result), records) ∧
          session.GoneTo position result) ∧
      ((¬∃ position, Repository.SlotSays records session.story slot position) →
        (session.load slot).run records = ((false, session), records))) ∧
    ∀ (story : String) (definitions : Option Definitions) (graph : Option Graph),
      (Catalog.contains story).run records = (.ok true, records) →
      (Repository.loadDefinitions story).run records = (.ok definitions, records) →
      (Repository.loadGraph story).run records = (.ok graph, records) →
      let fresh := Session.fresh story (definitions.getD .default) (graph.getD .default)
      (∀ position, Repository.SlotSays records story Repository.autosaveSlot position →
        ∃ result, (Session.openStory story true).run records = (.ok result, records) ∧
          fresh.GoneTo position result) ∧
      ((¬∃ position, Repository.SlotSays records story Repository.autosaveSlot position) →
        (Session.openStory story true).run records = (.ok fresh, records)) := by
  constructor
  · intro session slot
    rw [session.run_load, Repository.not_slotSays_iff]
    constructor
    · intro position hsaid
      rw [Repository.slotSays_iff.1 hsaid]
      exact ⟨_, rfl, session.goneTo_resume position⟩
    · intro hnone
      rw [hnone]
  · intro story definitions graph hlisted hdefinitions hgraph fresh
    have hopen : (Session.openStory story true).run records =
        (.ok (fresh.resumed records), records) := by
      rw [Session.run_openStory_restoring,
        Session.run_openStory_of_loads hlisted hdefinitions hgraph]
      rfl
    rw [hopen]
    constructor
    · intro position hsaid
      have hresumed : fresh.resumed records = _ := Session.resumed_of_slotSays hsaid
      rw [hresumed]
      exact ⟨_, rfl, fresh.goneTo_resume position⟩
    · intro hnone
      have hresumed : fresh.resumed records = fresh := Session.resumed_of_not_slotSays hnone
      rw [hresumed]

/-- A story of the catalog whose current position nobody can read, and in which another one is
saved. -/
def garbledTale : Records :=
  .ofList [(Repository.catalogKey, Json.listText [.text "tale"]),
    (Repository.definitionsKey "tale", Definitions.default.toJson.text),
    (Repository.graphKey "tale", Graph.default.toJson.text),
    (Repository.slotKey "tale" Repository.autosaveSlot, "elsewhere"),
    (Repository.slotKey "tale" "bookmark", { currentNodeId := "elsewhere" : SaveSlot }.toJson.text)]

/-- The story is opened at its start, and the position that can be read is gone to. -/
theorem loading_any_text_garbledTale :
    let fresh := Session.fresh "tale" .default .default
    (∃ result, (fresh.load "bookmark").run garbledTale = ((true, result), garbledTale) ∧
      fresh.GoneTo { currentNodeId := "elsewhere" } result) ∧
    (Session.openStory "tale" true).run garbledTale = (.ok fresh, garbledTale) := by
  intro fresh
  obtain ⟨hload, hopen⟩ := loading_any_text garbledTale
  have hbookmark : Repository.SlotSays garbledTale "tale" "bookmark"
      { currentNodeId := "elsewhere" } := by
    have htext : garbledTale.get? (Repository.slotKey "tale" "bookmark") =
        some { currentNodeId := "elsewhere" : SaveSlot }.toJson.text := rfl
    rw [Repository.slotSays_iff, htext, Option.bind_some]
    apply Repository.parsedSlot_text
    exact ⟨⟨fun _ h => absurd h List.not_mem_nil, Nat.pow_pos (by decide)⟩,
      fun _ h => absurd h List.not_mem_nil⟩
  have hcurrent : ¬∃ position, Repository.SlotSays garbledTale "tale" Repository.autosaveSlot
      position := by
    rw [Repository.not_slotSays_iff]
    rfl
  have hlisted : (Catalog.contains "tale").run garbledTale = (.ok true, garbledTale) := by
    rfl
  have hdefinitions : (Repository.loadDefinitions "tale").run garbledTale =
      (.ok (some .default), garbledTale) := by
    have htext : garbledTale.get? (Repository.definitionsKey "tale") =
        some Definitions.default.toJson.text := rfl
    rw [Repository.loadDefinitions, Repository.run_load_some htext Json.text_isEmpty,
      Repository.parsed_definitions, Definitions.kept_of_finite Definitions.finite_default]
    rfl
  have hgraph : (Repository.loadGraph "tale").run garbledTale =
      (.ok (some .default), garbledTale) := by
    have htext : garbledTale.get? (Repository.graphKey "tale") =
        some Graph.default.toJson.text := rfl
    rw [Repository.loadGraph, Repository.run_load_some htext Json.text_isEmpty,
      Repository.parsed_graph, Graph.kept_default]
    rfl
  exact ⟨(hload fresh "bookmark").1 _ hbookmark,
    (hopen "tale" _ _ hlisted hdefinitions hgraph).2 hcurrent⟩

end Narrative
