import Narrative.Proofs.Service.Installed
import Narrative.Proofs.Service.Graphs
import Narrative.Proofs.Session.Bundles

/-!
# Moving stories

Every story can be exported, and every export can be imported, into the same story or another one.
That story then is a copy which has not been played: it has the same graph and the same definitions,
and exporting it gives the same bundle again, apart from the date.
-/

namespace Narrative

variable {records : Records} {id : Identifier} {now : Instant} {time : ℤ}

namespace Session

/-- The session has the same graph and the same definitions as another one. -/
structure Copies (copy source : Session) : Prop where
  graph : copy.graph = source.graph
  definitions : copy.store.definitions = source.store.definitions

/-- Nothing has been played: the reader is at the start, and every variable has its initial
value. -/
structure Unplayed (session : Session) : Prop where
  nodeId : session.place.nodeId = session.graph.startPosition
  history : session.place.history = []
  store : session.store = .ofDefinitions session.store.definitions

variable {session : Session}

theorem Copies.exported {copy source : Session} (h : copy.Copies source) (date : String) :
    copy.exported date = source.exported date := by
  rw [Session.exported, h.graph, h.definitions]
  rfl

theorem unplayed_fresh (story : String) (definitions : Definitions) (graph : Graph) :
    (fresh story definitions graph).Unplayed := ⟨rfl, rfl, rfl⟩

/-! ## Imports -/

section Imports

variable {graph : Graph} {definitions : Definitions}

/-- The session right after an import; playback keeps the graph that it had. -/
def received (session : Session) (graph : Graph) (definitions : Definitions) : Session :=
  { session.installed ⟨definitions, true⟩ with graph, ownGraph := some session.playedGraph }

theorem reload_received (session : Session) (graph : Graph) (definitions : Definitions) :
    (session.received graph definitions).reload = fresh session.story definitions graph := rfl

/-- An import that brings definitions stores them and the graph. -/
theorem run_importStory (hstory : session.story = id.spelling) {data : Json}
    (h : imported data = some (⟨graph, none⟩, some ⟨definitions, none⟩)) (records : Records) :
    (session.importStory data).run records =
      (.ok (true, session.received graph definitions),
        ({ definitions := some definitions, graph := some graph
           outcome := .ok () } : Plan Unit).store id records) := by
  obtain ⟨story, _, _, _, _⟩ := session
  change story = id.spelling at hstory
  subst hstory
  rw [importStory, h]
  rfl

theorem importPlan_of_imported (session : Session) (time : ℤ) (refusal : Failure)
    {document : Json.Fields}
    (h : imported (.obj document) = some (⟨graph, none⟩, some ⟨definitions, none⟩)) :
    session.importPlan time refusal document = {
      definitions := some definitions
      graph := some graph
      slots := [(Repository.autosaveSlot,
        (fresh session.story definitions graph).player.position time)]
      outcome := .ok graph.toJson } := by
  rw [importPlan, h]
  rfl

end Imports

end Session

/-- The reply to an export. -/
def exportReply (bundle : ExportBundle) (time : ℤ) : Reply where
  body := .document bundle.toJson
  disposition := some ("attachment; filename=\"story_" ++ toString time ++ ".json\"")

theorem Query.run_bundle (h : Kept records) (hlisted : Stored.Registered records id) {date : String}
    (hdate : now.text = .ok date) (htime : now.millis = .ok time) :
    (bundle.perform now id.spelling).run records =
      (.ok (exportReply ((Stored.session records id).exported date) time), records) := by
  rw [run_perform h hlisted]
  simp only [answer, Session.bundle_eq_exported hdate, htime]
  rfl

/-! ## Moving a story -/

/-- An import that brings definitions leaves a story nothing of which has been played. -/
theorem Command.run_importStory (h : Reachable records) (hlisted : Stored.Registered records id)
    (hnow : now.millis = .ok time) (assets : Option Assets) {document : Json.Fields}
    {graph : Graph} {definitions : Definitions} (hgraph : graph.kept = graph)
    (hfinite : definitions.Finite)
    (himported : Session.imported (.obj document) =
      some (⟨graph, none⟩, some ⟨definitions, none⟩)) :
    ∃ after, ((importStory document).perform assets now id.spelling).run records =
        (.ok (.document graph.toJson), after) ∧
      Reachable after ∧ Stored.Registered after id ∧
      Stored.session after id = Session.fresh id.spelling definitions graph := by
  have hplan := (Stored.session records id).importPlan_of_imported time .notStory himported
  have hafter := h.command hlisted hnow assets (importStory document)
  have hrun := (importStory document).run_perform h.kept (h.not_held id) hlisted hnow assets
  rw [plan, hplan, Stored.story_session] at hafter hrun
  refine ⟨_, hrun, hafter, (Plan.registered_store ..).2 hlisted, ?_⟩
  rw [Plan.store_map]
  refine Stored.session_eq_of_saved (Stored.sound_fresh _ hfinite graph) rfl
    (shortTime_of_millis hnow) ?_ ?_ (Plan.get?_store_last _ records (List.nil_append _).symm)
  · rw [Stored.definitions_store]
    exact Definitions.kept_of_finite hfinite
  · rw [Stored.graph_store]
    exact hgraph

/-- A bundle of a session makes a story a copy of it, by an import in any session of the story and
by a request. -/
structure Session.MovesTo (source : Session) (id : Identifier) (records : Records)
    (bundle : ExportBundle) : Prop where
  /-- The import goes through, playback starts over once it is reloaded, and the story opens as a
  copy. -/
  session : ∀ target : Session, target.story = id.spelling → ∃ copy after reopened,
    (target.importStory bundle.toJson).run records = (.ok (true, copy), after) ∧
    copy.Copies source ∧ copy.reload.Copies source ∧ copy.reload.Unplayed ∧
    (openStory id.spelling true).run after = (.ok reopened, after) ∧ reopened.Copies source
  /-- The request is met, the story opens as a copy that has not been played, and it is exported as
  the source was. -/
  request : ∀ assets (now : Instant), now.Readable → ∃ copy after,
    ((Command.importStory bundle.toFields).perform assets now id.spelling).run records =
      (.ok (.document source.graph.toJson), after) ∧
    (openStory id.spelling true).run after = (.ok copy, after) ∧
    copy.Copies source ∧ copy.Unplayed ∧
    ∀ (later : Instant) date time, later.text = .ok date → later.millis = .ok time →
      (Query.bundle.perform later id.spelling).run after =
        (.ok (exportReply { bundle with exportDate := date } time), after)

theorem Session.movesTo {source : Session} (h : Reachable records)
    (hlisted : Stored.Registered records id) (hgraph : source.graph.kept = source.graph)
    (hrooted : source.graph.Rooted) (hfinite : source.store.definitions.Finite) (date : String) :
    source.MovesTo id records (source.exported date) where
  session := by
    intro target htarget
    have himported := imported_exported hgraph hrooted hfinite date
    have hplan : ({ definitions := some source.store.definitions, graph := some source.graph
                    outcome := .ok () } : Plan Unit).Timely :=
      fun _ hentry => absurd hentry List.not_mem_nil
    have hkept : Kept (Plan.store _ id records) := Plan.kept_store hplan h.kept
    refine ⟨_, _, _, run_importStory htarget himported records, ⟨rfl, rfl⟩, ?_, ?_,
      openStory_of_registered hkept ((Plan.registered_store ..).2 hlisted), ?_, ?_⟩
    · rw [reload_received]
      exact ⟨rfl, rfl⟩
    · rw [reload_received]
      exact unplayed_fresh ..
    · rw [Stored.graph_session, Stored.graph_store]
      exact hgraph
    · rw [Stored.definitions_session, Stored.definitions_store]
      exact Definitions.kept_of_finite hfinite
  request := by
    intro assets now hnow
    obtain ⟨time, htime⟩ := hnow
    obtain ⟨after, hrun, hreach, hstays, hcopy⟩ := Command.run_importStory h hlisted htime assets
      hgraph hfinite (imported_exported hgraph hrooted hfinite date)
    have hcopies : (Stored.session after id).Copies source := by
      rw [hcopy]
      exact ⟨rfl, rfl⟩
    refine ⟨_, after, hrun, openStory_of_registered hreach.kept hstays, hcopies, ?_, ?_⟩
    · rw [hcopy]
      exact unplayed_fresh ..
    · intro later date time hdate htime
      rw [Query.run_bundle hreach.kept hstays hdate htime, hcopies.exported]
      rfl

/-- What is exported of a story is always imported into any story, which then is a copy of it. -/
theorem import_of_export (h : Reachable records) {a b : Identifier}
    (ha : Stored.Registered records a) (hb : Stored.Registered records b) {date : String}
    (hdate : now.text = .ok date) (htime : now.millis = .ok time) :
    ∃ source, (Session.openStory a.spelling true).run records = (.ok source, records) ∧
      (Query.bundle.perform now a.spelling).run records =
        (.ok (exportReply (source.exported date) time), records) ∧
      Json.read .exchanged (source.exported date).toJson.text =
        .ok (source.exported date).toJson ∧
      source.MovesTo b records (source.exported date) := by
  have hgraph : (Stored.session records a).graph.kept = (Stored.session records a).graph := by
    rw [Stored.graph_session]
    exact Stored.kept_graph h.kept a
  have hrooted : (Stored.session records a).graph.Rooted := by
    rw [Stored.graph_session]
    exact h.rooted a
  have hfinite := (Stored.sound_session h.kept a).store.definitions
  exact ⟨Stored.session records a, Session.openStory_of_registered h.kept ha,
    Query.run_bundle h.kept ha hdate htime, Session.read_exported hgraph hfinite date,
    Session.movesTo h hb hgraph hrooted hfinite date⟩

/-- The start of the epoch can be told. -/
theorem Instant.text_zero : (Instant.mk 0.0).text = .ok (String.ofList (dateText 0)) := by
  have hmicros : (Instant.mk 0.0).micros = 0 := by decide +kernel
  have hyear : year 0 = 1970 := by decide +kernel
  rw [text, hmicros, hyear]
  simp only
  rw [if_neg (by decide), if_neg (by decide), if_neg (by decide), if_pos (by decide)]

/-- The store of a service that has created two stories. -/
def twoStories : Records := created ⟨2⟩ newStory

/-- The demo story has been loaded into the first of them. -/
theorem exists_demo_loaded : ∃ records, Reachable records ∧ Stored.Registered records ⟨1⟩ ∧
    Stored.Registered records ⟨2⟩ ∧ (Stored.graph records ⟨1⟩).hasNode "find_water" := by
  have hregistered (id : Identifier) := registered_created reachable_newStory.kept ⟨2⟩ id
  have hfirst : Stored.Registered twoStories ⟨1⟩ := (hregistered _).2 (Or.inl registered_newStory)
  have hsecond : Stored.Registered twoStories ⟨2⟩ := (hregistered _).2 (Or.inr rfl)
  have hreach : Reachable twoStories := reachable_newStory.create ⟨2⟩
  obtain ⟨graph, hgraph, -, -, hnode⟩ := exists_demo
  refine ⟨_, hreach.command hfirst Instant.millis_zero (some ⟨Demo.story⟩) .loadDemo,
    (Plan.registered_store ..).2 hfirst, (Plan.registered_store ..).2 hsecond, ?_⟩
  have hdocument : Command.loadDemo.document? (some ⟨Demo.story⟩) = some Demo.story := rfl
  rw [Stored.graph_store, Command.graph_of_document hdocument, hgraph]
  exact hnode

/-- The demo story is moved to the second one. -/
theorem import_of_export_demo :
    ∃ records source, (Session.openStory (Identifier.mk 1).spelling true).run records =
        (.ok source, records) ∧
      source.graph.hasNode "find_water" ∧
      (Query.bundle.perform ⟨0.0⟩ (Identifier.mk 1).spelling).run records =
        (.ok (exportReply (source.exported (String.ofList (Instant.dateText 0))) 0), records) ∧
      Json.read .exchanged (source.exported (String.ofList (Instant.dateText 0))).toJson.text =
        .ok (source.exported (String.ofList (Instant.dateText 0))).toJson ∧
      source.MovesTo ⟨2⟩ records (source.exported (String.ofList (Instant.dateText 0))) := by
  obtain ⟨records, hreach, hfirst, hsecond, hnode⟩ := exists_demo_loaded
  obtain ⟨source, hopen, hmoves⟩ :=
    import_of_export hreach hfirst hsecond Instant.text_zero Instant.millis_zero
  refine ⟨records, source, hopen, ?_, hmoves⟩
  rwa [Stored.graph_of_openStory hreach.kept hfirst hopen]

end Narrative
