import Narrative.Proofs.Service.Distinct
import Narrative.Proofs.Service.Persisted

/-!
# The graph that is played

A story is played in the graph that is edited, so that every edit is seen at once, until an import
puts another graph in the place of the edited one.  From then on playback keeps the graph that it
had, whatever is edited, imported or started again, until it is reloaded.

An import that breaks off because something in its document cannot be stored is answered with a
failure, but by then the other graph is in place.  So the two graphs can differ although no import
has gone through.
-/

namespace Narrative

/-- An operation on an open session. -/
inductive Act where
  | edit (change : Edit)
  | importStory (data : Json)
  /-- Import the demo story of the assets, if these are loaded. -/
  | loadDemo (assets : Option Assets)
  | take (checks : List ChoiceCheck) (index : ℤ)
  | execute (choice : Choice)
  | jump (index : ℤ)
  | restart
  | save (slot : String)
  | load (slot : String)
  /-- Play the edited graph from the beginning. -/
  | reload

/-- Import a document, and tell whether that went through.  An import that breaks off leaves its
traces in the session. -/
def Session.receive (session : Session) (data : Json) (records : Records) :
    Except Failure Bool × Session × Records :=
  match (session.importStory data).run records with
  | (.ok (done, result), after) => (.ok done, result, after)
  | (.error failure, after) => (.error failure, session.brokenOff data, after)

namespace Act

/-- The document that an operation imports. -/
def document? : Act → Option Json
  | importStory data => some data
  | loadDemo assets => assets.map fun assets => .obj assets.demo
  | _ => none

/-- Carry out an operation, and tell whether it went through. -/
def perform (session : Session) (now : Instant) (records : Records) :
    Act → Except Failure Bool × Session × Records
  | edit change =>
    match (change.perform session now).run records with
    | (.ok (done, result), after) => (.ok done, result, after)
    | (.error failure, after) => (.error failure, session, after)
  | importStory data => session.receive data records
  | loadDemo assets =>
    match Assets.require assets with
    | .ok assets => session.receive (.obj assets.demo) records
    | .error failure => (.error failure, session, records)
  | take checks index =>
    let (outcome, result) := session.take checks now index
    (outcome.map fun _ => true, result, records)
  | execute choice =>
    let (outcome, result) := session.execute now choice
    (outcome.map fun _ => true, result, records)
  | jump index =>
    match session.jump? index with
    | some result => (.ok true, result, records)
    | none => (.ok false, session, records)
  | restart => (.ok true, session.restart, records)
  | save slot =>
    let (outcome, after) := (session.save now slot).run records
    (outcome.map fun _ => true, session, after)
  | load slot =>
    match (session.loadSave slot).run records with
    | (some result, after) => (.ok true, result, after)
    | (none, after) => (.ok false, session, after)
  | reload => (.ok true, session.reload, records)

/-- The operation imports a document that is not refused: the import goes through or breaks off. -/
def Replaces (act : Act) (outcome : Except Failure Bool) : Prop :=
  act.document?.isSome ∧ outcome ≠ .ok false

end Act

/-- A run of operations that are allowed, given how they come out. -/
inductive Acts (allowed : Act → Except Failure Bool → Prop) (first : Session × Records) :
    Session × Records → Prop where
  | start : Acts allowed first first
  | next {session : Session} {records : Records} (h : Acts allowed first (session, records))
      (act : Act) (now : Instant) (hallowed : allowed act (act.perform session now records).1) :
      Acts allowed first (act.perform session now records).2

variable {session result : Session} {now : Instant} {records after : Records} {act : Act}

/-- A document is refused, or playback keeps its graph for its own. -/
theorem Session.ownGraph_receive (session : Session) (data : Json) (records : Records) :
    ((session.receive data records).1 = .ok false ∧
        (session.receive data records).2.1.ownGraph = session.ownGraph) ∨
      ((session.receive data records).1 ≠ .ok false ∧
        (session.receive data records).2.1.ownGraph = some session.playedGraph) := by
  rw [receive]
  cases himported : imported data with
  | none =>
    rw [run_importStory_of_none session himported]
    exact Or.inl ⟨rfl, rfl⟩
  | some found =>
    obtain ⟨graph, definitions⟩ := found
    have hbroken : (session.brokenOff data).ownGraph = some session.playedGraph := by
      rw [brokenOff, himported]
    rw [run_importStory_of_some session himported]
    cases definitions.bind Schema.Draft.torn with
    | some points => exact Or.inr ⟨by simp, hbroken⟩
    | none =>
      cases graph.torn with
      | some points => exact Or.inr ⟨by simp, hbroken⟩
      | none => exact Or.inr ⟨by simp, rfl⟩

theorem Edit.Leaves.ownGraph {edit : Edit} {done : Bool}
    (h : edit.Leaves session now records (.ok (done, result), after)) :
    result.ownGraph = session.ownGraph := by
  cases h <;> rfl

theorem Session.ownGraph_execute (session : Session) (now : Instant) (choice : Choice) :
    (session.execute now choice).2.ownGraph = session.ownGraph := by
  rw [execute]
  cases now.millis <;> rfl

theorem Session.ownGraph_take (session : Session) (checks : List ChoiceCheck) (now : Instant)
    (index : ℤ) : (session.take checks now index).2.ownGraph = session.ownGraph := by
  rw [take]
  cases session.player.checked checks index with
  | error failure => rfl
  | ok choice => exact session.ownGraph_execute now choice.toChoice

namespace Act

theorem ownGraph_of_replaces
    (h : act.Replaces (act.perform session now records).1) :
    (act.perform session now records).2.1.ownGraph = some session.playedGraph := by
  obtain ⟨hdocument, houtcome⟩ := h
  have hreceive (data : Json) (hdata : (session.receive data records).1 ≠ .ok false) :
      (session.receive data records).2.1.ownGraph = some session.playedGraph := by
    rcases session.ownGraph_receive data records with ⟨hrefused, -⟩ | ⟨-, hown⟩
    · exact absurd hrefused hdata
    · exact hown
  cases act with
  | importStory data => exact hreceive data houtcome
  | loadDemo assets =>
    cases assets with
    | some assets => exact hreceive _ houtcome
    | none => exact absurd hdocument (by simp [document?])
  | _ => exact absurd hdocument (by simp [document?])

/-- Apart from imports, only reloading touches the graph of playback. -/
theorem ownGraph_of_not_replaces (hact : act ≠ reload)
    (h : ¬act.Replaces (act.perform session now records).1) :
    (act.perform session now records).2.1.ownGraph = session.ownGraph := by
  have hreceive (data : Json) (hdata : ¬(session.receive data records).1 ≠ .ok false) :
      (session.receive data records).2.1.ownGraph = session.ownGraph := by
    rcases session.ownGraph_receive data records with ⟨-, hown⟩ | ⟨hnot, -⟩
    · exact hown
    · exact absurd hnot hdata
  cases act with
  | edit change =>
    have hleaves := change.leaves_perform session now records
    rw [perform]
    rcases hrun : (change.perform session now).run records with ⟨failure | ⟨done, result⟩, after⟩
    · rfl
    · rw [hrun] at hleaves
      exact hleaves.ownGraph
  | importStory data => exact hreceive data fun houtcome => h ⟨rfl, houtcome⟩
  | loadDemo assets =>
    cases assets with
    | some assets => exact hreceive _ fun houtcome => h ⟨rfl, houtcome⟩
    | none => rfl
  | take checks index => exact session.ownGraph_take checks now index
  | execute choice => exact session.ownGraph_execute now choice
  | jump index =>
    rw [perform, Session.jump?]
    cases session.player.jump? index <;> rfl
  | load slot =>
    rw [perform, Session.loadSave, Script.run_bind]
    cases ((Repository.loadSlot session.story slot).run records).1 <;> rfl
  | restart | save => rfl
  | reload => exact absurd rfl hact

end Act

namespace Acts

variable {first last : Session × Records}

/-- Without a graph of its own, playback gets none unless the edited graph is replaced. -/
theorem ownGraph_eq_none (h : Acts (fun act outcome => ¬act.Replaces outcome) first last)
    (hfirst : first.1.ownGraph = none) : last.1.ownGraph = none := by
  induction h with
  | start => exact hfirst
  | next h act now hallowed ih =>
    by_cases hact : act = .reload
    · rw [hact]
      rfl
    · rw [Act.ownGraph_of_not_replaces hact hallowed, ih]

/-- A graph that playback has for its own stays until playback is reloaded. -/
theorem ownGraph_eq_some (h : Acts (fun act _ => act ≠ .reload) first last) {graph : Graph}
    (hfirst : first.1.ownGraph = some graph) : last.1.ownGraph = some graph := by
  induction h with
  | start => exact hfirst
  | @next session records h act now hallowed ih =>
    by_cases hreplaces : act.Replaces (act.perform session now records).1
    · rw [Act.ownGraph_of_replaces hreplaces, Session.playedGraph, ih, Option.getD_some]
    · rw [Act.ownGraph_of_not_replaces hallowed hreplaces, ih]

theorem playedGraph_eq_graph (h : Acts (fun act outcome => ¬act.Replaces outcome) first last)
    (hfirst : first.1.ownGraph = none) : last.1.playedGraph = last.1.graph := by
  rw [Session.playedGraph, h.ownGraph_eq_none hfirst, Option.getD_none]

end Acts

/-- An opened story is played in the graph that is edited. -/
theorem Session.ownGraph_of_openStory {story : String} {restores : Bool}
    (h : ((openStory story restores).run records).1 = .ok session) : session.ownGraph = none := by
  obtain ⟨opened, hopened, hsession⟩ := exists_opened_of_openStory h
  obtain ⟨definitions, graph, -, -, rfl⟩ := exists_fresh_of_openStory hopened
  rcases hsession with rfl | rfl
  · rfl
  · rw [resumed]
    cases (records.get? _).bind Repository.parsedSlot <;> rfl

/-- In every state of an opened story the played graph is the edited one, unless an import has gone
through or has broken off since the story was opened or playback was last reloaded.  From then on
playback keeps the graph that it had just before, whatever else is done, until it is reloaded. -/
theorem playedGraph_of_acts {story : String} {restores : Bool}
    (hopen : (Session.openStory story restores).run records = (.ok session, after)) :
    (∀ last, Acts (fun act outcome => ¬act.Replaces outcome) (session, after) last →
      last.1.playedGraph = last.1.graph) ∧
    ∀ state, Acts (fun _ _ => True) (session, after) state →
      (∀ last, Acts (fun act outcome => ¬act.Replaces outcome) (state.1.reload, state.2) last →
        last.1.playedGraph = last.1.graph) ∧
      ∀ (act : Act) now, act.Replaces (act.perform state.1 now state.2).1 →
        ∀ last, Acts (fun other _ => other ≠ .reload) (act.perform state.1 now state.2).2 last →
          last.1.playedGraph = state.1.playedGraph := by
  have hown := Session.ownGraph_of_openStory (congrArg Prod.fst hopen)
  refine ⟨fun last h => h.playedGraph_eq_graph hown, fun state _ => ⟨fun last h => ?_, ?_⟩⟩
  · exact h.playedGraph_eq_graph rfl
  · intro act now hreplaces last h
    rw [Session.playedGraph, h.ownGraph_eq_some (Act.ownGraph_of_replaces hreplaces),
      Option.getD_some]

/-! ## A story that is imported -/

theorem openStory_newStory : (Session.openStory (Identifier.mk 1).spelling true).run newStory =
    (.ok (Session.fresh (Identifier.mk 1).spelling .default .default), newStory) := by
  rw [Session.openStory_of_registered reachable_newStory.kept registered_newStory,
    Stored.session_newStory]

/-- A story whose start says that it is new. -/
def renewedStory : Json.Fields := [("nodes", .obj [(startNodeId, .obj [("text", .str "new")])])]

/-- The number of choices that a graph offers at the node that every story has. -/
def choicesAtStart (graph : Graph) : Option ℕ :=
  (graph.node? startNodeId).map fun node => node.choices.length

/-- Another story is imported into a new one, and then the reader starts again: in the first story,
which offers a choice where the other one offers none. -/
theorem playedGraph_of_acts_newStory :
    ∃ session last, (Session.openStory (Identifier.mk 1).spelling true).run newStory =
        (.ok session, newStory) ∧
      Acts (fun _ _ => True) (session, newStory) last ∧
      last.1.playedGraph = session.playedGraph ∧ choicesAtStart session.playedGraph = some 1 ∧
      choicesAtStart last.1.graph = some 0 := by
  obtain ⟨-, hruns⟩ := playedGraph_of_acts openStory_newStory
  obtain ⟨-, hkeeps⟩ := hruns _ .start
  have hgoes : ((Act.importStory (.obj renewedStory)).perform
      (Session.fresh (Identifier.mk 1).spelling .default .default) ⟨0.0⟩ newStory).1 =
      .ok true := rfl
  have hkept := hkeeps (.importStory (.obj renewedStory)) ⟨0.0⟩ ⟨rfl, by rw [hgoes]; simp⟩ _
    (.next .start .restart ⟨0.0⟩ (by simp))
  have hrun : Acts (fun _ _ => True)
      (Session.fresh (Identifier.mk 1).spelling .default .default, newStory) _ :=
    .next (.next .start (.importStory (.obj renewedStory)) ⟨0.0⟩ trivial) .restart ⟨0.0⟩ trivial
  exact ⟨_, _, openStory_newStory, hrun, hkept, rfl, rfl⟩

/-- The same story with a variable whose name is half of a surrogate pair. -/
def tornStory : Json.Fields :=
  ("variableDefinitions", .obj [("physiological",
    .arr [.obj [("id", .str "x"), ("name", .torn [0xD800] Text.ofPoints?_half)]])]) :: renewedStory

/-- The edited graph can be replaced although no import has gone through. -/
theorem not_playedGraph_of_failed_import :
    ¬∀ session, (Session.openStory (Identifier.mk 1).spelling true).run newStory =
        (.ok session, newStory) →
      ∀ last, Acts (fun act outcome => act.document?.isSome → outcome ≠ .ok true)
        (session, newStory) last → last.1.playedGraph = last.1.graph := by
  intro hclaim
  have hfails : ∃ failure, ((Act.importStory (.obj tornStory)).perform
      (Session.fresh (Identifier.mk 1).spelling .default .default) ⟨0.0⟩ newStory).1 =
      .error failure := ⟨_, rfl⟩
  obtain ⟨failure, hfails⟩ := hfails
  have hsame := hclaim _ openStory_newStory _
    (.next .start (.importStory (.obj tornStory)) ⟨0.0⟩ fun _ => by rw [hfails]; simp)
  have hchoices : some 1 = some 0 := congrArg choicesAtStart hsame
  exact absurd hchoices (by simp)

end Narrative
