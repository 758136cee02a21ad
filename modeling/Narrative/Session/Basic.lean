import Narrative.Clock
import Narrative.Playback.Take
import Narrative.Story.Edit
import Narrative.Storage.Repository

/-!
# Sessions

A session is one story opened by one caller: the graph that is edited, the reader's place, and the
variables, which editing and playing share.  Playback follows the edited graph until an import puts
another graph in its place; from then on playback keeps the graph it had until it is reloaded.

What is done in a session is given one instant.  An entry of the history and each position that is
saved read the clock anew; here the clock stands still from the first reading to the last, so that
all of them show that instant.
-/

namespace Narrative

/-- A story opened by one caller. -/
structure Session where
  /-- The identifier of the story, as the keys of its documents spell it. -/
  story : String
  /-- The graph that is edited. -/
  graph : Graph
  /-- The graph that is played, where that is not the edited one. -/
  ownGraph : Option Graph := none
  /-- The variables. -/
  store : VariableStore
  /-- Where the reader is. -/
  place : Place

namespace Session

/-- The graph that is played. -/
def playedGraph (session : Session) : Graph := session.ownGraph.getD session.graph

/-- The reader's playthrough. -/
def player (session : Session) : Player := ⟨session.playedGraph, session.store, session.place⟩

/-- Put the variables and the place of a playthrough into the session. -/
def withPlayer (session : Session) (player : Player) : Session :=
  { session with store := player.store, place := player.place }

/-! ## Playing -/

/-- Play a graph of its own from the beginning. -/
def loadGraph (session : Session) (graph : Graph) : Session :=
  { session with ownGraph := some graph }.withPlayer (.start graph session.store)

/-- Play the edited graph from the beginning. -/
def reload (session : Session) : Session :=
  { session with ownGraph := none }.withPlayer (.start session.graph session.store)

/-- Start the playthrough again. -/
def restart (session : Session) : Session := session.withPlayer session.player.restart

/-- Take a choice without any check.  When the clock cannot tell the time, the operations of the
choice are carried out and the reader stays. -/
def execute (session : Session) (now : Instant) (choice : Choice) : Except Failure Unit × Session :=
  match now.millis with
  | .ok time => (.ok (), session.withPlayer (session.player.execute time choice))
  | .error failure => (.error failure, session.withPlayer (session.player.operate choice))

/-- Take the choice at an index after some checks; the answer is the choice as it was offered. -/
def take (session : Session) (checks : List ChoiceCheck) (now : Instant) (index : Int) :
    Except Failure AvailableChoice × Session :=
  match session.player.checked checks index with
  | .ok choice =>
    let (outcome, session) := session.execute now choice.toChoice
    (outcome.map fun _ => choice, session)
  | .error failure => (.error failure, session)

/-- Go back to the place where a choice was taken. -/
def jump? (session : Session) (index : Int) : Option Session :=
  (session.player.jump? index).map session.withPlayer

/-- What the reader sees. -/
def view (session : Session) : PlaybackView := session.player.view

/-! ## Saved positions -/

/-- Save the position to a slot. -/
def save (session : Session) (now : Instant) (slot : String) : Attempt SaveSlot := do
  let time ← Attempt.ofExcept now.millis
  let position := session.player.position time
  Repository.saveSlot session.story slot position
  return position

/-- Save the position as the current one. -/
def autosave (session : Session) (now : Instant) : Attempt SaveSlot :=
  session.save now Repository.autosaveSlot

/-- Go to the position in a slot; without a readable position nothing changes. -/
def loadSave (session : Session) (slot : String) : Script (Option Session) := do
  return (← Repository.loadSlot session.story slot).map fun position =>
    session.withPlayer (session.player.resume position)

/-! ## Opening -/

/-- The session of a reader who starts a story. -/
def fresh (story : String) (definitions : Definitions) (graph : Graph) : Session :=
  let store := VariableStore.ofDefinitions definitions
  let player := Player.start graph store
  { story, graph, store := player.store, place := player.place }

/-- Build the session of a story, whether the catalog lists it or not.  Parts that are not stored
are the default ones; the current position is restored if that is asked for. -/
def build (story : String) (restores : Bool) : Attempt Session := do
  let definitions := (← Repository.loadDefinitions story).getD .default
  let graph := (← Repository.loadGraph story).getD .default
  let session := fresh story definitions graph
  if restores then
    return (← session.loadSave Repository.autosaveSlot).getD session
  else return session

/-- Open a story of the catalog. -/
def openStory (story : String) (restores : Bool) : Attempt Session := do
  Catalog.require story
  build story restores

/-- The session of a story without variables whose playback has no graph yet. -/
def blank (story : String) : Attempt Session := do
  let graph := (← Repository.loadGraph story).getD .default
  return { story, graph, ownGraph := some {}, store := {}, place := { status := .stranded } }

end Session

end Narrative
