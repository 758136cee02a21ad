import Narrative.Schema.Draft
import Narrative.Session.Basic

/-!
# Editing in a session

Every edit that goes through is stored before it is answered: edits of the graph store the whole
graph, edits of the variables store all definitions.  A refused edit changes nothing and stores
nothing.
-/

namespace Narrative.Session

open Schema (Draft)

/-! ## The graph -/

/-- Store the edited graph. -/
def saveGraph (session : Session) : Script Unit :=
  Repository.saveGraph session.story session.graph

/-- Make an edit of the graph, and tell whether it went through. -/
def editGraph (session : Session) (edit : Graph → Option Graph) : Script (Bool × Session) := do
  match edit session.graph with
  | some graph =>
    let session := { session with graph }
    session.saveGraph
    return (true, session)
  | none => return (false, session)

/-- Add a node and tell its key. -/
def createNode (session : Session) (now : Instant) : Attempt (String × Session) := do
  let time ← Attempt.ofExcept now.millis
  let key := session.graph.freshKey time
  let session := { session with graph := session.graph.addNode key }
  session.saveGraph
  return (key, session)

/-! ## The variables -/

/-- Put definitions in force, the variables starting over or keeping their values. -/
def install (session : Session) (edit : DefinitionsEdit) : Script Session := do
  Repository.saveDefinitions session.story edit.definitions
  let store :=
    if edit.restarts then VariableStore.ofDefinitions edit.definitions
    else session.store.withDefinitions edit.definitions
  return { session with store }

/-- Make an edit of the definitions, and tell whether it went through. -/
def editDefinitions (session : Session) (edit : Definitions → Option DefinitionsEdit) :
    Script (Bool × Session) := do
  match edit session.store.definitions with
  | some edit => return (true, ← session.install edit)
  | none => return (false, session)

/-! ## Whole stories -/

/-- The story as one document. -/
def bundle (session : Session) (now : Instant) : Except Failure ExportBundle := do
  let exportDate ← now.text
  return {
    nodes := session.graph.nodes
    startNode := session.graph.startNode
    definitions := session.store.definitions
    version := session.graph.version
    exportDate }

/-- A field of an imported document, with a default where it is left blank. -/
def importField (fields : Json.Fields) (name default : String) : Json :=
  match Json.Fields.get? fields name with
  | some value => if value.isVacant then .str default else value
  | none => .str default

/-- The graph document in the fields of an imported document. -/
def importedGraph (fields : Json.Fields) (nodes : Json) : Json :=
  .obj [("nodes", nodes), ("startNode", importField fields "startNode" startNodeId),
    ("version", importField fields "version" graphVersion)]

/-- The definitions of an imported document, which need not bring any. -/
def importedDefinitions (fields : Json.Fields) : Option (Option (Draft Definitions)) :=
  match Json.Fields.get? fields "variableDefinitions" with
  | none | some .null => some none
  | some value => ((Draft.read (Definitions.reader .document) value).toOption).map some

/-- The graph and the definitions, if it brings any, of an imported document.  The nodes must not
be missing and must include the one that every story has. -/
def imported (data : Json) : Option (Draft Graph × Option (Draft Definitions)) := do
  let .obj fields := data | none
  match Json.Fields.get? fields "nodes" with
  | none | some .null => none
  | some nodes =>
    let graph ← (Draft.read (Graph.reader .document) (importedGraph fields nodes)).toOption
    let definitions ← importedDefinitions fields
    if graph.value.hasNode startNodeId then some (graph, definitions) else none

/-- Replace the whole story by an imported one, and tell whether it went through.  Playback keeps
its graph.  The definitions are stored before the graph, and each of them only if it can be. -/
def importStory (session : Session) (data : Json) : Attempt (Bool × Session) := do
  match imported data with
  | some (graph, definitions) =>
    let session ← match definitions with
      | some definitions => session.install ⟨← Attempt.ofExcept definitions.storable, true⟩
      | none => pure session
    let graph ← Attempt.ofExcept graph.storable
    let session := { session with graph, ownGraph := some session.playedGraph }
    session.saveGraph
    return (true, session)
  | none => return (false, session)

/-- The session that an import leaves when it breaks off because something cannot be stored: the
graph is in place, and so are the definitions if these could be stored. -/
def brokenOff (session : Session) (data : Json) : Session :=
  match imported data with
  | some (graph, definitions) =>
    let stored := definitions.bind fun draft => draft.storable.toOption
    { session with
      graph := graph.value
      ownGraph := some session.playedGraph
      store := (stored.map VariableStore.ofDefinitions).getD session.store }
  | none => session

end Narrative.Session
