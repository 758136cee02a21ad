import Narrative.Storage.Script
import Narrative.Wire.Answer
import Narrative.Story.Default
import Narrative.Json.Display

/-!
# The repository

Where the parts of a story are kept: its graph, its variable definitions and its save slots, each
as a document text under a key of its own, and the names of the slots in a list.  The catalog lists
the stories.
-/

namespace Narrative

namespace Repository

/-- The key of a part of a story. -/
def key (story part : String) : String := "branchtale:story:" ++ story ++ ":" ++ part

/-- The key of the graph. -/
def graphKey (story : String) : String := key story "storyData"

/-- The key of the variable definitions. -/
def definitionsKey (story : String) : String := key story "variableDefinitions"

/-- The key of a save slot. -/
def slotKey (story slot : String) : String := key story ("save_" ++ slot)

/-- The key of the list of slot names. -/
def slotListKey (story : String) : String := key story "saves"

/-- The key of the catalog. -/
def catalogKey : String := "branchtale:stories"

/-- The key of the lock that a request on a story holds. -/
def lockKey (story : String) : String := "lock:story:" ++ story

/-- The slot that keeps the current position. -/
def autosaveSlot : String := "autosave"

/-! ## Documents -/

/-- A document that has to fit its schema. -/
def parsed {α : Type} (title : String) (reader : Schema.Origin → Schema.Reader α)
    (text : String) : Except Failure α :=
  match Schema.ofText reader text with
  | .valid value => .ok value
  | .unwritable _ points => .error (.unwritableText points)
  | .invalid issues => .error (.invalidDocument title issues)

/-- Load the document under a key; an empty text is no document. -/
def load {α : Type} (key title : String) (reader : Schema.Origin → Schema.Reader α) :
    Attempt (Option α) := do
  match ← Script.get key with
  | none => return none
  | some text =>
    if text.isEmpty then return none
    else some <$> Attempt.ofExcept (parsed title reader text)

/-- Load the graph of a story. -/
def loadGraph (story : String) : Attempt (Option Graph) :=
  load (graphKey story) "StoryGraph" Graph.reader

/-- Store the graph of a story. -/
def saveGraph (story : String) (graph : Graph) : Script Unit :=
  .put (graphKey story) graph.toJson.text

/-- Load the variable definitions of a story. -/
def loadDefinitions (story : String) : Attempt (Option Definitions) :=
  load (definitionsKey story) "VariableDefinitionSet" Definitions.reader

/-- Store the variable definitions of a story. -/
def saveDefinitions (story : String) (definitions : Definitions) : Script Unit :=
  .put (definitionsKey story) definitions.toJson.text

/-- The names that a stored list holds: items that are no strings count by the text that shows
them, an object counts by its names and a string by its characters. -/
def names : Json → Except Failure (List Label)
  | .arr items => .ok (items.map Json.asName)
  | .obj fields => .ok (fields.map Prod.fst)
  | .str text => .ok (text.toList.map fun c => .text (String.ofList [c]))
  | .torn points _ => .ok (points.map fun point => .ofPoints [point])
  | _ => .error .notList

/-- The names in the text of a stored list. -/
def parsedNames (text : String) : Except Failure (List Label) :=
  if text.isEmpty then .ok []
  else match Json.read .exchanged text with
    | .ok value => names value
    | .error flaw => .error (.ofFlaw flaw)

/-- Load a list of names. -/
def loadNames (key : String) : Attempt (List Label) := do
  match ← Script.get key with
  | none => return []
  | some text => Attempt.ofExcept (parsedNames text)

/-- The names of the save slots of a story. -/
def listSlots (story : String) : Attempt (List Label) := loadNames (slotListKey story)

/-- The position in the text of a save slot; an unreadable one counts as missing. -/
def parsedSlot (text : String) : Option SaveSlot :=
  (Schema.ofText SaveSlot.reader text).toOption

/-- Load the position in a save slot. -/
def loadSlot (story slot : String) : Script (Option SaveSlot) := do
  return (← Script.get (slotKey story slot)).bind parsedSlot

/-- Store a position in a save slot, and the name of the slot if it is new. -/
def saveSlot (story slot : String) (position : SaveSlot) : Attempt Unit := do
  Script.put (slotKey story slot) position.toJson.text
  let slots ← listSlots story
  unless Label.text slot ∈ slots do
    Script.put (slotListKey story) (Json.listText (slots ++ [.text slot]))

end Repository

namespace Catalog

open Repository

/-- The spellings in the catalog. -/
def load : Attempt (List Label) := loadNames catalogKey

/-- Register a new story with the default graph and variables. -/
def create (id : Identifier) : Attempt Identifier := do
  let story := id.spelling
  saveDefinitions story .default
  saveGraph story .default
  let stories ← load
  Script.put catalogKey (Json.listText (stories ++ [.text story]))
  return id

/-- The stories of the catalog; spellings that name none are skipped. -/
def stories : Attempt (List Identifier) := do
  return (← load).filterMap fun
    | .text spelling => Identifier.ofLooseText? spelling
    | .torn .. => none

/-- Whether the catalog lists a story. -/
def contains (story : String) : Attempt Bool := do
  return Label.text story ∈ (← load)

/-- Fail unless the catalog lists a story. -/
def require (story : String) : Attempt Unit := do
  unless ← contains story do
    throw .storyNotFound

end Catalog

end Narrative
