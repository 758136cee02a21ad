import Narrative.Wire.Patch
import Narrative.Wire.Playback
import Narrative.Identifier
import Narrative.Json.Reader

/-!
# Answers and the catalogue of documents

The short documents with which requests are answered, and the list of all documents by their
titles.
-/

namespace Narrative

open Schema

/-! ## Identifiers -/

namespace Identifier

/-- Read an identifier. -/
def reader : Reader Identifier
  | .str text => .ofOption .unreadableIdentifier (ofText? text)
  | .torn .. => .fail .unreadableIdentifier
  | _ => .fail .notIdentifier

/-- Write an identifier. -/
def toJson (id : Identifier) : Json := .str id.spelling

end Identifier

/-! ## Answers -/

/-- The answer that names one story. -/
structure StoryIdAnswer where
  storyId : Identifier

/-- The answer that names the stories. -/
structure StoryListAnswer where
  stories : List Identifier

/-- The answer that names one node. -/
structure NodeIdAnswer where
  nodeId : String

/-- The answer that lists the nodes. -/
structure NodeListAnswer where
  nodes : List Node

/-- The answer that lists the choices taken. -/
structure HistoryAnswer where
  history : List HistoryEntry

/-- The answer that lists the save slots. -/
structure SlotListAnswer where
  slots : List String

namespace StoryIdAnswer

/-- Read the answer. -/
def reader (origin : Origin) : Reader StoryIdAnswer :=
  record origin fun fields => StoryIdAnswer.mk <$> required fields "storyId" Identifier.reader

/-- Write the answer. -/
def toJson (answer : StoryIdAnswer) : Json := .obj [("storyId", answer.storyId.toJson)]

end StoryIdAnswer

namespace StoryListAnswer

/-- Read the answer. -/
def reader (origin : Origin) : Reader StoryListAnswer :=
  record origin fun fields =>
    StoryListAnswer.mk <$> required fields "stories" (list Identifier.reader)

/-- Write the answer. -/
def toJson (answer : StoryListAnswer) : Json :=
  .obj [("stories", .arr (answer.stories.map Identifier.toJson))]

end StoryListAnswer

namespace NodeIdAnswer

/-- Read the answer. -/
def reader (origin : Origin) : Reader NodeIdAnswer :=
  record origin fun fields => NodeIdAnswer.mk <$> required fields "nodeId" string

/-- Write the answer. -/
def toJson (answer : NodeIdAnswer) : Json := .obj [("nodeId", .str answer.nodeId)]

end NodeIdAnswer

namespace NodeListAnswer

/-- Read the answer. -/
def reader (origin : Origin) : Reader NodeListAnswer :=
  record origin fun fields =>
    NodeListAnswer.mk <$> required fields "nodes" (list (Node.reader origin))

/-- Write the answer. -/
def toJson (answer : NodeListAnswer) : Json := .obj [("nodes", .arr (answer.nodes.map Node.toJson))]

end NodeListAnswer

namespace HistoryAnswer

/-- Read the answer. -/
def reader (origin : Origin) : Reader HistoryAnswer :=
  record origin fun fields =>
    HistoryAnswer.mk <$> required fields "history" (list (HistoryEntry.reader origin))

/-- Write the answer. -/
def toJson (answer : HistoryAnswer) : Json :=
  .obj [("history", .arr (answer.history.map HistoryEntry.toJson))]

end HistoryAnswer

namespace SlotListAnswer

/-- Read the answer. -/
def reader (origin : Origin) : Reader SlotListAnswer :=
  record origin fun fields => SlotListAnswer.mk <$> required fields "slots" (list string)

/-- Write the answer. -/
def toJson (answer : SlotListAnswer) : Json := .obj [("slots", .arr (answer.slots.map .str))]

end SlotListAnswer

/-! ## The catalogue -/

/-- Check a document and write it again, complete and in its own order. -/
def Schema.rewritten {α : Type} (reader : Origin → Reader α) (toJson : α → Json) (origin : Origin) :
    Reader Json :=
  fun value => .map toJson (reader origin value)

/-- Read a document from its text. -/
def Schema.ofText {α : Type} (reader : Origin → Reader α) (text : String) : Checked α :=
  match Json.read .stored text with
  | .ok value => reader .text value
  | .error _ => .fail .malformed

/-- Read a document that has no fields. -/
def blankDocument (origin : Origin) : Reader Unit := record origin fun _ => pure ()

/-- The documents by their titles, each with the check that completes it. -/
def documents : List (String × (Origin → Reader Json)) :=
  [("WireModel", rewritten blankDocument fun _ => .obj []),
    ("VariableDefinition", rewritten VariableDefinition.reader VariableDefinition.toJson),
    ("VariableDefinitionSet", rewritten Definitions.reader Definitions.toJson),
    ("Condition", rewritten Condition.reader Condition.toJson),
    ("VariableOperation", rewritten VariableOperation.reader VariableOperation.toJson),
    ("Choice", rewritten Choice.reader Choice.toJson),
    ("AvailableChoice", rewritten AvailableChoice.reader AvailableChoice.toJson),
    ("Node", rewritten Node.reader Node.toJson),
    ("StoryGraph", rewritten Graph.reader Graph.toJson),
    ("HistoryEntry", rewritten HistoryEntry.reader HistoryEntry.toJson),
    ("SaveSlot", rewritten SaveSlot.reader SaveSlot.toJson),
    ("ExportBundle", rewritten ExportBundle.reader ExportBundle.toJson),
    ("NodePatch", rewritten NodePatch.reader NodePatch.toJson),
    ("ChoicePatch", rewritten ChoicePatch.reader ChoicePatch.toJson),
    ("ConditionPatch", rewritten ConditionPatch.reader ConditionPatch.toJson),
    ("VariableOperationPatch", rewritten OperationPatch.reader OperationPatch.toJson),
    ("VariableDefinitionPatch", rewritten DefinitionPatch.reader DefinitionPatch.toJson),
    ("VariableCreateRequest", rewritten VariableRequest.reader VariableRequest.toJson),
    ("PlaybackView", rewritten PlaybackView.reader PlaybackView.toJson),
    ("StoryIdResponse", rewritten StoryIdAnswer.reader StoryIdAnswer.toJson),
    ("StoryListResponse", rewritten StoryListAnswer.reader StoryListAnswer.toJson),
    ("NodeIdResponse", rewritten NodeIdAnswer.reader NodeIdAnswer.toJson),
    ("NodeListResponse", rewritten NodeListAnswer.reader NodeListAnswer.toJson),
    ("HistoryResponse", rewritten HistoryAnswer.reader HistoryAnswer.toJson),
    ("SaveSlotListResponse", rewritten SlotListAnswer.reader SlotListAnswer.toJson)]

/-- The check of the document with a title. -/
def document? (title : String) : Option (Origin → Reader Json) := documents.lookup title

end Narrative
