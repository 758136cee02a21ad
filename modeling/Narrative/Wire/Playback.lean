import Narrative.Wire.Story
import Narrative.Playback.Record

/-!
# Documents about playback

The documents for history entries, saved positions and views.
-/

namespace Narrative

open Schema

/-- Tables of variable values. -/
def ValueTable.reader (origin : Origin) : Reader ValueTable :=
  table Category.reader (table string origin.number)

/-- Write a table of variable values. -/
def ValueTable.toJson (values : ValueTable) : Json :=
  .obj (values.entries.map fun (category, group) =>
    (.text category.name, .obj (group.entries.map fun (id, value) => (.text id, .num value))))

namespace HistoryEntry

/-- Read the fields of a history entry. -/
def ofFields (fields : Json.Fields) : Checked HistoryEntry :=
  HistoryEntry.mk <$> required fields "nodeId" string
    <*> optional fields "text" "" string
    <*> optional fields "choice" "" string
    <*> optional fields "timestamp" 0 integer

/-- Read a history entry. -/
def reader (origin : Origin) : Reader HistoryEntry := record origin ofFields

/-- Write a history entry. -/
def toJson (entry : HistoryEntry) : Json :=
  .obj [("nodeId", .str entry.nodeId), ("text", .str entry.text), ("choice", .str entry.choice),
    ("timestamp", .int entry.timestamp)]

end HistoryEntry

namespace SaveSlot

/-- Read the fields of a saved position. -/
def ofFields (origin : Origin) (fields : Json.Fields) : Checked SaveSlot :=
  SaveSlot.mk <$> required fields "currentNodeId" string
    <*> optional fields "variables" .empty (ValueTable.reader origin)
    <*> optional fields "history" [] (list (HistoryEntry.reader origin))
    <*> optional fields "timestamp" 0 integer

/-- Read a saved position. -/
def reader (origin : Origin) : Reader SaveSlot := record origin (ofFields origin)

/-- Write a saved position. -/
def toJson (slot : SaveSlot) : Json :=
  .obj [("currentNodeId", .str slot.currentNodeId), ("variables", slot.values.toJson),
    ("history", .arr (slot.history.map HistoryEntry.toJson)), ("timestamp", .int slot.timestamp)]

end SaveSlot

namespace Status

/-- Read the name of a status. -/
def reader : Reader Status := oneOf ofName?

/-- Write the name of a status. -/
def toJson (status : Status) : Json := .str status.name

end Status

namespace AvailableChoice

/-- Read the fields of a choice with its availability. -/
def ofFields (origin : Origin) (fields : Json.Fields) : Checked AvailableChoice :=
  AvailableChoice.mk <$> Choice.ofFields origin fields <*> required fields "available" truth

/-- Read a choice with its availability. -/
def reader (origin : Origin) : Reader AvailableChoice := record origin (ofFields origin)

/-- Write a choice with its availability. -/
def toJson (choice : AvailableChoice) : Json :=
  .obj (choice.toChoice.toFields ++ ([("available", .bool choice.available)] : Json.Fields))

end AvailableChoice

namespace PlaybackView

/-- Read the fields of a view. -/
def ofFields (origin : Origin) (fields : Json.Fields) : Checked PlaybackView :=
  PlaybackView.mk <$> required fields "currentNodeId" string
    <*> required fields "status" Status.reader
    <*> optional fields "node" none (nullable (Node.reader origin))
    <*> optional fields "choices" [] (list (AvailableChoice.reader origin))
    <*> optional fields "variables" .empty (ValueTable.reader origin)
    <*> optional fields "historyLength" 0 integer

/-- Read a view. -/
def reader (origin : Origin) : Reader PlaybackView := record origin (ofFields origin)

/-- Write a view. -/
def toJson (view : PlaybackView) : Json :=
  .obj [("currentNodeId", .str view.currentNodeId), ("status", view.status.toJson),
    ("node", .ofOption Node.toJson view.node),
    ("choices", .arr (view.choices.map AvailableChoice.toJson)),
    ("variables", view.values.toJson), ("historyLength", .int view.historyLength)]

end PlaybackView

end Narrative
