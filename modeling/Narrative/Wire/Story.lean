import Narrative.Wire.Variable
import Narrative.Story.Bundle

/-!
# Documents about stories

The documents for choices, nodes, graphs and export bundles.  A graph written by hand may leave the
identifier of a node blank; the key of the node stands in for it.
-/

namespace Narrative

open Schema

/-! ## Choices and nodes -/

namespace Choice

/-- Read the fields of a choice. -/
def ofFields (origin : Origin) (fields : Json.Fields) : Checked Choice :=
  Choice.mk <$> optional fields "text" "" string
    <*> optional fields "nextNode" "" (nullAs "" string)
    <*> optional fields "condition" {} (nullAs {} (Condition.reader origin))
    <*> optional fields "variableOperations" []
      (nullAs [] (list (VariableOperation.reader origin)))

/-- Read a choice. -/
def reader (origin : Origin) : Reader Choice := record origin (ofFields origin)

/-- The written fields of a choice. -/
def toFields (choice : Choice) : Json.Fields :=
  [("text", .str choice.text), ("nextNode", .str choice.nextNode),
    ("condition", choice.condition.toJson),
    ("variableOperations", .arr (choice.operations.map VariableOperation.toJson))]

/-- Write a choice. -/
def toJson (choice : Choice) : Json := .obj choice.toFields

end Choice

namespace Node

/-- Read the fields of a node. -/
def ofFields (origin : Origin) (fields : Json.Fields) : Checked Node :=
  Node.mk <$> required fields "id" string
    <*> optional fields "title" "" string
    <*> optional fields "text" "" string
    <*> optional fields "choices" [] (list (Choice.reader origin))

/-- Read a node. -/
def reader (origin : Origin) : Reader Node := record origin (ofFields origin)

/-- Write a node. -/
def toJson (node : Node) : Json :=
  .obj [("id", .str node.id), ("title", .str node.title), ("text", .str node.text),
    ("choices", .arr (node.choices.map Choice.toJson))]

/-- Write a table of nodes. -/
def tableToJson (nodes : Table String Node) : Json :=
  .obj (nodes.entries.map fun (key, node) => (.text key, node.toJson))

end Node

/-! ## Graphs -/

namespace Graph

/-- Give a node its key as identifier where that is left blank. -/
def fillId (key : Label) (value : Json) : Json :=
  match value with
  | .obj fields =>
    match Json.Fields.get? fields "id" with
    | some id => if id.isVacant then .obj (Json.Fields.set fields "id" (.ofLabel key)) else value
    | none => .obj (Json.Fields.set fields "id" (.ofLabel key))
  | _ => value

/-- Fill in the identifiers of all nodes of a document. -/
def fillIds (fields : Json.Fields) : Json.Fields :=
  match Json.Fields.get? fields "nodes" with
  | some (.obj nodes) =>
    Json.Fields.set fields "nodes" (.obj (nodes.map fun (key, value) => (key, fillId key value)))
  | _ => fields

/-- Read the fields of a graph. -/
def ofFields (origin : Origin) (fields : Json.Fields) : Checked Graph :=
  let fields := fillIds fields
  Graph.mk <$> optional fields "nodes" .empty (table string (Node.reader origin))
    <*> optional fields "startNode" startNodeId string
    <*> optional fields "version" graphVersion string

/-- Read a graph. -/
def reader (origin : Origin) : Reader Graph := record origin (ofFields origin)

/-- Write a graph. -/
def toJson (graph : Graph) : Json :=
  .obj [("nodes", Node.tableToJson graph.nodes), ("startNode", .str graph.startNode),
    ("version", .str graph.version)]

end Graph

/-! ## Bundles and requests -/

namespace ExportBundle

/-- Read the fields of a bundle. -/
def ofFields (origin : Origin) (fields : Json.Fields) : Checked ExportBundle :=
  ExportBundle.mk <$> required fields "nodes" (table string (Node.reader origin))
    <*> optional fields "startNode" startNodeId string
    <*> optional fields "variableDefinitions" .empty (Definitions.reader origin)
    <*> optional fields "version" graphVersion string
    <*> required fields "exportDate" string

/-- Read a bundle. -/
def reader (origin : Origin) : Reader ExportBundle := record origin (ofFields origin)

/-- The written fields of a bundle. -/
def toFields (bundle : ExportBundle) : Json.Fields :=
  [("nodes", Node.tableToJson bundle.nodes), ("startNode", .str bundle.startNode),
    ("variableDefinitions", Definitions.toJson bundle.definitions),
    ("version", .str bundle.version), ("exportDate", .str bundle.exportDate)]

/-- Write a bundle. -/
def toJson (bundle : ExportBundle) : Json := .obj bundle.toFields

end ExportBundle

namespace VariableRequest

/-- Read the fields of a request to define a variable. -/
def ofFields (origin : Origin) (fields : Json.Fields) : Checked VariableRequest :=
  VariableRequest.mk <$> required fields "id" (sizedString 1 64)
    <*> required fields "name" (sizedString 1 200)
    <*> optional fields "initial" none (nullable origin.number)
    <*> optional fields "min" none (nullable origin.number)
    <*> optional fields "max" none (nullable origin.number)

/-- Read a request to define a variable. -/
def reader (origin : Origin) : Reader VariableRequest := record origin (ofFields origin)

/-- Write a request to define a variable. -/
def toJson (request : VariableRequest) : Json :=
  .obj [("id", .str request.id), ("name", .str request.name),
    ("initial", .ofOption .num request.initial), ("min", .ofOption .num request.min),
    ("max", .ofOption .num request.max)]

end VariableRequest

end Narrative
