import Narrative.Wire.Story
import Narrative.Story.Patch

/-!
# Patch documents

In a patch `null` is the same as a field that is not given.
-/

namespace Narrative

open Schema

/-- A field of a patch. -/
def Schema.patchField {α : Type} (fields : Json.Fields) (name : String) (reader : Reader α) :
    Checked (Option α) :=
  optional fields name none (nullable reader)

namespace NodePatch

/-- Read the fields of a node patch. -/
def ofFields (origin : Origin) (fields : Json.Fields) : Checked NodePatch :=
  NodePatch.mk <$> patchField fields "title" string
    <*> patchField fields "text" string
    <*> patchField fields "choices" (list (Choice.reader origin))

/-- Read a node patch. -/
def reader (origin : Origin) : Reader NodePatch := record origin (ofFields origin)

/-- Write a node patch. -/
def toJson (patch : NodePatch) : Json :=
  .obj [("title", .ofOption .str patch.title), ("text", .ofOption .str patch.text),
    ("choices", .ofOption (fun choices => .arr (choices.map Choice.toJson)) patch.choices)]

end NodePatch

namespace ChoicePatch

/-- Read the fields of a choice patch. -/
def ofFields (origin : Origin) (fields : Json.Fields) : Checked ChoicePatch :=
  ChoicePatch.mk <$> patchField fields "text" string
    <*> patchField fields "nextNode" string
    <*> patchField fields "condition" (Condition.reader origin)
    <*> patchField fields "variableOperations" (list (VariableOperation.reader origin))

/-- Read a choice patch. -/
def reader (origin : Origin) : Reader ChoicePatch := record origin (ofFields origin)

/-- Write a choice patch. -/
def toJson (patch : ChoicePatch) : Json :=
  .obj [("text", .ofOption .str patch.text), ("nextNode", .ofOption .str patch.nextNode),
    ("condition", .ofOption Condition.toJson patch.condition),
    ("variableOperations",
      .ofOption (fun list => .arr (list.map VariableOperation.toJson)) patch.operations)]

end ChoicePatch

namespace ConditionPatch

/-- Read the fields of a condition patch. -/
def ofFields (origin : Origin) (fields : Json.Fields) : Checked ConditionPatch :=
  ConditionPatch.mk <$> patchField fields "enabled" truth
    <*> patchField fields "category" Category.reader
    <*> patchField fields "variable" string
    <*> patchField fields "operator" Comparison.reader
    <*> patchField fields "value" origin.number

/-- Read a condition patch. -/
def reader (origin : Origin) : Reader ConditionPatch := record origin (ofFields origin)

/-- Write a condition patch. -/
def toJson (patch : ConditionPatch) : Json :=
  .obj [("enabled", .ofOption .bool patch.enabled),
    ("category", .ofOption Category.toJson patch.category),
    ("variable", .ofOption .str patch.target),
    ("operator", .ofOption Comparison.toJson patch.comparison),
    ("value", .ofOption .num patch.value)]

end ConditionPatch

namespace OperationPatch

/-- Read the fields of an operation patch. -/
def ofFields (origin : Origin) (fields : Json.Fields) : Checked OperationPatch :=
  OperationPatch.mk <$> patchField fields "category" Category.reader
    <*> patchField fields "variable" string
    <*> patchField fields "operation" OperationKind.reader
    <*> patchField fields "value" origin.number

/-- Read an operation patch. -/
def reader (origin : Origin) : Reader OperationPatch := record origin (ofFields origin)

/-- Write an operation patch. -/
def toJson (patch : OperationPatch) : Json :=
  .obj [("category", .ofOption Category.toJson patch.category),
    ("variable", .ofOption .str patch.target),
    ("operation", .ofOption OperationKind.toJson patch.kind),
    ("value", .ofOption .num patch.value)]

end OperationPatch

namespace DefinitionPatch

/-- Read the fields of a definition patch. -/
def ofFields (origin : Origin) (fields : Json.Fields) : Checked DefinitionPatch :=
  DefinitionPatch.mk <$> patchField fields "id" string
    <*> patchField fields "name" string
    <*> patchField fields "initial" origin.number
    <*> patchField fields "min" origin.number
    <*> patchField fields "max" origin.number

/-- Read a definition patch. -/
def reader (origin : Origin) : Reader DefinitionPatch := record origin (ofFields origin)

/-- Write a definition patch. -/
def toJson (patch : DefinitionPatch) : Json :=
  .obj [("id", .ofOption .str patch.id), ("name", .ofOption .str patch.name),
    ("initial", .ofOption .num patch.initial), ("min", .ofOption .num patch.min),
    ("max", .ofOption .num patch.max)]

end DefinitionPatch

end Narrative
