import Narrative.Schema.Record
import Narrative.Variable.Rule

/-!
# Documents about variables

The documents for definitions, conditions and operations: each has a reader and a writer.  Older
files write `null` for a number that was left blank; such a number is looked at as a value, wherever
the document comes from.
-/

namespace Narrative

open Schema

/-! ## Names -/

namespace Category

/-- Read the name of a category. -/
def reader : Reader Category := oneOf ofName?

/-- Write the name of a category. -/
def toJson (category : Category) : Json := .str category.name

end Category

namespace Comparison

/-- Read the name of a comparison. -/
def reader : Reader Comparison := oneOf ofName?

/-- Write the name of a comparison. -/
def toJson (comparison : Comparison) : Json := .str comparison.name

end Comparison

namespace OperationKind

/-- Read the name of a kind of operation. -/
def reader : Reader OperationKind := oneOf ofName?

/-- Write the name of a kind of operation. -/
def toJson (kind : OperationKind) : Json := .str kind.name

end OperationKind

/-! ## Definitions -/

namespace VariableDefinition

/-- Read the fields of a definition. -/
def ofFields (fields : Json.Fields) : Checked VariableDefinition :=
  VariableDefinition.mk <$> required fields "id" string
    <*> optional fields "name" "" string
    <*> optional fields "initial" 0.0 (nullAs 0.0 number)
    <*> optional fields "min" 0.0 (nullAs 0.0 number)
    <*> optional fields "max" 100.0 (nullAs 100.0 number)

/-- Read a definition. -/
def reader (origin : Origin) : Reader VariableDefinition := record origin ofFields

/-- Write a definition. -/
def toJson (definition : VariableDefinition) : Json :=
  .obj [("id", .str definition.id), ("name", .str definition.name),
    ("initial", .num definition.initial), ("min", .num definition.min),
    ("max", .num definition.max)]

end VariableDefinition

namespace Definitions

/-- Read the fields of a set of definitions. -/
def ofFields (origin : Origin) (fields : Json.Fields) : Checked Definitions :=
  let group (name : String) : Checked (List VariableDefinition) :=
    optional fields name [] (list (VariableDefinition.reader origin))
  Categorized.mk <$> group "physiological" <*> group "emotional" <*> group "difficulty"

/-- Read a set of definitions. -/
def reader (origin : Origin) : Reader Definitions := record origin (ofFields origin)

/-- Write a set of definitions. -/
def toJson (definitions : Definitions) : Json :=
  .obj (definitions.toList.map fun (category, group) =>
    (category.name, .arr (group.map VariableDefinition.toJson)))

end Definitions

/-! ## Conditions and operations -/

namespace Condition

/-- Read the fields of a condition. -/
def ofFields (fields : Json.Fields) : Checked Condition :=
  Condition.mk <$> optional fields "enabled" false truth
    <*> optional fields "category" .physiological Category.reader
    <*> optional fields "variable" "" string
    <*> optional fields "operator" .greater Comparison.reader
    <*> optional fields "value" 0.0 (nullAs 0.0 number)

/-- Read a condition. -/
def reader (origin : Origin) : Reader Condition := record origin ofFields

/-- Write a condition. -/
def toJson (condition : Condition) : Json :=
  .obj [("enabled", .bool condition.enabled), ("category", condition.category.toJson),
    ("variable", .str condition.target), ("operator", condition.comparison.toJson),
    ("value", .num condition.value)]

end Condition

namespace VariableOperation

/-- Read the fields of an operation. -/
def ofFields (fields : Json.Fields) : Checked VariableOperation :=
  VariableOperation.mk <$> optional fields "category" .physiological Category.reader
    <*> optional fields "variable" "" string
    <*> optional fields "operation" .add OperationKind.reader
    <*> optional fields "value" 0.0 (nullAs 0.0 number)

/-- Read an operation. -/
def reader (origin : Origin) : Reader VariableOperation := record origin ofFields

/-- Write an operation. -/
def toJson (operation : VariableOperation) : Json :=
  .obj [("category", operation.category.toJson), ("variable", .str operation.target),
    ("operation", operation.kind.toJson), ("value", .num operation.value)]

end VariableOperation

end Narrative
