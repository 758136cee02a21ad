import Narrative.Story.Graph

/-!
# Patches

A patch names some fields of a record and their new values; the fields it does not name stay.
-/

namespace Narrative

/-- New values for the fields of a node. -/
structure NodePatch where
  title : Option String := none
  text : Option String := none
  choices : Option (List Choice) := none

/-- New values for the fields of a choice. -/
structure ChoicePatch where
  text : Option String := none
  nextNode : Option String := none
  condition : Option Condition := none
  operations : Option (List VariableOperation) := none

/-- New values for the fields of a condition. -/
structure ConditionPatch where
  enabled : Option Bool := none
  category : Option Category := none
  target : Option String := none
  comparison : Option Comparison := none
  value : Option Float := none

/-- New values for the fields of an operation. -/
structure OperationPatch where
  category : Option Category := none
  target : Option String := none
  kind : Option OperationKind := none
  value : Option Float := none

/-- New values for the fields of a definition. -/
structure DefinitionPatch where
  id : Option String := none
  name : Option String := none
  initial : Option Float := none
  min : Option Float := none
  max : Option Float := none

/-- The node with the fields of a patch replaced. -/
def NodePatch.apply (patch : NodePatch) (node : Node) : Node :=
  { node with
    title := patch.title.getD node.title
    text := patch.text.getD node.text
    choices := patch.choices.getD node.choices }

/-- The choice with the fields of a patch replaced. -/
def ChoicePatch.apply (patch : ChoicePatch) (choice : Choice) : Choice where
  text := patch.text.getD choice.text
  nextNode := patch.nextNode.getD choice.nextNode
  condition := patch.condition.getD choice.condition
  operations := patch.operations.getD choice.operations

/-- The condition with the fields of a patch replaced. -/
def ConditionPatch.apply (patch : ConditionPatch) (condition : Condition) : Condition where
  enabled := patch.enabled.getD condition.enabled
  category := patch.category.getD condition.category
  target := patch.target.getD condition.target
  comparison := patch.comparison.getD condition.comparison
  value := patch.value.getD condition.value

/-- The operation with the fields of a patch replaced. -/
def OperationPatch.apply (patch : OperationPatch) (operation : VariableOperation) :
    VariableOperation where
  category := patch.category.getD operation.category
  target := patch.target.getD operation.target
  kind := patch.kind.getD operation.kind
  value := patch.value.getD operation.value

/-- The definition with the fields of a patch replaced. -/
def DefinitionPatch.apply (patch : DefinitionPatch) (definition : VariableDefinition) :
    VariableDefinition where
  id := patch.id.getD definition.id
  name := patch.name.getD definition.name
  initial := patch.initial.getD definition.initial
  min := patch.min.getD definition.min
  max := patch.max.getD definition.max

end Narrative
