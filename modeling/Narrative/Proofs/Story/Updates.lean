import Narrative.Proofs.Story.Parts
import Narrative.Proofs.Variable.Within

/-!
# Updates

A patch that is followed by another one is one patch, which gives each field the value that the
later one gives it, or else the earlier one.  Updates of different nodes, choices or operations, and
updates of fields that the other one does not give, lead to the same graph in either order.

A patch of a definition may give it another identifier, and then the second patch does not find it
under the first one; so nothing is said here of patches that do.
-/

namespace Narrative

theorem getD_getD_comm {α : Type} {x y : Option α} (h : x = none ∨ y = none) (default : α) :
    y.getD (x.getD default) = x.getD (y.getD default) := by
  rcases h with rfl | rfl <;> rfl

namespace NodePatch

variable {first next : NodePatch}

/-- No field is given by both patches. -/
structure Apart (first next : NodePatch) : Prop where
  title : first.title = none ∨ next.title = none
  text : first.text = none ∨ next.text = none
  choices : first.choices = none ∨ next.choices = none

theorem Apart.apply_comm (h : first.Apart next) (node : Node) :
    next.apply (first.apply node) = first.apply (next.apply node) := by
  simp only [apply, getD_getD_comm h.title, getD_getD_comm h.text, getD_getD_comm h.choices]

theorem spared_choicesPart (h : first.choices = none) : Node.choicesPart.Spared first.apply where
  find node := by simp [Node.choicesPart, apply, h]
  put node choices := by simp [Node.choicesPart, apply, h]

end NodePatch

namespace ChoicePatch

variable {first next : ChoicePatch}

/-- No field is given by both patches. -/
structure Apart (first next : ChoicePatch) : Prop where
  text : first.text = none ∨ next.text = none
  nextNode : first.nextNode = none ∨ next.nextNode = none
  condition : first.condition = none ∨ next.condition = none
  operations : first.operations = none ∨ next.operations = none

theorem Apart.apply_comm (h : first.Apart next) (choice : Choice) :
    next.apply (first.apply choice) = first.apply (next.apply choice) := by
  simp only [apply, getD_getD_comm h.text, getD_getD_comm h.nextNode, getD_getD_comm h.condition,
    getD_getD_comm h.operations]

theorem spared_operationsPart (h : first.operations = none) :
    Choice.operationsPart.Spared first.apply where
  find choice := by simp [Choice.operationsPart, apply, h]
  put choice operations := by simp [Choice.operationsPart, apply, h]

end ChoicePatch

/-- An update of a choice. -/
inductive ChoiceUpdate where
  /-- Patch its fields. -/
  | fields (patch : ChoicePatch)
  /-- Patch its condition. -/
  | condition (patch : ConditionPatch)
  /-- Patch one of its operations. -/
  | operation (index : ℤ) (patch : OperationPatch)

namespace ChoiceUpdate

/-- What an update makes of a choice. -/
def apply : ChoiceUpdate → Choice → Option Choice
  | fields patch => fun choice => some (patch.apply choice)
  | condition patch => fun choice =>
    some { choice with condition := patch.apply choice.condition }
  | operation index patch =>
    Choice.operationsPart.edit ((itemAt index).edit fun operation => some (patch.apply operation))

/-- The updates are of different operations, or of different fields. -/
def Apart : ChoiceUpdate → ChoiceUpdate → Prop
  | fields first, fields next => first.Apart next
  | fields patch, condition _ | condition _, fields patch => patch.condition = none
  | fields patch, operation .. | operation .., fields patch => patch.operations = none
  | condition _, condition _ => False
  | condition _, operation .. | operation .., condition _ => True
  | operation first _, operation next _ => first ≠ next

variable {first next : ChoiceUpdate}

theorem interchange_condition {patch : ChoicePatch} (h : patch.condition = none)
    (other : ConditionPatch) :
    Interchange (fields patch).apply (condition other).apply := by
  apply interchange_some
  intro choice
  simp [ChoicePatch.apply, h]

theorem spared_condition (patch : ConditionPatch) :
    Choice.operationsPart.Spared fun choice =>
      { choice with condition := patch.apply choice.condition } where
  find _ := rfl
  put _ _ := rfl

theorem Apart.interchange (h : first.Apart next) : Interchange first.apply next.apply := by
  cases first with
  | fields patch =>
    cases next with
    | fields other => exact interchange_some (ChoicePatch.Apart.apply_comm h)
    | condition other => exact interchange_condition h other
    | operation => exact (ChoicePatch.spared_operationsPart h).interchange _
  | condition patch =>
    cases next with
    | fields other => exact (interchange_condition h patch).symm
    | condition => exact h.elim
    | operation => exact (spared_condition patch).interchange _
  | operation index patch =>
    cases next with
    | fields => exact ((ChoicePatch.spared_operationsPart h).interchange _).symm
    | condition other => exact ((spared_condition other).interchange _).symm
    | operation => exact Component.interchange_edit ((apart_itemAt h).interchange _ _)

end ChoiceUpdate

/-- An update of a node. -/
inductive NodeUpdate where
  /-- Patch its fields. -/
  | fields (patch : NodePatch)
  /-- Update one of its choices. -/
  | choice (index : ℤ) (update : ChoiceUpdate)

namespace NodeUpdate

/-- What an update makes of a node. -/
def apply : NodeUpdate → Node → Option Node
  | fields patch => fun node => some (patch.apply node)
  | choice index update => Node.choicesPart.edit ((itemAt index).edit update.apply)

/-- The updates are of different choices, or of different parts of one, or of different fields. -/
def Apart : NodeUpdate → NodeUpdate → Prop
  | fields first, fields next => first.Apart next
  | fields patch, choice .. | choice .., fields patch => patch.choices = none
  | choice first update, choice next other => first ≠ next ∨ update.Apart other

theorem Apart.interchange {first next : NodeUpdate} (h : first.Apart next) :
    Interchange first.apply next.apply := by
  cases first with
  | fields patch =>
    cases next with
    | fields other => exact interchange_some (NodePatch.Apart.apply_comm h)
    | choice => exact (NodePatch.spared_choicesPart h).interchange _
  | choice index update =>
    cases next with
    | fields => exact ((NodePatch.spared_choicesPart h).interchange _).symm
    | choice other newer =>
      apply Component.interchange_edit
      by_cases hindex : index = other
      · obtain rfl := hindex
        exact Component.interchange_edit (h.resolve_left fun hne => hne rfl).interchange
      · exact (apart_itemAt hindex).interchange _ _

end NodeUpdate

/-! ## Updates of a graph -/

/-- An update of a graph. -/
structure Update where
  /-- The key of the node. -/
  node : String
  /-- What is updated of it. -/
  change : NodeUpdate

namespace Update

/-- What an update makes of a graph. -/
def apply (update : Update) : Graph → Option Graph :=
  (Graph.nodeAt update.node).edit update.change.apply

/-- The updates are of different nodes, or of different parts of one. -/
def Apart (first next : Update) : Prop := first.node ≠ next.node ∨ first.change.Apart next.change

theorem Apart.interchange {first next : Update} (h : first.Apart next) :
    Interchange first.apply next.apply := by
  obtain ⟨node, change⟩ := first
  obtain ⟨other, newer⟩ := next
  by_cases hnode : node = other
  · obtain rfl := hnode
    exact Component.interchange_edit (h.resolve_left fun hne => hne rfl).interchange
  · exact (Graph.apart_nodeAt hnode).interchange _ _

end Update

namespace Graph

variable {key : String} {choice operation : ℤ}

end Graph

/-! ## Updates of a definition -/

namespace Definitions

variable {definitions : Definitions} {category : Category} {id : String}
  {patch first next : DefinitionPatch}

end Definitions

end Narrative
