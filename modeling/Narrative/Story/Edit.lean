import Narrative.Story.Default
import Narrative.Story.Patch

/-!
# Editing a story

Edits of a graph or of a set of definitions.  An edit that names a node, a choice, an operation or
a variable that does not exist is refused and gives nothing.
-/

namespace Narrative

/-- Change the item at an index, if the index is in range and the change goes through. -/
def editItem {α : Type} (edit : α → Option α) (items : List α) (index : Int) : Option (List α) :=
  match index with
  | .ofNat n => do
    let item ← items[n]?
    let item ← edit item
    return items.set n item
  | .negSucc _ => none

/-- Remove the item at an index, if the index is in range. -/
def removeItem {α : Type} (items : List α) (index : Int) : Option (List α) :=
  match index with
  | .ofNat n => if n < items.length then some (items.eraseIdx n) else none
  | .negSucc _ => none

namespace Graph

/-- The first number from `first` on that is not taken, within as many steps as allowed. -/
def freeNumber (taken : Int → Bool) : Nat → Int → Int
  | 0, first => first
  | steps + 1, first => if taken first then freeNumber taken steps (first + 1) else first

/-- The key of a created node. -/
def numberedKey (number : Int) : String := "node_" ++ toString number

/-- The key for a node created at a time in milliseconds: the first number from the time on whose
key is free.  There are no more taken keys than nodes, which bounds the search. -/
def freshKey (graph : Graph) (millis : Int) : String :=
  numberedKey
    (freeNumber (fun number => graph.hasNode (numberedKey number))
      graph.nodes.entries.length millis)

/-- Add a node with placeholder text. -/
def addNode (graph : Graph) (key : String) : Graph :=
  { graph with nodes := graph.nodes.insert key (.placeholder key) }

/-- Remove a node; only the node that every story has stays.  Choices that lead to a removed node
are kept. -/
def removeNode (graph : Graph) (key : String) : Option Graph :=
  if key = startNodeId then none else some { graph with nodes := graph.nodes.erase key }

/-- Change the node under a key. -/
def editNode (graph : Graph) (key : String) (edit : Node → Option Node) : Option Graph := do
  let node ← graph.node? key
  let node ← edit node
  return { graph with nodes := graph.nodes.insert key node }

/-- Patch a node. -/
def patchNode (graph : Graph) (key : String) (patch : NodePatch) : Option Graph :=
  graph.editNode key fun node => some (patch.apply node)

/-- Change the choices of a node. -/
def editChoices (graph : Graph) (key : String) (edit : List Choice → Option (List Choice)) :
    Option Graph :=
  graph.editNode key fun node => (edit node.choices).map fun choices => { node with choices }

/-- Change one choice of a node. -/
def editChoice (graph : Graph) (key : String) (choice : Int) (edit : Choice → Option Choice) :
    Option Graph :=
  graph.editChoices key fun choices => editItem edit choices choice

/-- Add a choice with placeholder text. -/
def addChoice (graph : Graph) (key : String) : Option Graph :=
  graph.editChoices key fun choices => some (choices ++ [.placeholder])

/-- Remove a choice. -/
def removeChoice (graph : Graph) (key : String) (choice : Int) : Option Graph :=
  graph.editChoices key fun choices => removeItem choices choice

/-- Patch a choice. -/
def patchChoice (graph : Graph) (key : String) (choice : Int) (patch : ChoicePatch) :
    Option Graph :=
  graph.editChoice key choice fun choice => some (patch.apply choice)

/-- Patch the condition of a choice. -/
def patchCondition (graph : Graph) (key : String) (choice : Int) (patch : ConditionPatch) :
    Option Graph :=
  graph.editChoice key choice fun choice =>
    some { choice with condition := patch.apply choice.condition }

/-- Change the operations of a choice. -/
def editOperations (graph : Graph) (key : String) (choice : Int)
    (edit : List VariableOperation → Option (List VariableOperation)) : Option Graph :=
  graph.editChoice key choice fun choice =>
    (edit choice.operations).map fun operations => { choice with operations }

/-- Add an operation that adds zero to no variable. -/
def addOperation (graph : Graph) (key : String) (choice : Int) : Option Graph :=
  graph.editOperations key choice fun operations => some (operations ++ [.placeholder])

/-- Remove an operation. -/
def removeOperation (graph : Graph) (key : String) (choice operation : Int) : Option Graph :=
  graph.editOperations key choice fun operations => removeItem operations operation

/-- Patch an operation. -/
def patchOperation (graph : Graph) (key : String) (choice operation : Int)
    (patch : OperationPatch) : Option Graph :=
  graph.editOperations key choice fun operations =>
    editItem (fun operation => some (patch.apply operation)) operations operation

end Graph

/-! ## Definitions -/

/-- Definitions after an edit, and whether the variables start over with them. -/
structure DefinitionsEdit where
  /-- The definitions. -/
  definitions : Definitions
  /-- Whether every variable goes back to its initial value; otherwise the values are kept within
  their new bounds. -/
  restarts : Bool

namespace Definitions

/-- Whether a group of definitions has one with the identifier. -/
def defines (group : List VariableDefinition) (id : String) : Bool :=
  group.any fun definition => definition.id = id

/-- Add a definition at the end of its category; its identifier must be new there. -/
def add (definitions : Definitions) (category : Category) (definition : VariableDefinition) :
    Option DefinitionsEdit :=
  let group := definitions.get category
  if defines group definition.id then none
  else some ⟨definitions.set category (group ++ [definition]), true⟩

/-- Patch the first definition with an identifier.  A new identifier must not be taken by another
definition of the category; if the identifier changes, the variables start over. -/
def patch (definitions : Definitions) (category : Category) (id : String)
    (patch : DefinitionPatch) : Option DefinitionsEdit := do
  let group := definitions.get category
  let index ← group.findIdx? fun definition => definition.id = id
  let definition ← group[index]?
  let updated := patch.apply definition
  let renamed := updated.id != id
  if renamed && defines group updated.id then none
  else some ⟨definitions.set category (group.set index updated), renamed⟩

/-- Remove all definitions with an identifier from a category. -/
def remove (definitions : Definitions) (category : Category) (id : String) :
    Option DefinitionsEdit :=
  let group := definitions.get category
  if defines group id then
    some ⟨definitions.set category (group.filter fun definition => definition.id ≠ id), true⟩
  else none

end Definitions

end Narrative
