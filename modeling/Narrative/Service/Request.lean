import Narrative.Wire.Answer
import Narrative.Session.Action

/-!
# Requests

What a client can ask of the service.  A query looks at a story, a command changes one; both name
the story by its identifier.
-/

namespace Narrative

/-- What can be asked about a story. -/
inductive Query where
  /-- The graph. -/
  | graph
  /-- The whole story as one document. -/
  | bundle
  /-- The nodes, the first one of every story in front. -/
  | nodes
  /-- One node. -/
  | node (key : String)
  /-- The variable definitions. -/
  | definitions
  /-- What the reader sees. -/
  | view
  /-- The choices that the reader has taken. -/
  | history
  /-- The names of the save slots. -/
  | slots

/-- What can be done with a story. -/
inductive Command where
  /-- Replace the story by an imported one. -/
  | importStory (document : Json.Fields)
  /-- Replace the story by the demo story. -/
  | loadDemo
  /-- Add a node. -/
  | createNode
  /-- Patch a node. -/
  | patchNode (node : String) (patch : NodePatch)
  /-- Remove a node. -/
  | removeNode (node : String)
  /-- Add a choice to a node. -/
  | addChoice (node : String)
  /-- Patch a choice. -/
  | patchChoice (node : String) (choice : Int) (patch : ChoicePatch)
  /-- Remove a choice. -/
  | removeChoice (node : String) (choice : Int)
  /-- Patch the condition of a choice. -/
  | patchCondition (node : String) (choice : Int) (patch : ConditionPatch)
  /-- Add an operation to a choice. -/
  | addOperation (node : String) (choice : Int)
  /-- Patch an operation. -/
  | patchOperation (node : String) (choice operation : Int) (patch : OperationPatch)
  /-- Remove an operation. -/
  | removeOperation (node : String) (choice operation : Int)
  /-- Define a variable. -/
  | addVariable (category : Category) (request : VariableRequest)
  /-- Patch the definition of a variable. -/
  | patchVariable (category : Category) (id : String) (patch : DefinitionPatch)
  /-- Remove a variable. -/
  | removeVariable (category : Category) (id : String)
  /-- Carry out a play action. -/
  | play (action : String) (payload : Json.Fields)
  /-- Save the position to a slot. -/
  | savePosition (slot : String)

/-- A request. -/
inductive Request where
  /-- Whether the service runs. -/
  | health
  /-- Name and version of the service. -/
  | about
  /-- Whether the service is described. -/
  | documentation
  /-- Create a story. -/
  | createStory
  /-- List the stories. -/
  | listStories
  /-- Look at a story. -/
  | query (story : Identifier) (query : Query)
  /-- Change a story. -/
  | command (story : Identifier) (command : Command)

namespace Command

/-- Take the choice at an index. -/
def choose (index : Int) : Command := .play PlayAction.choose.name [("index", .int index)]

/-- Start the playthrough again. -/
def restart : Command := .play PlayAction.restart.name []

/-- Go back to the place where a choice was taken. -/
def jump (index : Int) : Command := .play PlayAction.jump.name [("index", .int index)]

/-- Go to the position in a slot. -/
def loadPosition (slot : String) : Command := .play PlayAction.load.name [("slot", .str slot)]

end Command

end Narrative
