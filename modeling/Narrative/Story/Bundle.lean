import Narrative.Story.Graph

/-!
# Export bundles

A bundle is a whole story in one document: its graph and its variable definitions.
-/

namespace Narrative

/-- A story as it is exported. -/
structure ExportBundle where
  /-- The nodes by their keys. -/
  nodes : Table String Node
  /-- The key of the node where the story starts. -/
  startNode : String := startNodeId
  /-- The variable definitions. -/
  definitions : Definitions := .empty
  /-- The format version. -/
  version : String := graphVersion
  /-- When the bundle was made. -/
  exportDate : String

/-- A request to define a variable. -/
structure VariableRequest where
  /-- The identifier. -/
  id : String
  /-- The name shown to authors. -/
  name : String
  /-- The initial value, if it is not the usual one. -/
  initial : Option Float := none
  /-- The lower bound, if it is not the usual one. -/
  min : Option Float := none
  /-- The upper bound, if it is not the usual one. -/
  max : Option Float := none

end Narrative
