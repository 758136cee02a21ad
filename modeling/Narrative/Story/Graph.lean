import Narrative.Table
import Narrative.Variable.Rule

/-!
# Story graphs

A story is a table of nodes; a node offers choices, and a choice names the node it leads to.
Nothing forces that node to exist.
-/

namespace Narrative

/-- A choice that a node offers. -/
structure Choice where
  /-- The text of the choice. -/
  text : String := ""
  /-- The node it leads to; an empty name stays on the current node. -/
  nextNode : String := ""
  /-- The condition under which it is available. -/
  condition : Condition := {}
  /-- What choosing does to the variables, in order. -/
  operations : List VariableOperation := []

/-- A place of a story. -/
structure Node where
  /-- The identifier. -/
  id : String
  /-- The title. -/
  title : String := ""
  /-- The text. -/
  text : String := ""
  /-- The choices, in order. -/
  choices : List Choice := []

/-- The identifier of the node that every story has. -/
def startNodeId : String := "start"

/-- The format version of graphs. -/
def graphVersion : String := "1.0"

/-- The nodes of a story with the place where it starts. -/
structure Graph where
  /-- The nodes by their keys, in the order of their creation. -/
  nodes : Table String Node := .empty
  /-- The key of the node where the story starts. -/
  startNode : String := startNodeId
  /-- The format version. -/
  version : String := graphVersion

namespace Graph

/-- The node under a key. -/
def node? (graph : Graph) (key : String) : Option Node := graph.nodes.get? key

/-- Whether there is a node under a key. -/
def hasNode (graph : Graph) (key : String) : Bool := graph.nodes.contains key

/-- The nodes in order, those named `start` before all others. -/
def nodesStartFirst (graph : Graph) : List Node :=
  let isStart (node : Node) : Bool := node.id = startNodeId
  graph.nodes.values.filter isStart ++ graph.nodes.values.filter (!isStart ·)

/-- Where playback starts: at the start node, or at the node every story has if none is named. -/
def startPosition (graph : Graph) : String :=
  if graph.startNode.isEmpty then startNodeId else graph.startNode

end Graph

end Narrative
