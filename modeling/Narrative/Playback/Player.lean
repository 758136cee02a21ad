import Narrative.Variable.Store

/-!
# Playing a story

A `Place` is where a reader is: the current node, the choices taken so far, and the status.  A
`Player` is a place in a graph together with the variables.  Playing changes the place and the
variables and never the graph.
-/

namespace Narrative

/-- Where a reader is. -/
structure Place where
  /-- The identifier of the current node, which need not exist. -/
  nodeId : String := startNodeId
  /-- The choices taken so far, oldest first. -/
  history : List HistoryEntry := []
  /-- The kind of place, as it was when the reader got there. -/
  status : Status := .playing
deriving DecidableEq, Repr

/-- A reader's playthrough of a graph. -/
structure Player where
  /-- The graph. -/
  graph : Graph
  /-- The variables. -/
  store : VariableStore
  /-- The place. -/
  place : Place

namespace Player

/-- The current node. -/
def node? (player : Player) : Option Node := player.graph.node? player.place.nodeId

/-- Move to a node, with the choices that led there. -/
def moveTo (player : Player) (nodeId : String) (history : List HistoryEntry) : Player :=
  { player with place := { nodeId, history, status := Status.at? (player.graph.node? nodeId) } }

/-- Start a graph from its beginning, with every variable at its initial value. -/
def start (graph : Graph) (store : VariableStore) : Player :=
  { graph, store := store.reset, place := {} : Player }.moveTo graph.startPosition []

/-- Start again. -/
def restart (player : Player) : Player := start player.graph player.store

/-! ## Choices -/

/-- A choice with the answer whether it can be taken now. -/
def annotate (player : Player) (choice : Choice) : AvailableChoice :=
  { choice with available := player.store.satisfies choice.condition }

/-- The choices of the current node. -/
def choices (player : Player) : List AvailableChoice :=
  match player.node? with
  | some node => node.choices.map player.annotate
  | none => []

/-- The entry that records a choice taken at a time. -/
def entry (player : Player) (time : Int) (choice : Choice) : HistoryEntry where
  nodeId := player.place.nodeId
  text := match player.node? with
    | some node => node.text
    | none => ""
  choice := choice.text
  timestamp := time

/-- Carry out the operations of a choice. -/
def operate (player : Player) (choice : Choice) : Player :=
  { player with store := choice.operations.foldl VariableStore.perform player.store }

/-- Take a choice: carry out its operations, record it, and go where it leads. -/
def execute (player : Player) (time : Int) (choice : Choice) : Player :=
  let nodeId := if choice.nextNode.isEmpty then player.place.nodeId else choice.nextNode
  (player.operate choice).moveTo nodeId (player.place.history ++ [player.entry time choice])

/-- Go back to the place where a choice was taken; that choice and all later ones are forgotten.
The variables stay. -/
def jump? (player : Player) (index : Int) : Option Player :=
  match index with
  | .ofNat n =>
    (player.place.history[n]?).map fun entry =>
      player.moveTo entry.nodeId (player.place.history.take n)
  | .negSucc _ => none

/-! ## Saved positions -/

/-- The position as it is saved at a time. -/
def position (player : Player) (time : Int) : SaveSlot where
  currentNodeId := player.place.nodeId
  values := player.store.snapshot
  history := player.place.history
  timestamp := time

/-- Go to a saved position. -/
def resume (player : Player) (position : SaveSlot) : Player :=
  { player with store := player.store.restore position.values }.moveTo position.currentNodeId
    position.history

/-- What the reader sees. -/
def view (player : Player) : PlaybackView where
  currentNodeId := player.place.nodeId
  status := player.place.status
  node := player.node?
  choices := player.choices
  values := player.store.snapshot
  historyLength := player.place.history.length

end Player

end Narrative
