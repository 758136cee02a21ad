import Narrative.Story.Graph

/-!
# Default content

What a new story, node, choice, operation and variable start out as.
-/

namespace Narrative

/-- A definition between zero and one hundred. -/
def VariableDefinition.percentage (id name : String) (initial : Float) : VariableDefinition :=
  { id, name, initial, min := 0.0, max := 100.0 }

/-- The variables of a new story. -/
def Definitions.default : Definitions where
  physiological :=
    [.percentage "health" "Health" 100.0, .percentage "energy" "Energy" 100.0,
      .percentage "hunger" "Hunger" 0.0]
  emotional :=
    [.percentage "affection" "Affection" 50.0, .percentage "trust" "Trust" 50.0,
      .percentage "shame" "Shame" 0.0]
  difficulty :=
    [.percentage "sanity" "Sanity" 100.0, .percentage "sensitivity" "Sensitivity" 0.0,
      .percentage "stress" "Stress" 0.0]

/-- The first node of a new story. -/
def Node.welcome : Node where
  id := startNodeId
  title := "Start"
  text := "Welcome to your interactive story!\n\n" ++
    "This is where the story begins. Switch to the editor to change this text, " ++
    "add choices, and start writing."
  choices := [{ text := "Continue" }]

/-- The graph of a new story. -/
def Graph.default : Graph := { nodes := Table.empty.insert startNodeId Node.welcome }

/-- A node with placeholder text. -/
def Node.placeholder (id : String) : Node :=
  { id, title := "New node", text := "Enter the story text here..." }

/-- A choice with placeholder text. -/
def Choice.placeholder : Choice := { text := "New choice" }

/-- An operation that adds zero to no variable. -/
def VariableOperation.placeholder : VariableOperation := {}

/-- A new variable in the middle of its bounds. -/
def VariableDefinition.placeholder (id name : String) : VariableDefinition :=
  .percentage id name 50.0

end Narrative
