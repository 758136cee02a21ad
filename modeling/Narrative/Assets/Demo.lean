import Narrative.Json.Basic

/-!
# The demo story

The story that comes with the library, as the document from which it is imported.
-/

namespace Narrative.Demo

/-- A condition that does not count. -/
def always : Json := .obj [("enabled", .bool false)]

/-- The condition that a bodily variable is above a value. -/
def above (target : String) (value : Int) : Json :=
  .obj [("enabled", .bool true), ("category", .str "physiological"), ("variable", .str target),
    ("operator", .str "greater"), ("value", .int value)]

/-- An operation. -/
def operation (category target kind : String) (value : Int) : Json :=
  .obj [("category", .str category), ("variable", .str target), ("operation", .str kind),
    ("value", .int value)]

/-- A choice. -/
def choice (text nextNode : String) (condition : Json) (operations : List Json) : Json :=
  .obj [("text", .str text), ("nextNode", .str nextNode), ("condition", condition),
    ("variableOperations", .arr operations)]

/-- A node under its identifier. -/
def node (id title text : String) (choices : List Json) : Label × Json :=
  (id, .obj [("id", .str id), ("title", .str title), ("text", .str text),
    ("choices", .arr choices)])

/-- The nodes of the demo story. -/
def nodes : Json.Fields :=
  [node "start" "The Mysterious Forest"
      ("You wake up in a forest you do not recognise.\n\nSunlight filters through the leaves " ++
        "and you can hear running water somewhere in the distance. You feel hungry and " ++
        "tired.\n\nYou decide to...")
      [choice "Look for water (costs energy)" "find_water" (above "energy" 20)
          [operation "physiological" "energy" "subtract" 15],
        choice "Rest here and recover" "rest" always
          [operation "physiological" "energy" "add" 20,
            operation "physiological" "hunger" "add" 10]],
    node "find_water" "A Stream"
      ("You follow the sound of water and find a clear stream.\n\nAfter a drink you feel " ++
        "much better. There are edible berries along the bank.")
      [choice "Gather berries" "eat_fruit" always
          [operation "physiological" "hunger" "subtract" 30,
            operation "physiological" "health" "add" 10],
        choice "Keep exploring" "explore" always
          [operation "difficulty" "stress" "add" 5]],
    node "rest" "A Short Rest"
      ("You lean against a large tree and rest for a while.\n\nYou have some strength back, " ++
        "but the hunger is worse. You need to find food.")
      [choice "Look for food" "find_water" always []],
    node "eat_fruit" "A Good Meal"
      ("The berries taste better than expected. With a full stomach you feel " ++
        "refreshed.\n\nNow you need to decide what to do next.")
      [choice "Look for a way out" "explore" always
          [operation "difficulty" "sanity" "add" 10],
        choice "Build a shelter" "build_shelter" (above "energy" 40)
          [operation "physiological" "energy" "subtract" 30]],
    node "explore" "Deeper In"
      ("You head deeper into the forest.\n\nAfter a long walk you notice some strange " ++
        "tracks...\n\n(The demo story ends here.)")
      [choice "Start over" "start" always []],
    node "build_shelter" "A Shelter"
      ("You put together a rough shelter from branches and leaves.\n\nIt is crude, but it " ++
        "keeps the wind and rain off. You feel a little safer.\n\n(The demo story ends here.)")
      [choice "Start over" "start" always []]]

/-- The demo story. -/
def story : Json.Fields :=
  [("nodes", .obj nodes), ("startNode", .str "start"), ("version", .str "1.0")]

end Narrative.Demo
