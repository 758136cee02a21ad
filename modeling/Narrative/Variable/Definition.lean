import Narrative.Variable.Category

/-!
# Variable definitions

A definition names a variable and bounds its values.  The smaller and the greater of two numbers
are chosen by a strict comparison of the second with the first, which decides what happens to
undefined values and to zeros of different sign.
-/

namespace Narrative

/-! ## Bounds -/

/-- The second number if it is less than the first, and the first otherwise. -/
def lesser (x y : Float) : Float := if y < x then y else x

/-- The second number if it is greater than the first, and the first otherwise. -/
def greater (x y : Float) : Float := if x < y then y else x

/-- A variable with its initial value and its bounds. -/
structure VariableDefinition where
  /-- The identifier by which conditions and operations refer to the variable. -/
  id : String
  /-- The name shown to authors. -/
  name : String := ""
  /-- The value at the start of a playthrough. -/
  initial : Float := 0.0
  /-- The lower bound. -/
  min : Float := 0.0
  /-- The upper bound. -/
  max : Float := 100.0

/-- Bring a value into the bounds; where the bounds cross, the lower one wins. -/
def VariableDefinition.clamp (definition : VariableDefinition) (value : Float) : Float :=
  greater definition.min (lesser definition.max value)

/-! ## Sets of definitions -/

/-- The definitions of a story, by category and in order. -/
abbrev Definitions := Categorized (List VariableDefinition)

namespace Definitions

/-- No definitions. -/
def empty : Definitions := ⟨[], [], []⟩

/-- The first definition with the given identifier. -/
def find (definitions : Definitions) (category : Category) (id : String) :
    Option VariableDefinition :=
  (definitions.get category).find? fun definition => definition.id = id

/-- All definitions with their categories, in order. -/
def all (definitions : Definitions) : List (Category × VariableDefinition) :=
  definitions.toList.flatMap fun (category, group) => group.map (category, ·)

end Definitions

end Narrative
