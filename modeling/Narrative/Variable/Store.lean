import Narrative.Table
import Narrative.Variable.Rule
import Narrative.Playback.Record

/-!
# Variable stores

The current values of a story's variables, next to their definitions.  Reading an undefined
variable gives zero and writing one does nothing, so a story that refers to a missing variable can
still be played.
-/

namespace Narrative

/-- The values of one category, in the order in which they were first written. -/
abbrev Values := Table String Float

/-- The definitions and the current values of a story's variables. -/
structure VariableStore where
  /-- The definitions in force. -/
  definitions : Definitions := .empty
  /-- The current values. -/
  values : Categorized Values := .ofFn fun _ => .empty

namespace VariableStore

/-! ## Reading and writing -/

/-- The value of a variable; zero when it has none. -/
def get (store : VariableStore) (category : Category) (id : String) : Float :=
  ((store.values.get category).get? id).getD 0.0

/-- The definition of a variable. -/
def definition? (store : VariableStore) (category : Category) (id : String) :
    Option VariableDefinition :=
  store.definitions.find category id

/-- Write a value as it is. -/
def write (store : VariableStore) (category : Category) (id : String) (value : Float) :
    VariableStore :=
  { store with
    values := store.values.set category ((store.values.get category).insert id value) }

/-- Set a variable within its bounds; an undefined variable is left alone. -/
def set (store : VariableStore) (category : Category) (id : String) (value : Float) :
    VariableStore :=
  match store.definition? category id with
  | some definition => store.write category id (definition.clamp value)
  | none => store

/-- Change a variable. -/
def modify (store : VariableStore) (category : Category) (id : String) (kind : OperationKind)
    (operand : Float) : VariableStore :=
  store.set category id (kind.apply (store.get category id) operand)

/-- Carry out an operation of a choice. -/
def perform (store : VariableStore) (operation : VariableOperation) : VariableStore :=
  store.modify operation.category operation.target operation.kind operation.value

/-- Whether a condition holds; a disabled one does not count. -/
def satisfies (store : VariableStore) (condition : Condition) : Bool :=
  !condition.enabled ||
    condition.comparison.holds (store.get condition.category condition.target) condition.value

/-! ## Definitions -/

/-- A store for a set of definitions, every variable at its initial value. -/
def ofDefinitions (definitions : Definitions) : VariableStore where
  definitions := definitions
  values := .ofFn fun category =>
    Table.ofList
      ((definitions.get category).map fun definition => (definition.id, definition.initial))

/-- Every variable back at its initial value. -/
def reset (store : VariableStore) : VariableStore := ofDefinitions store.definitions

/-- Bring the value that a definition bounds into its bounds, if there is one. -/
def clampEntry (values : Values) (definition : VariableDefinition) : Values :=
  match values.get? definition.id with
  | some value => values.insert definition.id (definition.clamp value)
  | none => values

/-- Put other definitions in force; the values stay, within their new bounds. -/
def withDefinitions (store : VariableStore) (definitions : Definitions) : VariableStore where
  definitions := definitions
  values := .ofFn fun category =>
    (definitions.get category).foldl clampEntry (store.values.get category)

/-! ## Snapshots -/

/-- The current values as a document holds them. -/
def snapshot (store : VariableStore) : ValueTable :=
  Table.ofList store.values.toList

/-- Take all values from a document; what it does not mention has no value. -/
def restore (store : VariableStore) (values : ValueTable) : VariableStore :=
  { store with values := .ofFn fun category => (values.get? category).getD .empty }

end VariableStore

end Narrative
