import Narrative.Variable.Store
import Narrative.Failure

/-!
# Access by name

Scripts and requests give categories, comparisons and kinds of operations by name.  A category that
does not exist holds no variables: reading it gives zero and writing it does nothing.
-/

namespace Narrative

/-- The definitions of a category given by name. -/
def Definitions.named (definitions : Definitions) (category : String) :
    Except Failure (List VariableDefinition) :=
  match Category.ofName? category with
  | some category => .ok (definitions.get category)
  | none => .error (.unknownCategory category)

/-- The first definition with an identifier in a category given by name. -/
def Definitions.findNamed (definitions : Definitions) (category id : String) :
    Except Failure (Option VariableDefinition) :=
  (definitions.named category).map fun group => group.find? fun definition => definition.id = id

/-- The category with a given name, which must be one. -/
def Category.named (name : String) : Except Failure Category :=
  match Category.ofName? name with
  | some category => .ok category
  | none => .error (.notCategory name)

/-- The status with a given name, which must be one. -/
def Status.named (name : String) : Except Failure Status :=
  match Status.ofName? name with
  | some status => .ok status
  | none => .error (.notStatus name)

namespace VariableStore

/-- The value of a variable of a category given by name. -/
def getNamed (store : VariableStore) (category id : String) : Float :=
  match Category.ofName? category with
  | some category => store.get category id
  | none => 0.0

/-- The definition of a variable of a category given by name. -/
def definitionNamed? (store : VariableStore) (category id : String) : Option VariableDefinition :=
  (Category.ofName? category).bind fun category => store.definition? category id

/-- The values of a category given by name. -/
def valuesNamed (store : VariableStore) (category : String) : Except Failure Values :=
  match Category.ofName? category with
  | some category => .ok (store.values.get category)
  | none => .error (.noValues category)

/-- Set a variable of a category given by name. -/
def setNamed (store : VariableStore) (category id : String) (value : Float) : VariableStore :=
  match Category.ofName? category with
  | some category => store.set category id value
  | none => store

/-- Change a variable of a category given by name, by an operation given by name. -/
def modifyNamed (store : VariableStore) (category id kind : String) (operand : Float) :
    Except Failure VariableStore :=
  match OperationKind.ofName? kind with
  | some kind =>
    .ok (store.setNamed category id (kind.apply (store.getNamed category id) operand))
  | none => .error (.notOperationKind kind)

/-- Whether a condition holds with its comparison given by name. -/
def satisfiesNamed (store : VariableStore) (condition : Condition) (comparison : String) :
    Except Failure Bool :=
  if condition.enabled then
    match Comparison.ofName? comparison with
    | some comparison => .ok (store.satisfies { condition with comparison })
    | none => .error (.unknownComparison comparison)
  else .ok true

end VariableStore

end Narrative
