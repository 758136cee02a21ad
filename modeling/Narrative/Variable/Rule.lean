import Narrative.Variable.Definition

/-!
# Conditions and operations

A condition compares a variable with a fixed value; an operation changes a variable.  Both refer to
variables by name only and need not refer to one that is defined.
-/

namespace Narrative

/-! ## Conditions -/

/-- How a variable is compared with a value. -/
inductive Comparison where
  | greater
  | greaterEqual
  | equal
  | lessEqual
  | less
  | notEqual
deriving DecidableEq, Repr

namespace Comparison

/-- All comparisons. -/
def all : List Comparison := [greater, greaterEqual, equal, lessEqual, less, notEqual]

/-- The name of a comparison in documents. -/
def name : Comparison → String
  | greater => "greater"
  | greaterEqual => "greaterEqual"
  | equal => "equal"
  | lessEqual => "lessEqual"
  | less => "less"
  | notEqual => "notEqual"

/-- The comparison with a given name. -/
def ofName? (name : String) : Option Comparison :=
  all.find? fun comparison => comparison.name = name

@[simp]
theorem ofName?_name (comparison : Comparison) : ofName? comparison.name = some comparison := by
  cases comparison <;> decide

/-- Whether a comparison holds between two numbers; with an undefined one only `notEqual` does. -/
def holds : Comparison → Float → Float → Bool
  | greater, x, y => y < x
  | greaterEqual, x, y => y ≤ x
  | equal, x, y => x == y
  | lessEqual, x, y => x ≤ y
  | less, x, y => x < y
  | notEqual, x, y => x != y

end Comparison

/-- A condition on one variable.  The other fields are kept while it is disabled, so that enabling
it again restores what the author had chosen. -/
structure Condition where
  /-- Whether the condition counts. -/
  enabled : Bool := false
  /-- The category of the variable. -/
  category : Category := .physiological
  /-- The variable. -/
  target : String := ""
  /-- The comparison. -/
  comparison : Comparison := .greater
  /-- The value the variable is compared with. -/
  value : Float := 0.0

/-! ## Operations -/

/-- How an operation changes a variable. -/
inductive OperationKind where
  | add
  | subtract
  | multiply
  | divide
  | set
deriving DecidableEq, Repr

namespace OperationKind

/-- All kinds of operations. -/
def all : List OperationKind := [add, subtract, multiply, divide, set]

/-- The name of a kind in documents. -/
def name : OperationKind → String
  | add => "add"
  | subtract => "subtract"
  | multiply => "multiply"
  | divide => "divide"
  | set => "set"

/-- The kind with a given name. -/
def ofName? (name : String) : Option OperationKind := all.find? fun kind => kind.name = name

@[simp]
theorem ofName?_name (kind : OperationKind) : ofName? kind.name = some kind := by
  cases kind <;> decide

/-- The new value for a current value and an operand; a division by zero leaves the value alone. -/
def apply : OperationKind → Float → Float → Float
  | add, current, operand => current + operand
  | subtract, current, operand => current - operand
  | multiply, current, operand => current * operand
  | divide, current, operand => if operand == 0 then current else current / operand
  | set, _, operand => operand

end OperationKind

/-- A change of one variable. -/
structure VariableOperation where
  /-- The category of the variable. -/
  category : Category := .physiological
  /-- The variable. -/
  target : String := ""
  /-- What is done to the variable. -/
  kind : OperationKind := .add
  /-- The operand. -/
  value : Float := 0.0

end Narrative
