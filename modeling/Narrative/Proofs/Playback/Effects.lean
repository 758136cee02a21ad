import Narrative.Proofs.Variable.Bounds
import Narrative.Session.Basic
import Narrative.Variable.Named

/-!
# Effects of choices

The operations of a choice reach the defined variables that they target and nothing else, and the
new value of a variable depends on its own old value and on its own operations only.  Whatever they
compute, overflow and undefined results included, the value that is left lies within its bounds, as
long as these are in order: every result is clamped, and the next operation reads what was clamped.
-/

namespace Narrative

variable {category : Category} {id : String}

/-- The operation is meant for the variable. -/
def VariableOperation.Targets (operation : VariableOperation) (category : Category)
    (id : String) : Prop :=
  operation.category = category ∧ operation.target = id

instance (operation : VariableOperation) (category : Category) (id : String) :
    Decidable (operation.Targets category id) :=
  inferInstanceAs (Decidable (_ ∧ _))

/-- One of the operations of the choice is meant for the variable. -/
def Choice.Targets (choice : Choice) (category : Category) (id : String) : Prop :=
  ∃ operation ∈ choice.operations, operation.Targets category id

/-- The value of a variable after an operation on it. -/
def VariableDefinition.operate (definition : VariableDefinition) (current : Float)
    (operation : VariableOperation) : Float :=
  definition.clamp (operation.kind.apply current operation.value)

/-- Some operations leave a value within bounds that are in order, if there is any of them. -/
theorem VariableDefinition.admits_foldl_operate {definition : VariableDefinition}
    (h : definition.min ≤ definition.max) (current : Float) {operations : List VariableOperation}
    (hne : operations ≠ []) : definition.Admits (operations.foldl definition.operate current) := by
  obtain ⟨before, last, rfl⟩ := (List.eq_nil_or_concat' operations).resolve_left hne
  rw [List.foldl_append, List.foldl_cons, List.foldl_nil]
  exact definition.admits_clamp h _

namespace VariableStore

/-! ## One operation -/

theorem get?_values_write (store : VariableStore) (written : Category) (name : String)
    (value : Float) :
    ((store.write written name value).values.get category).get? id =
      if written = category ∧ name = id then some value
      else (store.values.get category).get? id := by
  change ((store.values.set written _).get category).get? id = _
  rw [Categorized.get_set]
  by_cases hcategory : written = category
  · subst hcategory
    simp only [if_true, Table.get?_insert, true_and]
  · rw [if_neg hcategory, if_neg fun h => hcategory h.1]

/-- An operation on a defined variable leaves the clamped result there. -/
theorem get?_perform_of_targets {store : VariableStore} {operation : VariableOperation}
    {definition : VariableDefinition} (htargets : operation.Targets category id)
    (hdefined : store.definition? category id = some definition) :
    ((store.perform operation).values.get category).get? id =
      some (definition.operate (store.get category id) operation) := by
  obtain ⟨rfl, rfl⟩ := htargets
  rw [perform, modify, VariableStore.set, hdefined]
  simp only
  rw [get?_values_write, if_pos ⟨rfl, rfl⟩]
  rfl

/-- An operation leaves alone what it does not target, and what is not defined. -/
theorem get?_perform_of_unreached {store : VariableStore} {operation : VariableOperation}
    (h : operation.Targets category id → store.definition? category id = none) :
    ((store.perform operation).values.get category).get? id =
      (store.values.get category).get? id := by
  unfold perform modify VariableStore.set
  split
  case h_2 => rfl
  case h_1 definition hdefined =>
    rw [get?_values_write, if_neg]
    rintro ⟨rfl, rfl⟩
    rw [h ⟨rfl, rfl⟩] at hdefined
    exact absurd hdefined (by simp)

/-! ## All operations of a choice -/

theorem definition?_perform (store : VariableStore) (operation : VariableOperation) :
    (store.perform operation).definition? category id = store.definition? category id := by
  rw [definition?, definition?, definitions_perform]

/-- The operations on a defined variable, and no others, make its new value, each from what the one
before it left. -/
theorem get?_foldl_perform (store : VariableStore) {definition : VariableDefinition}
    (hdefined : store.definition? category id = some definition)
    (operations : List VariableOperation) :
    ((operations.foldl perform store).values.get category).get? id =
      if operations.filter (·.Targets category id) = [] then (store.values.get category).get? id
      else some ((operations.filter (·.Targets category id)).foldl definition.operate
        (store.get category id)) := by
  induction operations generalizing store with
  | nil => rfl
  | cons operation rest ih =>
    rw [List.foldl_cons, ih _ (by rwa [definition?_perform])]
    by_cases htargets : operation.Targets category id
    · have hentry := get?_perform_of_targets htargets hdefined
      have hget : (store.perform operation).get category id =
          definition.operate (store.get category id) operation := by
        rw [VariableStore.get, hentry, Option.getD_some]
      rw [List.filter_cons_of_pos (by simpa using htargets), if_neg (List.cons_ne_nil _ _),
        List.foldl_cons, hget, hentry]
      split
      · rename_i hrest
        rw [hrest, List.foldl_nil]
      · rfl
    · have hentry : ((store.perform operation).values.get category).get? id = _ :=
        get?_perform_of_unreached fun h => absurd h htargets
      have hget : (store.perform operation).get category id = store.get category id := by
        rw [VariableStore.get, VariableStore.get, hentry]
      rw [List.filter_cons_of_neg (by simpa using htargets), hget, hentry]

/-- What no operation reaches stays as it is, with or without a value. -/
theorem get?_foldl_perform_of_unreached {store : VariableStore}
    {operations : List VariableOperation}
    (h : ∀ operation ∈ operations, operation.Targets category id →
      store.definition? category id = none) :
    ((operations.foldl perform store).values.get category).get? id =
      (store.values.get category).get? id := by
  induction operations generalizing store with
  | nil => rfl
  | cons operation rest ih =>
    rw [List.forall_mem_cons] at h
    rw [List.foldl_cons, ih, get?_perform_of_unreached h.1]
    simpa only [definition?_perform] using h.2

/-- An operation whose category and kind are given by the names of a category and a kind is carried
out. -/
theorem modifyNamed_eq_perform (store : VariableStore) (operation : VariableOperation) :
    store.modifyNamed operation.category.name operation.target operation.kind.name
      operation.value = .ok (store.perform operation) := by
  simp only [modifyNamed, setNamed, getNamed, OperationKind.ofName?_name, Category.ofName?_name]
  rfl

end VariableStore

/-- What taking a choice does to the variables. -/
structure Choice.Affects (choice : Choice) (before after : VariableStore) : Prop where
  /-- The definitions stay. -/
  definitions : after.definitions = before.definitions
  /-- A defined variable that is targeted has a value within bounds that are in order. -/
  bounded : ∀ category id definition, before.definition? category id = some definition →
    definition.min ≤ definition.max → choice.Targets category id →
    ∃ value, (after.values.get category).get? id = some value ∧
      Decimal.isNotANumber value = false ∧ definition.Admits value
  /-- The value is made from the old one by the operations on the variable alone. -/
  computed : ∀ category id definition, before.definition? category id = some definition →
    choice.Targets category id →
    after.get category id = (choice.operations.filter (·.Targets category id)).foldl
      definition.operate (before.get category id)
  /-- What is not targeted or not defined keeps its value, or stays without one. -/
  kept : ∀ category id, (¬choice.Targets category id ∨ before.definition? category id = none) →
    (after.values.get category).get? id = (before.values.get category).get? id

theorem Choice.affects_foldl_perform (choice : Choice) (store : VariableStore) :
    choice.Affects store (choice.operations.foldl VariableStore.perform store) := by
  have hentry (category : Category) (id : String) (definition : VariableDefinition)
      (hdefined : store.definition? category id = some definition)
      (htargets : choice.Targets category id) :
      choice.operations.filter (·.Targets category id) ≠ [] ∧
        ((choice.operations.foldl VariableStore.perform store).values.get category).get? id =
          some ((choice.operations.filter (·.Targets category id)).foldl definition.operate
            (store.get category id)) := by
    obtain ⟨operation, hmem, htarget⟩ := htargets
    have hne : choice.operations.filter (·.Targets category id) ≠ [] :=
      List.ne_nil_of_mem (List.mem_filter.2 ⟨hmem, by simpa using htarget⟩)
    rw [VariableStore.get?_foldl_perform store hdefined, if_neg hne]
    exact ⟨hne, rfl⟩
  constructor
  case definitions => exact VariableStore.definitions_foldl_perform _ _
  case bounded =>
    intro category id definition hdefined hordered htargets
    obtain ⟨hne, hvalue⟩ := hentry category id definition hdefined htargets
    have hadmits := definition.admits_foldl_operate hordered (store.get category id) hne
    exact ⟨_, hvalue, hadmits.defined, hadmits⟩
  case computed =>
    intro category id definition hdefined htargets
    obtain ⟨-, hvalue⟩ := hentry category id definition hdefined htargets
    rw [VariableStore.get, hvalue, Option.getD_some]
  case kept =>
    intro category id hunreached
    apply VariableStore.get?_foldl_perform_of_unreached
    intro operation hmem htarget
    exact hunreached.resolve_left fun huntargeted => huntargeted ⟨operation, hmem, htarget⟩

/-- Taking a choice reaches the defined variables that it targets and leaves them within their
bounds, whatever its operations compute.  It fails only if the clock cannot tell the time; no
operation does. -/
theorem Session.affects_execute (session : Session) (now : Instant) (choice : Choice) :
    choice.Affects session.store (session.execute now choice).2.store ∧
      (session.execute now choice).1 = now.millis.map (fun _ => ()) ∧
      ∀ store : VariableStore, ∀ operation ∈ choice.operations,
        store.modifyNamed operation.category.name operation.target operation.kind.name
          operation.value = .ok (store.perform operation) := by
  have hstore : (session.execute now choice).2.store =
      choice.operations.foldl VariableStore.perform session.store := by
    unfold Session.execute
    cases now.millis <;> rfl
  refine ⟨?_, ?_, fun store operation _ => store.modifyNamed_eq_perform operation⟩
  · rw [hstore]
    exact choice.affects_foldl_perform session.store
  · unfold Session.execute
    cases now.millis <;> rfl

/-- A division of an infinite value by infinity is undefined and leaves the upper bound. -/
example : (VariableDefinition.mk "x" "" 0.0 0.0 1.0).operate (Decimal.infinite false)
    ⟨.physiological, "x", .divide, Decimal.infinite false⟩ = 1.0 := by
  decide +kernel

end Narrative
