import Narrative.Proofs.Decimal.Order
import Narrative.Proofs.Table
import Narrative.Variable.Store

/-!
# Bounds

Where the bounds of a definition are finite, bringing a value into them gives a finite number,
whatever the value was, and where they are in order the result lies between them.  A store whose
definitions have finite numbers therefore never gets a value that is not finite, whatever the
operations of a choice compute.
-/

namespace Narrative

open Decimal (isFinite)

namespace VariableDefinition

/-- The numbers of the definition are finite. -/
structure Finite (definition : VariableDefinition) : Prop where
  initial : isFinite definition.initial
  min : isFinite definition.min
  max : isFinite definition.max

/-- The numbers are finite and in order. -/
structure Proper (definition : VariableDefinition) : Prop extends Finite definition where
  min_le_initial : definition.min ≤ definition.initial
  initial_le_max : definition.initial ≤ definition.max

/-- The value lies within the bounds. -/
def Admits (definition : VariableDefinition) (value : Float) : Prop :=
  definition.min ≤ value ∧ value ≤ definition.max

theorem Proper.min_le_max {definition : VariableDefinition} (h : definition.Proper) :
    definition.min ≤ definition.max :=
  Decimal.le_trans h.min_le_initial h.initial_le_max

/-- A value in its bounds is one of the bounds, or lies strictly between them and is unchanged. -/
theorem clamp_cases (definition : VariableDefinition) (value : Float) :
    definition.clamp value = definition.min ∨ definition.clamp value = definition.max ∨
      definition.clamp value = value ∧ definition.min < value ∧ value < definition.max := by
  unfold clamp greater lesser
  by_cases hhigh : value < definition.max
  · rw [if_pos hhigh]
    by_cases hlow : definition.min < value
    · rw [if_pos hlow]
      exact Or.inr (Or.inr ⟨rfl, hlow, hhigh⟩)
    · rw [if_neg hlow]
      exact Or.inl rfl
  · rw [if_neg hhigh]
    by_cases hlow : definition.min < definition.max
    · rw [if_pos hlow]
      exact Or.inr (Or.inl rfl)
    · rw [if_neg hlow]
      exact Or.inl rfl

theorem Finite.clamp {definition : VariableDefinition} (h : definition.Finite) (value : Float) :
    isFinite (definition.clamp value) := by
  rcases definition.clamp_cases value with e | e | ⟨e, hlow, hhigh⟩
  · rw [e]
    exact h.min
  · rw [e]
    exact h.max
  · rw [e]
    exact Decimal.isFinite_of_between h.min h.max hlow hhigh

theorem Proper.admits_initial {definition : VariableDefinition} (h : definition.Proper) :
    definition.Admits definition.initial := ⟨h.min_le_initial, h.initial_le_max⟩

/-- Bounds in order are enough: an undefined value loses its comparison with the upper bound, and
what is compared with the lower one is that bound. -/
theorem admits_clamp {definition : VariableDefinition} (h : definition.min ≤ definition.max)
    (value : Float) : definition.Admits (definition.clamp value) := by
  obtain ⟨hmin, hmax⟩ := Decimal.defined_of_le h
  rcases definition.clamp_cases value with e | e | ⟨e, hlow, hhigh⟩
  · rw [Admits, e]
    exact ⟨Decimal.le_refl hmin, h⟩
  · rw [Admits, e]
    exact ⟨h, Decimal.le_refl hmax⟩
  · rw [Admits, e]
    exact ⟨Decimal.le_of_lt hlow, Decimal.le_of_lt hhigh⟩

theorem Proper.admits_clamp {definition : VariableDefinition} (h : definition.Proper)
    (value : Float) : definition.Admits (definition.clamp value) :=
  VariableDefinition.admits_clamp h.min_le_max value

/-- A value within bounds is a number. -/
theorem Admits.defined {definition : VariableDefinition} {value : Float}
    (h : definition.Admits value) : Decimal.isNotANumber value = false :=
  (Decimal.defined_of_le h.1).2

/-- A value within bounds keeps its number: at a bound, the bound takes its place, which may be a
zero of the other sign. -/
theorem Admits.clamp_beq {definition : VariableDefinition} {value : Float}
    (h : definition.Admits value) : definition.clamp value == value := by
  obtain ⟨hmin, hvalue⟩ := Decimal.defined_of_le h.1
  obtain ⟨-, hmax⟩ := Decimal.defined_of_le h.2
  have hcrossed : lesser definition.max value == value := by
    unfold lesser
    split
    case isTrue => exact (Decimal.beq_iff_le ..).2 ⟨Decimal.le_refl hvalue, Decimal.le_refl hvalue⟩
    case isFalse hhigh =>
      exact (Decimal.beq_iff_le ..).2 ⟨Decimal.le_of_not_lt hvalue hmax hhigh, h.2⟩
  unfold clamp greater
  split
  case isTrue => exact hcrossed
  case isFalse hlow =>
    obtain ⟨hle, hge⟩ := (Decimal.beq_iff_le ..).1 hcrossed
    have hlesser := (Decimal.defined_of_le hle).1
    exact (Decimal.beq_iff_le ..).2
      ⟨h.1, Decimal.le_trans hge (Decimal.le_of_not_lt hmin hlesser hlow)⟩

end VariableDefinition

/-- Every definition has finite numbers. -/
def Definitions.Finite (definitions : Definitions) : Prop :=
  ∀ category, ∀ definition ∈ definitions.get category, definition.Finite

theorem Definitions.Finite.find {definitions : Definitions} (h : definitions.Finite)
    {category : Category} {id : String} {definition : VariableDefinition}
    (hfind : definitions.find category id = some definition) : definition.Finite :=
  h category definition (List.mem_of_find?_eq_some hfind)

/-! ## Stores -/

namespace VariableStore

/-- The numbers of the definitions and all values are finite. -/
structure Finite (store : VariableStore) : Prop where
  definitions : store.definitions.Finite
  values : ∀ category, (store.values.get category).All fun value => isFinite value

theorem Finite.write {store : VariableStore} (h : store.Finite) (category : Category) (id : String)
    {value : Float} (hvalue : isFinite value) : (store.write category id value).Finite where
  definitions := h.definitions
  values := by
    intro other
    change ((store.values.set category _).get other).All _
    rw [Categorized.get_set]
    split
    · exact (h.values category).insert id hvalue
    · exact h.values other

theorem Finite.set {store : VariableStore} (h : store.Finite) (category : Category) (id : String)
    (value : Float) : (store.set category id value).Finite := by
  unfold VariableStore.set
  split
  case h_1 definition hdefinition =>
    exact h.write category id ((h.definitions.find hdefinition).clamp value)
  case h_2 => exact h

theorem definitions_perform (store : VariableStore) (operation : VariableOperation) :
    (store.perform operation).definitions = store.definitions := by
  unfold perform modify set
  split <;> rfl

/-- No operation changes the definitions. -/
theorem definitions_foldl_perform (operations : List VariableOperation) (store : VariableStore) :
    (operations.foldl perform store).definitions = store.definitions := by
  induction operations generalizing store with
  | nil => rfl
  | cons operation rest ih => rw [List.foldl_cons, ih, definitions_perform]

/-- The operations of a choice keep all values finite, whatever they compute. -/
theorem Finite.foldl_perform {store : VariableStore} (h : store.Finite)
    (operations : List VariableOperation) : (operations.foldl perform store).Finite := by
  induction operations generalizing store with
  | nil => exact h
  | cons operation rest ih => exact ih (h.set _ _ _)

theorem values_ofDefinitions (definitions : Definitions) (category : Category) :
    (ofDefinitions definitions).values.get category = Table.ofList
      ((definitions.get category).map fun definition => (definition.id, definition.initial)) :=
  Categorized.get_ofFn _ category

theorem values_withDefinitions (store : VariableStore) (definitions : Definitions)
    (category : Category) :
    (store.withDefinitions definitions).values.get category =
      (definitions.get category).foldl clampEntry (store.values.get category) :=
  Categorized.get_ofFn _ category

theorem finite_ofDefinitions {definitions : Definitions} (h : definitions.Finite) :
    (ofDefinitions definitions).Finite where
  definitions := h
  values := by
    intro category
    rw [values_ofDefinitions]
    apply Table.all_ofList
    intro entry hentry
    obtain ⟨definition, hdefinition, rfl⟩ := List.mem_map.1 hentry
    exact (h category definition hdefinition).initial

theorem finite_withDefinitions {store : VariableStore}
    (hvalues : ∀ category, (store.values.get category).All fun value => isFinite value)
    {definitions : Definitions} (h : definitions.Finite) :
    (store.withDefinitions definitions).Finite where
  definitions := h
  values := by
    intro category
    rw [values_withDefinitions]
    have hfold (group : List VariableDefinition) (hgroup : ∀ definition ∈ group, definition.Finite)
        (values : Values) (hvalues : values.All fun value => isFinite value) :
        (group.foldl clampEntry values).All fun value => isFinite value := by
      induction group generalizing values with
      | nil => exact hvalues
      | cons definition rest ih =>
        rw [List.forall_mem_cons] at hgroup
        apply ih hgroup.2
        unfold clampEntry
        split
        · exact hvalues.insert _ (hgroup.1.clamp _)
        · exact hvalues
    exact hfold _ (h category) _ (hvalues category)

/-! ## Snapshots -/

theorem entries_snapshot (store : VariableStore) :
    store.snapshot.entries = store.values.toList := by
  apply Table.entries_ofList
  change (Category.all.map fun category => category).Nodup
  decide

theorem get?_snapshot (store : VariableStore) (category : Category) :
    store.snapshot.get? category = some (store.values.get category) := by
  rw [Table.get?, entries_snapshot]
  cases category <;> rfl

theorem values_restore (store : VariableStore) (values : ValueTable) (category : Category) :
    (store.restore values).values.get category = (values.get? category).getD .empty :=
  Categorized.get_ofFn _ category

/-- Restoring a snapshot gives the values of the store from which it was taken. -/
theorem restore_snapshot (store other : VariableStore) :
    store.restore other.snapshot = { store with values := other.values } := by
  have hvalues : (store.restore other.snapshot).values = other.values := by
    apply Categorized.ext_get
    intro category
    rw [values_restore, get?_snapshot, Option.getD_some]
  rw [← hvalues]
  rfl

end VariableStore

end Narrative
