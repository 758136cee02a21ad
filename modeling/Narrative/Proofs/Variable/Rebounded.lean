import Narrative.Proofs.Variable.Distinct

/-!
# Values under other definitions

A store meets other definitions in two ways.  Either the variables start over, and then the values
are the initial ones and no others; or they go on, and then every value stays where it is and is
brought into the bounds of its definition, if it has one.  In bounds that are in order every defined
value then lies within them, and a value that did so before has not changed, up to the sign of zero.

Both need identifiers that are distinct: of two definitions with the same one, the last would give
the initial value, and each would bound what the other has left.
-/

namespace Narrative

namespace VariableStore

variable {definitions : Definitions}

/-! ## Starting over -/

/-- The values are the initial ones, one for each definition, and there are no others. -/
def AtInitials (store : VariableStore) : Prop :=
  ∀ category, (store.values.get category).entries =
    (store.definitions.get category).map fun definition => (definition.id, definition.initial)

theorem atInitials_ofDefinitions (h : definitions.Distinct) :
    (ofDefinitions definitions).AtInitials := by
  intro category
  rw [values_ofDefinitions]
  apply Table.entries_ofList
  rw [List.map_map]
  exact h category

/-! ## Going on -/

/-- What becomes of the values when other definitions are put in force and the values stay. -/
structure Rebounded (before after : VariableStore) : Prop where
  /-- The same variables have values, in the same order. -/
  keys : ∀ category, (after.values.get category).keys = (before.values.get category).keys
  /-- The value of a defined variable is brought into its bounds. -/
  clamped : ∀ category, ∀ definition ∈ after.definitions.get category,
    (after.values.get category).get? definition.id =
      ((before.values.get category).get? definition.id).map definition.clamp
  /-- The value of any other variable stays. -/
  untouched : ∀ category id, after.definition? category id = none →
    (after.values.get category).get? id = (before.values.get category).get? id
  /-- Between bounds in order every defined value lies within them, whatever it was before. -/
  within : ∀ category, ∀ definition ∈ after.definitions.get category,
    definition.min ≤ definition.max →
    ∀ value ∈ (after.values.get category).get? definition.id, definition.Admits value
  /-- A value that lies within its bounds already is the same number afterwards. -/
  same : ∀ category, ∀ definition ∈ after.definitions.get category,
    ∀ value ∈ (before.values.get category).get? definition.id, definition.Admits value →
    ∃ new ∈ (after.values.get category).get? definition.id, new == value

theorem keys_clampEntry (values : Values) (definition : VariableDefinition) :
    (clampEntry values definition).keys = values.keys := by
  unfold clampEntry
  split
  case h_1 value hvalue =>
    have hmem : definition.id ∈ values.keys :=
      Table.contains_iff_mem_keys.1 (Option.isSome_of_eq_some hvalue)
    rw [Table.keys_insert, if_pos hmem]
  case h_2 => rfl

theorem keys_foldl_clampEntry (group : List VariableDefinition) (values : Values) :
    (group.foldl clampEntry values).keys = values.keys := by
  induction group generalizing values with
  | nil => rfl
  | cons definition rest ih =>
    calc
      (rest.foldl clampEntry (clampEntry values definition)).keys =
          (clampEntry values definition).keys := ih _
      _ = values.keys := keys_clampEntry values definition

theorem get?_withDefinitions (store : VariableStore) (h : definitions.Distinct)
    {category : Category} {definition : VariableDefinition}
    (hdefinition : definition ∈ definitions.get category) :
    ((store.withDefinitions definitions).values.get category).get? definition.id =
      ((store.values.get category).get? definition.id).map definition.clamp := by
  rw [values_withDefinitions]
  exact get?_foldl_clampEntry (h category) _ hdefinition

theorem rebounded_withDefinitions (store : VariableStore) (h : definitions.Distinct) :
    store.Rebounded (store.withDefinitions definitions) where
  keys := by
    intro category
    rw [values_withDefinitions]
    exact keys_foldl_clampEntry _ _
  clamped := by
    intro category definition hdefinition
    exact store.get?_withDefinitions h hdefinition
  untouched := by
    intro category id hnone
    rw [values_withDefinitions]
    exact get?_foldl_clampEntry_of_notMem (Definitions.find_eq_none.1 hnone) _
  within := by
    intro category definition hdefinition horder value hvalue
    rw [store.get?_withDefinitions h hdefinition] at hvalue
    obtain ⟨old, -, rfl⟩ := Option.map_eq_some_iff.1 hvalue
    exact VariableDefinition.admits_clamp horder old
  same := by
    intro category definition hdefinition value hvalue hadmits
    refine ⟨definition.clamp value, ?_, hadmits.clamp_beq⟩
    rw [store.get?_withDefinitions h hdefinition]
    exact Option.map_eq_some_iff.2 ⟨value, hvalue, rfl⟩

end VariableStore

end Narrative
