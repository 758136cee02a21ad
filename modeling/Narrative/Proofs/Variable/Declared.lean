import Narrative.Proofs.Variable.Within
import Narrative.Proofs.Wire.Documents

/-!
# Undefined variables

As long as only defined variables have values, a variable that is not defined reads as zero and is
not shown.  Starting over, writing, and other bounds for the same variables keep it that way.
Restored values are taken as they are, so it depends on them what an undefined variable reads as.
-/

namespace Narrative

namespace Definitions

/-- Every variable of the table is defined. -/
def Declare (definitions : Definitions) (values : ValueTable) : Prop :=
  ∀ category id, definitions.find category id = none →
    ∀ group, values.get? category = some group → group.get? id = none

theorem find_eq_none {definitions : Definitions} {category : Category} {id : String} :
    definitions.find category id = none ↔
      id ∉ (definitions.get category).map VariableDefinition.id := by
  simp [find]

/-- Definitions with the same identifiers define the same variables. -/
theorem find_eq_none_congr {definitions other : Definitions} {category : Category} {id : String}
    (h : (other.get category).map VariableDefinition.id =
      (definitions.get category).map VariableDefinition.id) :
    other.find category id = none ↔ definitions.find category id = none := by
  rw [find_eq_none, find_eq_none, h]

theorem find_kept {definitions : Definitions} {category : Category} {id : String} :
    definitions.kept.find category id = none ↔ definitions.find category id = none := by
  apply find_eq_none_congr
  rw [kept, Categorized.get_ofFn, List.map_map]
  rfl

theorem declare_kept {definitions : Definitions} {values : ValueTable} :
    definitions.kept.Declare values ↔ definitions.Declare values := by
  unfold Declare
  simp only [find_kept]

end Definitions

/-! ## Stores -/

namespace VariableStore

variable {store : VariableStore}

/-- Only defined variables have values. -/
def Declared (store : VariableStore) : Prop :=
  ∀ category id, store.definition? category id = none →
    (store.values.get category).get? id = none

theorem declared_ofDefinitions (definitions : Definitions) :
    (ofDefinitions definitions).Declared := by
  intro category id hnone
  rw [definition?, Definitions.find_eq_none] at hnone
  rw [values_ofDefinitions]
  apply Table.findEntry_eq_none.2
  intro hmem
  have hid := Table.mem_keys_ofList.1 hmem
  rw [List.map_map] at hid
  exact hnone hid

theorem Declared.set (h : store.Declared) (category : Category) (id : String) (value : Float) :
    (store.set category id value).Declared := by
  unfold VariableStore.set
  split
  case h_2 => exact h
  case h_1 definition hdefinition =>
    intro other name hnone
    change ((store.values.set category _).get other).get? name = none
    change store.definition? other name = none at hnone
    rw [Categorized.get_set]
    by_cases hcategory : category = other
    · subst hcategory
      rw [if_pos rfl, Table.get?_insert, if_neg]
      · exact h category name hnone
      · rintro rfl
        rw [hdefinition] at hnone
        exact absurd hnone (by simp)
    · rw [if_neg hcategory]
      exact h other name hnone

/-- The operations of a choice give no values to undefined variables. -/
theorem Declared.foldl_perform (h : store.Declared) (operations : List VariableOperation) :
    (operations.foldl perform store).Declared := by
  induction operations generalizing store with
  | nil => exact h
  | cons operation rest ih => exact ih (h.set _ _ _)

theorem get?_foldl_clampEntry_of_none (group : List VariableDefinition) {values : Values}
    {id : String} (h : values.get? id = none) : (group.foldl clampEntry values).get? id = none := by
  induction group generalizing values with
  | nil => exact h
  | cons definition rest ih =>
    apply ih
    rw [get?_clampEntry, h]
    split <;> rfl

theorem Declared.withDefinitions (h : store.Declared) {definitions : Definitions}
    (hids : ∀ category, (definitions.get category).map VariableDefinition.id =
      (store.definitions.get category).map VariableDefinition.id) :
    (store.withDefinitions definitions).Declared := by
  intro category id hnone
  rw [values_withDefinitions]
  apply get?_foldl_clampEntry_of_none
  exact h category id ((Definitions.find_eq_none_congr (hids category)).1 hnone)

/-- Restored values are of defined variables exactly if they are declared. -/
theorem declared_restore {values : ValueTable} :
    (store.restore values).Declared ↔ store.definitions.Declare values := by
  unfold Declared Definitions.Declare
  simp only [values_restore]
  refine forall_congr' fun category => forall_congr' fun id => imp_congr_right fun _ => ?_
  cases values.get? category with
  | none => simp [Table.get?_empty]
  | some group => simp

theorem declared_iff_declare : store.Declared ↔ store.definitions.Declare store.snapshot := by
  unfold Declared Definitions.Declare
  simp only [get?_snapshot, Option.some.injEq, forall_eq']
  rfl

/-! ## What undefined variables read as -/

/-- The variable reads as zero, conditions on it are decided against zero, and it is not shown. -/
structure ReadsZero (store : VariableStore) (category : Category) (id : String) : Prop where
  get : store.get category id = 0.0
  satisfies : ∀ condition : Condition, condition.enabled → condition.category = category →
    condition.target = id →
    store.satisfies condition = condition.comparison.holds 0.0 condition.value
  snapshot : ∀ group, store.snapshot.get? category = some group → group.get? id = none

theorem readsZero_of_none {category : Category} {id : String}
    (h : (store.values.get category).get? id = none) : store.ReadsZero category id := by
  have hget : store.get category id = 0.0 := by rw [VariableStore.get, h, Option.getD_none]
  refine ⟨hget, ?_, ?_⟩
  · rintro condition henabled rfl rfl
    rw [VariableStore.satisfies, henabled, hget]
    rfl
  · intro group hgroup
    rw [get?_snapshot] at hgroup
    rwa [← Option.some.inj hgroup]

/-- All undefined variables read as zero exactly if only defined variables have values. -/
theorem declared_iff_readsZero : store.Declared ↔
    ∀ category id, store.definition? category id = none → store.ReadsZero category id := by
  constructor
  · intro h category id hnone
    exact readsZero_of_none (h category id hnone)
  · intro h category id hnone
    exact (h category id hnone).snapshot _ (get?_snapshot store category)

end VariableStore

end Narrative
