import Mathlib.Data.List.Nodup
import Narrative.Proofs.Variable.Declared

/-!
# Distinct identifiers

The definition of a variable is the first one with its identifier, and its initial value is that of
the last one.  As long as no two definitions of a category share an identifier these are the same.
Every edit of one definition keeps the identifiers apart.
-/

namespace Narrative

namespace Definitions

variable {definitions : Definitions} {category : Category} {id : String} {edit : DefinitionsEdit}

/-- No two definitions of a category have the same identifier. -/
def Distinct (definitions : Definitions) : Prop :=
  ∀ category, ((definitions.get category).map VariableDefinition.id).Nodup

theorem distinct_default : Definitions.default.Distinct := by
  intro category
  cases category <;> decide

theorem distinct_kept : definitions.kept.Distinct ↔ definitions.Distinct := by
  refine forall_congr' fun category => ?_
  rw [kept, Categorized.get_ofFn, List.map_map]
  exact Iff.rfl

theorem Distinct.set (h : definitions.Distinct) {group : List VariableDefinition}
    (hgroup : (group.map VariableDefinition.id).Nodup) :
    Distinct (Categorized.set definitions category group) := by
  intro other
  rw [Categorized.get_set]
  split
  · exact hgroup
  · exact h other

/-! ## Edits -/

/-- The identifier of a definition that is added is new. -/
theorem Distinct.add (h : definitions.Distinct) {definition : VariableDefinition}
    (hedit : definitions.add category definition = some edit) : edit.definitions.Distinct := by
  obtain ⟨hnew, rfl⟩ := add_eq_some.1 hedit
  refine h.set ?_
  rw [List.map_append]
  exact (h category).append (List.nodup_singleton _) (by simpa using hnew)

/-- A patch that gives a definition another identifier gives it a new one. -/
theorem new_of_patch {patch : DefinitionPatch}
    (hedit : definitions.patch category id patch = some edit) (hrenames : edit.restarts = true) :
    ∃ index updated, edit.definitions =
        Categorized.set definitions category ((definitions.get category).set index updated) ∧
      updated.id ∉ (definitions.get category).map VariableDefinition.id := by
  obtain ⟨index, found, -, -, -, hnew, rfl⟩ := patch_eq_some.1 hedit
  exact ⟨index, patch.apply found, rfl, hnew (bne_iff_ne.1 hrenames)⟩

theorem Distinct.patch (h : definitions.Distinct) {patch : DefinitionPatch}
    (hedit : definitions.patch category id patch = some edit) : edit.definitions.Distinct := by
  cases hrestarts : edit.restarts with
  | false =>
    intro other
    rw [ids_of_patch hedit hrestarts]
    exact h other
  | true =>
    obtain ⟨index, updated, hdefinitions, hnew⟩ := new_of_patch hedit hrestarts
    rw [hdefinitions]
    refine h.set ?_
    rw [List.map_set]
    exact (h category).set hnew

theorem Distinct.remove (h : definitions.Distinct)
    (hedit : definitions.remove category id = some edit) : edit.definitions.Distinct := by
  obtain ⟨-, rfl⟩ := remove_eq_some.1 hedit
  exact h.set ((h category).sublist (List.filter_sublist.map _))

/-! ## The first and the last definition -/

/-- The definition that bounds a variable is the one that gives it its initial value. -/
theorem Distinct.initial (h : definitions.Distinct) {definition : VariableDefinition}
    (hfind : definitions.find category id = some definition) :
    (VariableStore.ofDefinitions definitions).get category id = definition.initial := by
  have hmem : definition ∈ definitions.get category := List.mem_of_find?_eq_some hfind
  have hid : definition.id = id := by simpa using List.find?_some hfind
  have hnodup : (((definitions.get category).map fun definition =>
      (definition.id, definition.initial)).map Prod.fst).Nodup := by
    rw [List.map_map]
    exact h category
  have hentry : (id, definition.initial) ∈ (definitions.get category).map fun definition =>
      (definition.id, definition.initial) := hid ▸ List.mem_map_of_mem hmem
  rw [VariableStore.get, VariableStore.values_ofDefinitions, Table.get?,
    Table.entries_ofList hnodup, Table.findEntry_of_mem hnodup hentry, Option.getD_some]

end Definitions

end Narrative
