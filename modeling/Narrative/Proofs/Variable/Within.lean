import Narrative.Proofs.Variable.Bounds
import Narrative.Story.Edit

/-!
# Values within bounds

A store is within bounds if its definitions are proper and every one of them has a value between its
bounds.  Writing, starting over and changing the bounds keep a store within bounds; restoring values
does so only if the restored values are within bounds themselves.
-/

namespace Narrative

/-- The definitions are proper, and no two of a category have the same identifier. -/
structure Definitions.Proper (definitions : Definitions) : Prop where
  proper : ∀ category, ∀ definition ∈ definitions.get category, definition.Proper
  nodup : ∀ category, ((definitions.get category).map VariableDefinition.id).Nodup

/-- The table has a value between the bounds of every definition. -/
def Definitions.Admit (definitions : Definitions) (values : ValueTable) : Prop :=
  ∀ category, ∀ definition ∈ definitions.get category,
    ∃ group value, values.get? category = some group ∧ group.get? definition.id = some value ∧
      definition.Admits value

theorem Definitions.Proper.finite {definitions : Definitions} (h : definitions.Proper) :
    definitions.Finite :=
  fun category definition hdefinition => (h.proper category definition hdefinition).toFinite

theorem find?_of_mem {group : List VariableDefinition}
    (hnodup : (group.map VariableDefinition.id).Nodup) {definition : VariableDefinition}
    (h : definition ∈ group) :
    group.find? (fun other => other.id = definition.id) = some definition := by
  induction group with
  | nil => exact absurd h List.not_mem_nil
  | cons other rest ih =>
    rw [List.map_cons, List.nodup_cons] at hnodup
    rcases List.mem_cons.1 h with rfl | hrest
    · simp
    · have hne : other.id ≠ definition.id := by
        intro e
        exact hnodup.1 (e ▸ List.mem_map_of_mem hrest)
      rw [List.find?_cons_of_neg (by simpa using hne), ih hnodup.2 hrest]

/-! ## Stores within bounds -/

namespace VariableStore

/-- Every definition has a value between its bounds. -/
structure Within (store : VariableStore) : Prop where
  proper : store.definitions.Proper
  admitted : ∀ category, ∀ definition ∈ store.definitions.get category,
    ∃ value, (store.values.get category).get? definition.id = some value ∧
      definition.Admits value

/-- What is read from a store within bounds lies between the bounds. -/
theorem Within.get {store : VariableStore} (h : store.Within) {category : Category}
    {definition : VariableDefinition} (hdefinition : definition ∈ store.definitions.get category) :
    definition.Admits (store.get category definition.id) := by
  obtain ⟨value, hvalue, hadmits⟩ := h.admitted category definition hdefinition
  rwa [VariableStore.get, hvalue]

theorem within_ofDefinitions {definitions : Definitions} (h : definitions.Proper) :
    (ofDefinitions definitions).Within where
  proper := h
  admitted := by
    intro category definition hdefinition
    refine ⟨definition.initial, ?_, (h.proper category definition hdefinition).admits_initial⟩
    have hnodup : (((definitions.get category).map fun definition =>
        (definition.id, definition.initial)).map Prod.fst).Nodup := by
      rw [List.map_map]
      exact h.nodup category
    rw [values_ofDefinitions, Table.get?, Table.entries_ofList hnodup]
    exact Table.findEntry_of_mem hnodup
      (List.mem_map_of_mem (f := fun definition => (definition.id, definition.initial)) hdefinition)

theorem Within.reset {store : VariableStore} (h : store.Within) : store.reset.Within :=
  within_ofDefinitions h.proper

theorem Within.set {store : VariableStore} (h : store.Within) (category : Category) (id : String)
    (value : Float) : (store.set category id value).Within := by
  unfold VariableStore.set
  split
  case h_2 => exact h
  case h_1 found hfound =>
    have hmem : found ∈ store.definitions.get category := List.mem_of_find?_eq_some hfound
    have hid : found.id = id := by simpa using List.find?_some hfound
    refine ⟨h.proper, ?_⟩
    intro other definition hdefinition
    change ∃ value, ((store.values.set category _).get other).get? definition.id = some value ∧ _
    rw [Categorized.get_set]
    by_cases hcategory : category = other
    · subst hcategory
      rw [if_pos rfl, Table.get?_insert]
      by_cases hsame : id = definition.id
      · have hfind := find?_of_mem (h.proper.nodup category) hdefinition
        rw [← hsame] at hfind
        have heq : found = definition := Option.some.inj (hfound.symm.trans hfind)
        rw [if_pos hsame, ← heq]
        exact ⟨_, rfl, (h.proper.proper category found hmem).admits_clamp value⟩
      · rw [if_neg hsame]
        exact h.admitted category definition hdefinition
    · rw [if_neg hcategory]
      exact h.admitted other definition hdefinition

/-- The operations of a choice keep a store within bounds, whatever they compute. -/
theorem Within.foldl_perform {store : VariableStore} (h : store.Within)
    (operations : List VariableOperation) : (operations.foldl perform store).Within := by
  induction operations generalizing store with
  | nil => exact h
  | cons operation rest ih => exact ih (h.set _ _ _)

theorem get?_clampEntry (values : Values) (definition : VariableDefinition) (id : String) :
    (clampEntry values definition).get? id =
      if definition.id = id then (values.get? id).map definition.clamp else values.get? id := by
  unfold clampEntry
  split
  case h_1 value hvalue =>
    rw [Table.get?_insert]
    by_cases hid : definition.id = id
    · rw [if_pos hid, if_pos hid, ← hid, hvalue]
      rfl
    · rw [if_neg hid, if_neg hid]
  case h_2 hnone =>
    by_cases hid : definition.id = id
    · rw [if_pos hid, ← hid, hnone]
      rfl
    · rw [if_neg hid]

theorem get?_foldl_clampEntry_of_notMem {group : List VariableDefinition} {id : String}
    (h : id ∉ group.map VariableDefinition.id) (values : Values) :
    (group.foldl clampEntry values).get? id = values.get? id := by
  induction group generalizing values with
  | nil => rfl
  | cons other rest ih =>
    rw [List.map_cons, List.mem_cons, not_or] at h
    rw [List.foldl_cons, ih h.2, get?_clampEntry, if_neg fun e => h.1 e.symm]

theorem get?_foldl_clampEntry {group : List VariableDefinition}
    (hnodup : (group.map VariableDefinition.id).Nodup) (values : Values)
    {definition : VariableDefinition} (h : definition ∈ group) :
    (group.foldl clampEntry values).get? definition.id =
      (values.get? definition.id).map definition.clamp := by
  induction group generalizing values with
  | nil => exact absurd h List.not_mem_nil
  | cons other rest ih =>
    rw [List.map_cons, List.nodup_cons] at hnodup
    rw [List.foldl_cons]
    rcases List.mem_cons.1 h with rfl | hrest
    · rw [get?_foldl_clampEntry_of_notMem hnodup.1, get?_clampEntry, if_pos rfl]
    · have hne : other.id ≠ definition.id := by
        intro e
        exact hnodup.1 (e ▸ List.mem_map_of_mem hrest)
      rw [ih hnodup.2 _ hrest, get?_clampEntry, if_neg hne]

/-- Other bounds for the same variables bring the values between them. -/
theorem Within.withDefinitions {store : VariableStore} (h : store.Within)
    {definitions : Definitions} (hproper : definitions.Proper)
    (hold : ∀ category, ∀ definition ∈ definitions.get category,
      ∃ old ∈ store.definitions.get category, old.id = definition.id) :
    (store.withDefinitions definitions).Within where
  proper := hproper
  admitted := by
    intro category definition hdefinition
    obtain ⟨old, hmem, hid⟩ := hold category definition hdefinition
    obtain ⟨value, hvalue, -⟩ := h.admitted category old hmem
    refine ⟨definition.clamp value, ?_,
      (hproper.proper category definition hdefinition).admits_clamp value⟩
    rw [values_withDefinitions, get?_foldl_clampEntry (hproper.nodup category) _ hdefinition,
      ← hid, hvalue]
    rfl

theorem Within.restore {store : VariableStore} (h : store.Within) {values : ValueTable}
    (hvalues : store.definitions.Admit values) : (store.restore values).Within where
  proper := h.proper
  admitted := by
    intro category definition hdefinition
    obtain ⟨group, value, hgroup, hvalue, hadmits⟩ := hvalues category definition hdefinition
    refine ⟨value, ?_, hadmits⟩
    rw [values_restore, hgroup]
    exact hvalue

end VariableStore

/-! ## Edits of definitions -/

namespace Definitions

variable {definitions : Definitions} {category : Category} {id : String} {edit : DefinitionsEdit}

theorem defines_iff {group : List VariableDefinition} :
    defines group id ↔ id ∈ group.map VariableDefinition.id := by
  simp [defines]

/-- A definition with a new identifier is put behind the others. -/
theorem add_eq_some {definition : VariableDefinition} :
    definitions.add category definition = some edit ↔
      definition.id ∉ (definitions.get category).map VariableDefinition.id ∧
        edit = ⟨definitions.set category (definitions.get category ++ [definition]), true⟩ := by
  simp only [add, Option.ite_none_left_eq_some, defines_iff, Option.some.injEq, eq_comm (a := edit)]

/-- All definitions with an identifier are taken out, if there are any. -/
theorem remove_eq_some :
    definitions.remove category id = some edit ↔
      id ∈ (definitions.get category).map VariableDefinition.id ∧
        edit = ⟨definitions.set category
          ((definitions.get category).filter fun definition => definition.id ≠ id), true⟩ := by
  simp only [remove, Option.ite_none_right_eq_some, defines_iff, Option.some.injEq,
    eq_comm (a := edit)]

/-- A patch puts one definition of a category in the place of another, the first with the
identifier; if it has another identifier, that one is new. -/
theorem patch_eq_some {patch : DefinitionPatch} :
    definitions.patch category id patch = some edit ↔
      ∃ index found,
        (definitions.get category).findIdx? (fun definition => definition.id = id) = some index ∧
        (definitions.get category)[index]? = some found ∧ found.id = id ∧
        ((patch.apply found).id ≠ id →
          (patch.apply found).id ∉ (definitions.get category).map VariableDefinition.id) ∧
        edit = ⟨definitions.set category
          ((definitions.get category).set index (patch.apply found)),
          (patch.apply found).id != id⟩ := by
  simp only [Definitions.patch, Option.bind_eq_bind, Option.bind_eq_some_iff,
    Option.ite_none_left_eq_some, Bool.and_eq_true, bne_iff_ne, defines_iff, not_and,
    Option.some.injEq, eq_comm (a := edit)]
  constructor
  · rintro ⟨index, hindex, found, hfound, hedit⟩
    have hid : found.id = id := by simpa [hfound] using List.of_findIdx?_eq_some hindex
    exact ⟨index, found, hindex, hfound, hid, hedit⟩
  · rintro ⟨index, found, hindex, hfound, -, hedit⟩
    exact ⟨index, hindex, found, hfound, hedit⟩

theorem restarts_of_add {definition : VariableDefinition}
    (h : definitions.add category definition = some edit) : edit.restarts = true := by
  rw [(add_eq_some.1 h).2]

theorem restarts_of_remove (h : definitions.remove category id = some edit) :
    edit.restarts = true := by
  rw [(remove_eq_some.1 h).2]

/-- A patch that keeps the values keeps all identifiers. -/
theorem ids_of_patch {patch : DefinitionPatch}
    (h : definitions.patch category id patch = some edit) (hkeeps : edit.restarts = false)
    (other : Category) : (edit.definitions.get other).map VariableDefinition.id =
      (definitions.get other).map VariableDefinition.id := by
  obtain ⟨index, found, -, hfound, hid, -, rfl⟩ := patch_eq_some.1 h
  have hsame : (patch.apply found).id = found.id := by
    rw [hid]
    simpa using hkeeps
  rw [Categorized.get_set]
  split
  case isFalse => rfl
  case isTrue hcategory =>
    have hfoundId : ((definitions.get category).map VariableDefinition.id)[index]? =
        some found.id := by
      rw [List.getElem?_map, hfound]
      rfl
    obtain ⟨hlt, hget⟩ := List.getElem?_eq_some_iff.1 hfoundId
    rw [← hcategory, List.map_set, hsame, ← hget, List.set_getElem_self]

/-- A patch that keeps the values defines no new variables. -/
theorem old_of_patch {patch : DefinitionPatch}
    (h : definitions.patch category id patch = some edit) (hkeeps : edit.restarts = false) :
    ∀ other, ∀ definition ∈ edit.definitions.get other,
      ∃ old ∈ definitions.get other, old.id = definition.id := by
  intro other definition hdefinition
  have hmem := List.mem_map_of_mem (f := VariableDefinition.id) hdefinition
  rw [ids_of_patch h hkeeps] at hmem
  exact List.mem_map.1 hmem

end Definitions

end Narrative
