import Narrative.Proofs.Service.Persisted
import Narrative.Proofs.Variable.Rebounded

/-!
# What edits of definitions do to the values

The variables of an open story are shared by the editor and the reader, so an edit of the
definitions meets values that are in use.  Where it adds, removes or renames a variable they all
start over; where it changes a variable under its identifier they go on, within the new bounds of
all variables and not only of the one that is changed.  A patch counts as renaming only if the
identifier it names is another one.
-/

namespace Narrative

variable {session : Session} {now : Instant} {records : Records}

namespace Edit

/-- The edit adds, removes or renames a variable. -/
def Renews : Edit → Prop
  | addVariable .. | removeVariable .. => True
  | patchVariable _ name patch => patch.id.getD name ≠ name
  | _ => False

/-- The edit changes a variable under its identifier. -/
def Adjusts : Edit → Prop
  | patchVariable _ name patch => patch.id.getD name = name
  | _ => False

variable {edit : Edit} {installed : DefinitionsEdit} {definitions : Definitions}

theorem Redefines.distinct (h : edit.Redefines definitions installed)
    (hdistinct : definitions.Distinct) : installed.definitions.Distinct := by
  cases edit with
  | addVariable => exact hdistinct.add (Definitions.add_iff_groupChanged.2 h)
  | patchVariable => exact hdistinct.patch (Definitions.patch_iff_groupChanged.2 h)
  | removeVariable => exact hdistinct.remove (Definitions.remove_iff_groupChanged.2 h)
  | _ => exact h.elim

/-- The variables start over if their set changes. -/
theorem Redefines.restarts_of_renews (h : edit.Redefines definitions installed)
    (hrenews : edit.Renews) : installed.restarts = true := by
  cases edit with
  | addVariable | removeVariable => exact h.2
  | patchVariable => exact h.2.trans (bne_iff_ne.2 hrenews)
  | _ => exact hrenews.elim

theorem Redefines.restarts_of_adjusts (h : edit.Redefines definitions installed)
    (hadjusts : edit.Adjusts) : installed.restarts = false := by
  cases edit with
  | patchVariable => exact h.2.trans (bne_eq_false_iff_eq.2 hadjusts)
  | _ => exact hadjusts.elim

end Edit

namespace Definitions

variable {definitions : Definitions} {category : Category} {name : String} {patch : DefinitionPatch}

/-- There is no variable with the name, or the patch gives it the identifier of another one. -/
def Bars (definitions : Definitions) (category : Category) (name : String)
    (patch : DefinitionPatch) : Prop :=
  name ∉ (definitions.get category).map VariableDefinition.id ∨
    patch.id.getD name ≠ name ∧
      patch.id.getD name ∈ (definitions.get category).map VariableDefinition.id

/-- The patched definition is still in its category when the identifiers are compared, so its own
identifier does not bar it only because that is not compared. -/
theorem patch_eq_none :
    definitions.patch category name patch = none ↔ definitions.Bars category name patch := by
  constructor
  · intro hnone
    by_contra hfree
    obtain ⟨hname, hnew⟩ := not_or.1 hfree
    obtain ⟨definition, hdefinition, hid⟩ := List.mem_map.1 (not_not.1 hname)
    have hsome : ((definitions.get category).findIdx?
        fun definition => definition.id = name).isSome := by
      rw [List.findIdx?_isSome]
      exact List.any_eq_true.2 ⟨definition, hdefinition, decide_eq_true hid⟩
    obtain ⟨index, hindex⟩ := Option.isSome_iff_exists.1 hsome
    obtain ⟨hlt, hfound, -⟩ := List.findIdx?_eq_some_iff_getElem.1 hindex
    have hfoundId : (definitions.get category)[index].id = name := by simpa using hfound
    have hfree : (patch.apply (definitions.get category)[index]).id ≠ name →
        (patch.apply (definitions.get category)[index]).id ∉
          (definitions.get category).map VariableDefinition.id := by
      rw [DefinitionPatch.apply, hfoundId]
      exact fun hne hmem => hnew ⟨hne, hmem⟩
    have hedit := patch_eq_some.2
      ⟨index, _, hindex, List.getElem?_eq_getElem hlt, hfoundId, hfree, rfl⟩
    exact absurd (hnone.symm.trans hedit) (by simp)
  · intro hbars
    rw [Option.eq_none_iff_forall_ne_some]
    intro edit hedit
    obtain ⟨index, found, -, hfound, hid, hnew, -⟩ := patch_eq_some.1 hedit
    have hmem : name ∈ (definitions.get category).map VariableDefinition.id :=
      hid ▸ List.mem_map_of_mem (List.mem_of_getElem? hfound)
    rw [DefinitionPatch.apply, hid] at hnew
    exact hbars.elim (· hmem) fun h => hnew h.1 h.2

end Definitions

/-! ## Edits that go through -/

namespace Edit

variable {edit : Edit}

/-- An edit of the definitions is refused, without any effect, if it leads to no definitions, and
otherwise leads to a session with the definitions it asks for and a store as described. -/
def Redefining (edit : Edit) (session : Session) (now : Instant) (records : Records)
    (leads : VariableStore → Prop) : Prop :=
  ((∀ installed, ¬ edit.Redefines session.store.definitions installed) ∧
      (edit.perform session now).run records = (.ok (false, session), records)) ∨
    ∃ installed result after, edit.Redefines session.store.definitions installed ∧
      (edit.perform session now).run records = (.ok (true, result), after) ∧
      result.store.definitions = installed.definitions ∧ leads result.store

/-- The edit adds, removes, renames or changes a variable. -/
def OfVariable (edit : Edit) : Prop := edit.Renews ∨ edit.Adjusts

theorem OfVariable.not_redraws (h : edit.OfVariable) (before graph : Graph) :
    ¬ edit.Redraws now before graph := by
  cases edit with
  | addVariable | patchVariable | removeVariable => exact id
  | _ => exact (h.elim id id).elim

theorem OfVariable.redefining (h : edit.OfVariable) {leads : VariableStore → Prop}
    (hleads : ∀ installed, edit.Redefines session.store.definitions installed →
      leads (session.installed installed).store) :
    edit.Redefining session now records leads := by
  have hleaves := edit.leaves_perform session now records
  generalize hrun : (edit.perform session now).run records = outcome at hleaves
  cases hleaves with
  | untimed hedit => exact absurd h (by rw [hedit]; exact fun h => h.elim id id)
  | refused _ hdefinitions => exact Or.inl ⟨hdefinitions, hrun⟩
  | redrawn hredraws => exact absurd hredraws (h.not_redraws _ _)
  | redefined hredefines =>
    exact Or.inr
      ⟨_, _, _, hredefines, hrun, session.definitions_installed _, hleads _ hredefines⟩

/-- An edit that has gone through leads where it should. -/
theorem Redefining.of_done {leads : VariableStore → Prop} {result : Session} {after : Records}
    (h : edit.Redefining session now records leads)
    (hrun : (edit.perform session now).run records = (.ok (true, result), after)) :
    leads result.store := by
  rcases h with ⟨-, hrefused⟩ | ⟨_, _, _, -, hdone, -, hleads⟩
  · have hanswer := Except.ok.inj (congrArg Prod.fst (hrun.symm.trans hrefused))
    exact absurd (congrArg Prod.fst hanswer) (by simp)
  · have hanswer := Except.ok.inj (congrArg Prod.fst (hrun.symm.trans hdone))
    rw [(Prod.mk.inj hanswer).2]
    exact hleads

theorem run_patchVariable_refused {category : Category} {name : String} {patch : DefinitionPatch} :
    ((patchVariable category name patch).perform session now).run records =
        (.ok (false, session), records) ↔
      session.store.definitions.Bars category name patch := by
  rw [← Definitions.patch_eq_none, perform, Session.editDefinitions]
  cases hpatch : session.store.definitions.patch category name patch with
  | none => exact iff_of_true rfl rfl
  | some installed =>
    refine iff_of_false (fun hrun => ?_) (by simp)
    have hanswer : Except.ok (true, session.installed installed) = Except.ok (false, session) :=
      congrArg Prod.fst hrun
    exact absurd (congrArg Prod.fst (Except.ok.inj hanswer)) (by simp)

end Edit

/-- In a session whose definitions have distinct identifiers, an edit that adds, removes or renames
a variable leaves exactly the initial values of the new definitions, and one that changes a variable
under its identifier leaves every value in its place, within its new bounds.  A patch is refused
exactly if there is no such variable or its new identifier is taken, and then neither the session
nor the store has changed. -/
theorem definition_edits_on_values (session : Session)
    (hdistinct : session.store.definitions.Distinct) (now : Instant) (records : Records) :
    (∀ edit : Edit, edit.Renews →
      edit.Redefining session now records VariableStore.AtInitials) ∧
    (∀ edit : Edit, edit.Adjusts →
      edit.Redefining session now records session.store.Rebounded) ∧
    ∀ category name patch,
      ((Edit.patchVariable category name patch).perform session now).run records =
          (.ok (false, session), records) ↔
        session.store.definitions.Bars category name patch := by
  refine ⟨?renewed, ?adjusted, fun category name patch => Edit.run_patchVariable_refused⟩
  case renewed =>
    intro edit hrenews
    apply Edit.OfVariable.redefining (Or.inl hrenews)
    intro installed hredefines
    rw [Session.installed, if_pos (hredefines.restarts_of_renews hrenews)]
    exact VariableStore.atInitials_ofDefinitions (hredefines.distinct hdistinct)
  case adjusted =>
    intro edit hadjusts
    apply Edit.OfVariable.redefining (Or.inr hadjusts)
    intro installed hredefines
    have hkeeps : ¬ installed.restarts = true := by
      rw [hredefines.restarts_of_adjusts hadjusts]
      exact Bool.false_ne_true
    rw [Session.installed, if_neg hkeeps]
    exact session.store.rebounded_withDefinitions (hredefines.distinct hdistinct)

/-- In a new story a variable is removed, or gets a smaller upper bound, or is to get the identifier
of another one. -/
theorem definition_edits_on_values_newStory :
    (Stored.session newStory ⟨1⟩).store.definitions.Distinct ∧
    (∃ result after, ((Edit.removeVariable .difficulty "stress").perform
        (Stored.session newStory ⟨1⟩) ⟨0.0⟩).run newStory = (.ok (true, result), after) ∧
      result.store.AtInitials) ∧
    (∃ result after, ((Edit.patchVariable .physiological "health" { max := some 50.0 }).perform
        (Stored.session newStory ⟨1⟩) ⟨0.0⟩).run newStory = (.ok (true, result), after) ∧
      (Stored.session newStory ⟨1⟩).store.Rebounded result.store) ∧
    ((Edit.patchVariable .emotional "trust" { id := some "shame" }).perform
        (Stored.session newStory ⟨1⟩) ⟨0.0⟩).run newStory =
      (.ok (false, Stored.session newStory ⟨1⟩), newStory) := by
  rw [Stored.session_newStory]
  have hdistinct := Definitions.distinct_default
  obtain ⟨hrenews, hadjusts, hrefused⟩ := definition_edits_on_values
    (Session.fresh (Identifier.mk 1).spelling .default .default) hdistinct ⟨0.0⟩ newStory
  refine ⟨hdistinct, ?_, ?_, (hrefused ..).2 (Or.inr (by decide))⟩
  · exact ⟨_, _, rfl, (hrenews (.removeVariable .difficulty "stress") trivial).of_done rfl⟩
  · exact ⟨_, _, rfl, (hadjusts (.patchVariable .physiological "health" { max := some 50.0 })
      rfl).of_done rfl⟩

end Narrative
