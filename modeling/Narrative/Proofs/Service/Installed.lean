import Narrative.Proofs.Service.Refusals
import Narrative.Proofs.Service.Slots

/-!
# Definitions in force

The definitions of a story change by a command only, which says what it puts in force: an import
those of its document, and an edit of the variables those that it makes of the ones before.  A run
goes on with a command accordingly.
-/

namespace Narrative

variable {records : Records} {id : Identifier} {now : Instant} {time : ℤ}

/-- The definitions that an imported document puts in force. -/
def definitionsOf (document : Json.Fields) : Option Definitions := do
  let (_, definitions) ← Session.imported (.obj document)
  (← definitions).storable.toOption

/-- The definitions that a command puts in force in the place of those that are. -/
def Command.installed? (assets : Option Assets) (definitions : Definitions) :
    Command → Option Definitions
  | importStory document => definitionsOf document
  | loadDemo => assets.bind fun assets => definitionsOf assets.demo
  | addVariable category request =>
    (definitions.add category (requestedDefinition request)).map DefinitionsEdit.definitions
  | patchVariable category id patch =>
    (definitions.patch category id patch).map DefinitionsEdit.definitions
  | removeVariable category id =>
    (definitions.remove category id).map DefinitionsEdit.definitions
  | _ => none

namespace Session

variable {session : Session}

theorem finite_installed (h : session.store.Finite) {edit : DefinitionsEdit}
    (hedit : edit.definitions.Finite) : (session.installed edit).store.Finite := by
  unfold installed
  simp only
  split
  · exact VariableStore.finite_ofDefinitions hedit
  · exact VariableStore.finite_withDefinitions h.values hedit

theorem definitions_installed (edit : DefinitionsEdit) :
    (session.installed edit).store.definitions = edit.definitions := by
  unfold installed
  split <;> rfl

/-- After an import every variable has its initial value. -/
theorem store_replaced (session : Session) (graph : Graph) (definitions : Option Definitions) :
    (session.replaced graph definitions).store =
      .ofDefinitions (definitions.getD session.store.definitions) := by
  cases definitions <;> rfl

theorem definitions_nodePlan (key : String) (refusal : Failure) (edit : Graph → Option Graph) :
    (session.nodePlan key refusal edit).definitions = none := by
  unfold nodePlan
  cases edit session.graph <;> rfl

theorem definitions_definitionsPlan (refusal : Failure)
    (edit : Definitions → Option DefinitionsEdit) :
    (session.definitionsPlan time refusal edit).definitions =
      (edit session.store.definitions).map DefinitionsEdit.definitions := by
  unfold definitionsPlan
  cases edit session.store.definitions <;> rfl

theorem definitions_importPlan (refusal : Failure) (document : Json.Fields) :
    (session.importPlan time refusal document).definitions = definitionsOf document := by
  unfold importPlan definitionsOf
  cases imported (.obj document) with
  | none => rfl
  | some found =>
    obtain ⟨⟨graph, torn⟩, definitions⟩ := found
    rcases definitions with _ | ⟨definitions, _ | points⟩ <;> cases torn <;> rfl

end Session

namespace Command

theorem definitions_actionPlan {payload : Json.Fields} {slots : String → Option SaveSlot}
    {session : Session} (action : PlayAction) :
    (actionPlan time payload slots session action).definitions = none := by
  unfold actionPlan PlayAction.autosaved
  split
  · exact (action.plan_only_saves payload slots).1
  · rfl

/-- The definitions that a command stores are those that it puts in force. -/
theorem definitions_plan (command : Command) (assets : Option Assets) (session : Session)
    (slots : String → Option SaveSlot) :
    (command.plan assets time session slots).definitions =
      command.installed? assets session.store.definitions := by
  cases command with
  | importStory document => exact Session.definitions_importPlan _ document
  | loadDemo =>
    cases assets with
    | none => rfl
    | some assets => exact Session.definitions_importPlan _ assets.demo
  | createNode => rfl
  | removeNode node =>
    simp only [plan, Session.removalPlan]
    split <;> rfl
  | patchNode | addChoice | patchChoice | removeChoice | patchCondition | addOperation
  | patchOperation | removeOperation => exact Session.definitions_nodePlan _ _ _
  | addVariable | removeVariable => exact Session.definitions_definitionsPlan _ _
  | patchVariable category name patch =>
    simp only [plan]
    split
    case isFalse => exact Session.definitions_definitionsPlan _ _
    case isTrue hmissing =>
      have hnone : session.store.definitions.find category name = none :=
        Option.isNone_iff_eq_none.1 hmissing
      have hindex : (session.store.definitions.get category).findIdx?
          (fun definition => definition.id = name) = none := by
        rw [Definitions.find, List.find?_eq_none] at hnone
        simpa using hnone
      simp [installed?, Definitions.patch, hindex, Plan.refused, Plan.map]
  | play name payload =>
    simp only [plan]
    split
    · exact definitions_actionPlan _
    · rfl
  | savePosition slot => exact definitions_actionPlan _

end Command

namespace Stored

theorem definitions_store {α : Type} (plan : Plan α) (records : Records) :
    definitions (plan.store id records) id =
      (plan.definitions.map Definitions.kept).getD (definitions records id) := by
  unfold definitions
  rw [Plan.get?_store_definitions]
  cases plan.definitions with
  | none => rfl
  | some definitions => simp [Repository.parsed_definitions, Except.toOption]

end Stored

/-! ## Runs -/

/-- A run goes on with a command: its definitions are in force afterwards, if it has any, and the
slots that it does not save to are as they were. -/
theorem Run.next_command {allowed : Records → Occasion → Prop} (h : Run allowed .empty records)
    (hlisted : Stored.Registered records id) (hnow : now.Readable) {assets : Option Assets}
    {fresh : Identifier} {command : Command}
    (hallowed : allowed records ⟨.command id command, assets, fresh, now⟩) :
    ∃ after, Run allowed .empty after ∧ Stored.Registered after id ∧
      Stored.definitions after id =
        ((command.installed? assets (Stored.definitions records id)).map Definitions.kept).getD
          (Stored.definitions records id) ∧
      ∀ name, name ≠ Repository.autosaveSlot → ¬command.Saves name →
        Stored.slot after id name = Stored.slot records id name := by
  obtain ⟨time, htime⟩ := hnow
  refine ⟨_, h.command hlisted htime fresh hallowed, (Plan.registered_store ..).2 hlisted, ?_, ?_⟩
  · rw [Stored.definitions_store, Command.definitions_plan, Stored.definitions_session]
  · intro name hname hsaves
    rw [Stored.slot, Command.get?_store_slot hname hsaves]
    rfl

/-- A run goes on with saving the position, which can be loaded afterwards. -/
theorem Run.next_save {allowed : Records → Occasion → Prop} (h : Run allowed .empty records)
    (hlisted : Stored.Registered records id) (hnow : now.Readable) {fresh : Identifier}
    {name : String} (hname : name ≠ "") (hauto : name ≠ Repository.autosaveSlot)
    (hallowed : allowed records ⟨.command id (.savePosition name), none, fresh, now⟩) :
    ∃ after position, Run allowed .empty after ∧ Stored.Registered after id ∧
      Stored.definitions after id = Stored.definitions records id ∧
      Stored.slot after id name = some position ∧
      Stored.slot after id Repository.autosaveSlot = some position ∧
      position.values = (Stored.session records id).store.snapshot ∧
      ∀ other, other ≠ Repository.autosaveSlot → other ≠ name →
        Stored.slot after id other = Stored.slot records id other := by
  obtain ⟨time, htime⟩ := hnow
  have hkept := h.kept kept_empty
  have hreadable := (Stored.sound_session hkept id).readable_position (shortTime_of_millis htime)
  have hstored : (Command.plan none time (Stored.session records id) (Stored.slot records id)
      (.savePosition name)).store id records =
      saved id Repository.autosaveSlot ((Stored.session records id).player.position time)
        (saved id name ((Stored.session records id).player.position time) records) := by
    simp only [Command.plan, Command.actionPlan, PlayAction.autosaved, PlayAction.plan,
      PlayAction.slot_str hname, PlayAction.slotName]
    rfl
  have hrun := h.command hlisted htime fresh hallowed
  rw [hstored] at hrun
  refine ⟨_, (Stored.session records id).player.position time, hrun, ?_, ?_,
    Stored.slot_of_text hreadable ?_, Stored.slot_of_text hreadable ?_, rfl, ?_⟩
  · rw [← hstored]
    exact (Plan.registered_store ..).2 hlisted
  · rw [Stored.definitions_saved, Stored.definitions_saved]
  · rw [get?_saved_slot, if_neg hauto.symm, get?_saved_slot, if_pos rfl]
  · rw [get?_saved_slot, if_pos rfl]
  · intro other hother hne
    rw [Stored.slot, get?_saved_slot, if_neg hother.symm, get?_saved_slot, if_neg hne.symm]
    rfl

theorem Stored.definitions_created (id : Identifier) (records : Records) :
    definitions (created id records) id = .default := by
  rw [definitions, get?_created_of_ne id records (by simp), ← definitions, definitions_store]
  exact Definitions.kept_of_finite Definitions.finite_default

/-- A story that has just been created has its initial values. -/
theorem Stored.store_created (hblank : ∀ part, records.get? (StoreKey.story id part).text = none) :
    (session (created id records) id).store = .ofDefinitions .default := by
  have hslot : slot (created id records) id Repository.autosaveSlot = none := by
    rw [slot, get?_created_of_ne id records (by simp),
      creation.get?_store_slot records _ (by simp [creation]), hblank]
    rfl
  rw [session, definitions_created, hslot]
  rfl

/-- A run may begin with saving the position of a new story. -/
theorem exists_saved {allowed : Records → Occasion → Prop}
    (hcreate : allowed .empty ⟨.createStory, none, ⟨1⟩, ⟨0.0⟩⟩) {name : String} (hname : name ≠ "")
    (hauto : name ≠ Repository.autosaveSlot)
    (hsave : allowed newStory ⟨.command ⟨1⟩ (.savePosition name), none, ⟨1⟩, ⟨0.0⟩⟩) :
    ∃ records position, Run allowed .empty records ∧ Stored.Registered records ⟨1⟩ ∧
      Stored.definitions records ⟨1⟩ = .default ∧ Stored.slot records ⟨1⟩ name = some position ∧
      position.values = (VariableStore.ofDefinitions .default).snapshot := by
  have hnow : (Instant.mk 0.0).Readable := Instant.readable_of_isFinite (by decide)
  obtain ⟨records, position, hrun, hlisted, hsame, hslot, -, hvalues, -⟩ :=
    (Run.newStory hcreate).next_save registered_newStory hnow hname hauto hsave
  refine ⟨records, position, hrun, hlisted, ?_, hslot, ?_⟩
  · exact hsame.trans (Stored.definitions_created ⟨1⟩ .empty)
  · rw [hvalues]
    exact congrArg VariableStore.snapshot (Stored.store_created fun _ => rfl)

end Narrative
