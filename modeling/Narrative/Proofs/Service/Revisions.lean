import Narrative.Proofs.Service.Bounded

/-!
# What commands do to variables

A command that changes the variables of a story stores definitions, saves a current position, or
does both.  There are four ways: an import that breaks off leaves its definitions behind, an edit
installs definitions, an import replaces the story, and a play action leads on.  Of a story that the
catalog does not list nothing is ever stored.
-/

namespace Narrative

variable {records : Records} {id : Identifier} {time : ℤ} {assets : Option Assets}
  {slots : String → Option SaveSlot} {session : Session}

/-- How a command comes to store definitions and to save the current position of a session. -/
inductive Command.Revises (assets : Option Assets) (time : ℤ) (slots : String → Option SaveSlot)
    (session : Session) : Command → Option Definitions → Option Session → Prop where
  | nothing {command : Command} : Revises assets time slots session command none none
  | leftover {command : Command} {definitions : Definitions}
      (h : command.leftover? assets = some definitions) :
      Revises assets time slots session command (some definitions) none
  | install {command : Command} {edit : DefinitionsEdit}
      (hids : edit.restarts = false → ∀ category,
        (edit.definitions.get category).map VariableDefinition.id =
          (session.store.definitions.get category).map VariableDefinition.id) :
      Revises assets time slots session command (some edit.definitions)
        (some (session.installed edit))
  | replace {command : Command} (graph : Graph) (definitions : Option Definitions) :
      Revises assets time slots session command definitions
        (some (session.replaced graph definitions))
  | play {command : Command} {action : PlayAction} {payload : Json.Fields} {result : Session}
      (hload : ∀ name, action = .load → PlayAction.slot payload = .text name → command.Loads name)
      (hleads : PlayAction.Leads payload time slots session action result) :
      Revises assets time slots session command none (some result)

/-- The last position that a plan saves is the current one of a session, if it saves any. -/
def Plan.EndsAt {α : Type} (plan : Plan α) (time : ℤ) : Option Session → Prop
  | none => plan.slots = []
  | some session => ∃ front,
      plan.slots = front ++ [(Repository.autosaveSlot, session.player.position time)]

/-- A plan stores definitions and saves a position in one of the ways of a command. -/
def Command.RevisedBy {α : Type} (command : Command) (assets : Option Assets) (time : ℤ)
    (slots : String → Option SaveSlot) (session : Session) (plan : Plan α) : Prop :=
  ∃ saved, command.Revises assets time slots session plan.definitions saved ∧ plan.EndsAt time saved

namespace Command

variable {command : Command}

theorem revisedBy_refused {α : Type} (failure : Failure) :
    command.RevisedBy assets time slots session (.refused failure : Plan α) :=
  ⟨none, .nothing, rfl⟩

theorem RevisedBy.map {α β : Type} {plan : Plan α}
    (h : command.RevisedBy assets time slots session plan) (f : α → β) :
    command.RevisedBy assets time slots session (plan.map f) := h

theorem revisedBy_nodePlan (key : String) (refusal : Failure) (edit : Graph → Option Graph) :
    command.RevisedBy assets time slots session (session.nodePlan key refusal edit) := by
  refine ⟨none, ?_, Session.slots_nodePlan key refusal edit⟩
  rw [Session.definitions_nodePlan]
  exact .nothing

theorem revisedBy_definitionsPlan (refusal : Failure) {edit : Definitions → Option DefinitionsEdit}
    (hids : ∀ result, edit session.store.definitions = some result → result.restarts = false →
      ∀ category, (result.definitions.get category).map VariableDefinition.id =
        (session.store.definitions.get category).map VariableDefinition.id) :
    command.RevisedBy assets time slots session (session.definitionsPlan time refusal edit) := by
  unfold Session.definitionsPlan
  cases hedit : edit session.store.definitions with
  | none => exact revisedBy_refused refusal
  | some result => exact ⟨_, .install (hids result hedit), [], rfl⟩

theorem revisedBy_importPlan (refusal : Failure) {document : Json.Fields}
    (hleftover : ∀ definitions, halfImported document = some definitions →
      command.leftover? assets = some definitions) :
    command.RevisedBy assets time slots session
      (session.importPlan time refusal document) := by
  cases houtcome : (session.importPlan time refusal document).outcome with
  | ok answer =>
    obtain ⟨graph, hplan⟩ := Session.importPlan_of_ok houtcome
    rw [hplan]
    exact ⟨_, .replace graph _, [], rfl⟩
  | error failure =>
    rw [Session.importPlan_of_error houtcome]
    cases hdefinitions : halfImported document with
    | none => exact ⟨none, .nothing, rfl⟩
    | some definitions => exact ⟨none, .leftover (hleftover definitions hdefinitions), rfl⟩

theorem revisedBy_actionPlan {action : PlayAction} {payload : Json.Fields}
    (hload : ∀ name, action = .load → PlayAction.slot payload = .text name → command.Loads name) :
    command.RevisedBy assets time slots session (actionPlan time payload slots session action) := by
  unfold actionPlan PlayAction.autosaved
  cases houtcome : (action.plan payload time slots session).outcome with
  | error failure => exact revisedBy_refused failure
  | ok found =>
    obtain ⟨result, position⟩ := found
    refine ⟨some result, ?_, _, rfl⟩
    simp only [(action.plan_only_saves payload slots).1]
    exact .play hload (PlayAction.leads_of_plan houtcome)

/-- Every command stores definitions and saves a position in one of its ways. -/
theorem revisedBy_plan (command : Command) : command.RevisedBy assets time slots session
    (command.plan assets time session slots) := by
  cases command with
  | importStory document =>
    apply RevisedBy.map
    exact revisedBy_importPlan _ fun _ h => h
  | loadDemo =>
    cases assets with
    | none => exact revisedBy_refused _
    | some assets =>
      apply RevisedBy.map
      exact revisedBy_importPlan _ fun _ h => h
  | createNode => exact ⟨none, .nothing, rfl⟩
  | removeNode node =>
    simp only [plan, Session.removalPlan]
    split
    · exact ⟨none, .nothing, rfl⟩
    · exact revisedBy_refused _
  | patchNode | addChoice | patchChoice | removeChoice | patchCondition | addOperation
  | patchOperation | removeOperation => exact RevisedBy.map (revisedBy_nodePlan _ _ _) _
  | addVariable category request =>
    apply RevisedBy.map
    refine revisedBy_definitionsPlan _ fun result hresult hkeeps => ?_
    exact absurd (Definitions.restarts_of_add hresult) (by simp [hkeeps])
  | removeVariable category name =>
    apply RevisedBy.map
    refine revisedBy_definitionsPlan _ fun result hresult hkeeps => ?_
    exact absurd (Definitions.restarts_of_remove hresult) (by simp [hkeeps])
  | patchVariable category name patch =>
    apply RevisedBy.map
    split
    · exact revisedBy_refused _
    · -- A patch that renames starts the variables anew; any other keeps the identifiers.
      exact revisedBy_definitionsPlan _ fun _ hresult hkeeps =>
        Definitions.ids_of_patch hresult hkeeps
  | play name payload =>
    simp only [plan]
    split
    case h_1 action haction =>
      apply RevisedBy.map
      exact revisedBy_actionPlan fun slot hload hslot => ⟨hload ▸ haction, hslot⟩
    case h_2 => exact revisedBy_refused _
  | savePosition slot =>
    apply RevisedBy.map
    exact revisedBy_actionPlan fun _ hload => absurd hload (by simp)

end Command

/-- The current position after a plan is the one that it saves last, or else the one before it. -/
theorem Plan.slot_of_endsAt {α : Type} {plan : Plan α} {saved : Option Session}
    (hends : plan.EndsAt time saved) (htimely : plan.Timely) {position : SaveSlot}
    (h : Stored.slot (plan.store id records) id Repository.autosaveSlot = some position) :
    match saved with
    | none => Stored.slot records id Repository.autosaveSlot = some position
    | some session => position = session.player.position time := by
  cases saved with
  | none =>
    have hslots : plan.slots = [] := hends
    rwa [Stored.slot, plan.get?_store_slot records _ (by simp [hslots])] at h
  | some session =>
    obtain ⟨front, hslots⟩ := hends
    have hsaved : (session.player.position time).Timely :=
      htimely (Repository.autosaveSlot, session.player.position time) (by simp [hslots])
    rw [Stored.slot, plan.get?_store_last records hslots, Option.bind_some] at h
    exact (Repository.eq_of_parsedSlot hsaved h).1

/-- A request stores nothing of a story that the catalog does not list afterwards. -/
theorem Step.blank {fresh : Identifier} {request : Request}
    {result : Except Failure Reply × Records}
    (h : Step assets fresh time records request result) (hkept : Kept records)
    (hblank : ¬Stored.Registered records id →
      ∀ part, records.get? (StoreKey.story id part).text = none)
    (hmissing : ¬Stored.Registered result.2 id) (part : StoryKey) :
    result.2.get? (StoreKey.story id part).text = none := by
  have hbefore : ¬Stored.Registered records id := fun hlisted =>
    hmissing (h.registered hkept hlisted)
  rw [← hblank hbefore part]
  cases h with
  | look | refuse => rfl
  | create =>
    have hid : fresh ≠ id := fun heq =>
      hmissing ((registered_created hkept fresh id).2 (Or.inr heq.symm))
    rw [get?_created_of_ne _ _ (by simp), Plan.get?_store_story _ _ hid]
  | change changed command _ hlisted =>
    have hid : changed ≠ id := fun heq => hbefore (heq ▸ hlisted)
    exact Plan.get?_store_story _ _ hid part

/-- Of a story that the catalog does not list nothing is stored. -/
theorem Reachable.blank (h : Reachable records) (hmissing : ¬Stored.Registered records id) :
    ∀ part, records.get? (StoreKey.story id part).text = none := by
  induction h with
  | start => exact fun _ => rfl
  | next h occasion hnow _ ih =>
    obtain ⟨time, htime⟩ := hnow
    exact (Request.step (Reachable.kept h) htime occasion.assets occasion.fresh
      occasion.request).blank (Reachable.kept h) ih hmissing

end Narrative
