import Narrative.Proofs.Service.Installed
import Narrative.Proofs.Variable.Within

/-!
# Live values stay within bounds

As long as proper definitions are put in force only, the values of every story stay between their
bounds, with one exception: a position is restored as it was saved, so a slot that was saved under
other definitions can bring back values that the definitions in force do not admit.
-/

namespace Narrative

variable {records : Records} {id : Identifier} {now : Instant} {time : ℤ}

/-- The command goes to the position in the slot. -/
def Command.Loads (name : String) : Command → Prop
  | play action payload =>
    PlayAction.ofName? action = some .load ∧ PlayAction.slot payload = .text name
  | _ => False

theorem Command.eq_of_loads {slot name : String} (hslot : slot ≠ "")
    (h : (play PlayAction.load.name [("slot", .str slot)]).Loads name) : slot = name := by
  rw [Loads, PlayAction.slot_str hslot] at h
  exact Label.text.inj h.2

/-- New stories get new identifiers, and all definitions that are put in force are proper. -/
structure Occasion.Proper (records : Records) (occasion : Occasion) : Prop where
  fresh : occasion.request = .createStory → ¬Stored.Registered records occasion.fresh
  definitions : ∀ id command definitions, occasion.request = .command id command →
    Stored.Registered records id →
    command.installed? occasion.assets (Stored.definitions records id) = some definitions →
    definitions.Proper

/-- Besides, no import breaks half-way, and a position that has been saved to a slot is loaded only
if it has a value between the bounds of every definition in force. -/
structure Occasion.Careful (records : Records) (occasion : Occasion) : Prop
    extends Occasion.Proper records occasion where
  whole : ∀ id command, occasion.request = .command id command → Stored.Registered records id →
    command.leftover? occasion.assets = none
  admitted : ∀ id command name position, occasion.request = .command id command →
    Stored.Registered records id → command.Loads name → name ≠ Repository.autosaveSlot →
    Stored.slot records id name = some position →
    (Stored.definitions records id).Admit position.values

namespace Stored

theorem store_congr {other : Records} (hdefinitions : definitions other id = definitions records id)
    (hslot : slot other id Repository.autosaveSlot = slot records id Repository.autosaveSlot) :
    (session other id).store = (session records id).store := by
  unfold session
  rw [hdefinitions, hslot]
  cases slot records id Repository.autosaveSlot <;> rfl

/-- The variables of a story whose position was saved last are the saved ones. -/
theorem store_eq_of_saved {store : VariableStore} {position : SaveSlot} (h : position.Readable)
    (hvalues : position.values = store.snapshot)
    (hdefinitions : definitions records id = store.definitions)
    (htext : records.get? (StoreKey.story id (.slot Repository.autosaveSlot)).text =
      some position.toJson.text) : (session records id).store = store := by
  unfold session
  rw [slot_of_text h htext, hdefinitions]
  change VariableStore.restore _ position.values = _
  rw [hvalues, VariableStore.restore_snapshot]
  rfl

/-- The current position of a story within bounds can be loaded at any time. -/
theorem admit_of_within (h : (session records id).store.Within) {position : SaveSlot}
    (hslot : slot records id Repository.autosaveSlot = some position) :
    (definitions records id).Admit position.values := by
  intro category definition hdefinition
  rw [← definitions_session] at hdefinition
  obtain ⟨value, hvalue, hadmits⟩ := h.admitted category definition hdefinition
  have hvalues : (session records id).store.values.get category =
      (position.values.get? category).getD .empty := by
    rw [session, hslot]
    exact VariableStore.values_restore _ position.values category
  rw [hvalues] at hvalue
  cases hgroup : position.values.get? category with
  | none => exact absurd hvalue (by simp [hgroup, Table.get?_empty])
  | some group =>
    rw [hgroup, Option.getD_some] at hvalue
    exact ⟨group, value, rfl, hvalue, hadmits⟩

end Stored

namespace Plan

variable {α : Type}

/-- A plan that puts nothing in force and saves no position leaves the variables alone. -/
theorem store_session_of_nothing {plan : Plan α} (hdefinitions : plan.definitions = none)
    (hslots : plan.slots = []) :
    (Stored.session (plan.store id records) id).store = (Stored.session records id).store := by
  apply Stored.store_congr
  · rw [Stored.definitions_store, hdefinitions]
    rfl
  · rw [Stored.slot, Stored.slot, plan.get?_store_slot records _ (by simp [hslots])]

/-- The variables after a plan are those of the position that it saves last. -/
theorem within_store (plan : Plan α) (front : List (String × SaveSlot)) {result : Session}
    (htime : ShortTime time) (hfinite : result.store.Finite)
    (hhistory : ShortTimes result.place.history)
    (hdefinitions : (plan.definitions.map Definitions.kept).getD (Stored.definitions records id) =
      result.store.definitions)
    (hslots : plan.slots = front ++ [(Repository.autosaveSlot, result.player.position time)])
    (hwithin : result.store.Within) :
    (Stored.session (plan.store id records) id).store.Within := by
  have hsaved : (Stored.session (plan.store id records) id).store = result.store := by
    refine Stored.store_eq_of_saved
      ⟨Session.timely_position result hhistory htime, hfinite.snapshot⟩ rfl ?_
      (plan.get?_store_last records hslots)
    rw [Stored.definitions_store, hdefinitions]
  rwa [hsaved]

end Plan

/-! ## One command -/

namespace Session

variable {session : Session}

theorem within_installed (h : session.store.Within) {edit : DefinitionsEdit}
    (hedit : edit.definitions.Proper)
    (hold : edit.restarts = false → ∀ category, ∀ definition ∈ edit.definitions.get category,
      ∃ old ∈ session.store.definitions.get category, old.id = definition.id) :
    (session.installed edit).store.Within := by
  unfold installed
  simp only
  split
  case isTrue => exact VariableStore.within_ofDefinitions hedit
  case isFalse hkeeps => exact h.withDefinitions hedit (hold (by simpa using hkeeps))

end Session

/-- Every edit of the definitions leaves the variables within bounds. -/
theorem within_definitionsPlan (h : Kept records)
    (hwithin : (Stored.session records id).store.Within) (htime : ShortTime time)
    (refusal : Failure) {edit : Definitions → Option DefinitionsEdit}
    (hproper : ∀ result, edit (Stored.definitions records id) = some result →
      result.definitions.Proper)
    (hold : ∀ result, edit (Stored.definitions records id) = some result →
      result.restarts = false → ∀ category, ∀ definition ∈ result.definitions.get category,
        ∃ old ∈ (Stored.definitions records id).get category, old.id = definition.id) :
    (Stored.session (((Stored.session records id).definitionsPlan time refusal edit).store id
      records) id).store.Within := by
  have hsound := Stored.sound_session h id
  rw [← Stored.definitions_session] at hproper hold
  unfold Session.definitionsPlan
  cases hedit : edit (Stored.session records id).store.definitions with
  | none =>
    rw [Plan.store_refused]
    exact hwithin
  | some result =>
    have hresult := hproper result hedit
    have hdefinitions : (some result.definitions.kept).getD (Stored.definitions records id) =
        ((Stored.session records id).installed result).store.definitions := by
      rw [Session.definitions_installed]
      exact Definitions.kept_of_finite hresult.finite
    exact Plan.within_store _ [] htime (Session.finite_installed hsound.store hresult.finite)
      hsound.history hdefinitions rfl (Session.within_installed hwithin hresult (hold result hedit))

/-- An import that goes through puts its definitions in force and starts anew. -/
theorem Session.importPlan_of_ok {session : Session} {refusal : Failure} {document : Json.Fields}
    {answer : Json} (h : (session.importPlan time refusal document).outcome = .ok answer) :
    ∃ graph, session.importPlan time refusal document = {
      definitions := definitionsOf document
      graph := some graph
      slots := [(Repository.autosaveSlot,
        (session.replaced graph (definitionsOf document)).player.position time)]
      outcome := .ok graph.toJson } := by
  unfold importPlan definitionsOf at *
  cases hfound : imported (.obj document) with
  | none => simp [hfound, Plan.refused] at h
  | some found =>
    obtain ⟨draft, definitions⟩ := found
    simp only [hfound] at h ⊢
    cases hgraph : draft.storable with
    | error failure =>
      simp only [hgraph] at h
      split at h <;> simp_all [Plan.refused]
    | ok graph =>
      refine ⟨graph, ?_⟩
      rcases definitions with - | definitions
      · rfl
      · cases htorn : definitions.torn with
        | some points => simp [hgraph, htorn, Plan.refused] at h
        | none => simp [htorn, storable_of_not_torn htorn, Except.toOption]

/-- Every import leaves the variables within bounds. -/
theorem within_importPlan (hwithin : (Stored.session records id).store.Within)
    (htime : ShortTime time) (refusal : Failure) {document : Json.Fields}
    (hproper : ∀ definitions, definitionsOf document = some definitions → definitions.Proper)
    (hwhole : halfImported document = none) :
    (Stored.session (((Stored.session records id).importPlan time refusal document).store id
      records) id).store.Within := by
  cases houtcome : ((Stored.session records id).importPlan time refusal document).outcome with
  | error failure =>
    rw [Session.importPlan_of_error houtcome, hwhole]
    exact hwithin
  | ok answer =>
    obtain ⟨graph, hplan⟩ := Session.importPlan_of_ok houtcome
    have hdefinitions : ((definitionsOf document).map Definitions.kept).getD
        (Stored.definitions records id) =
        (definitionsOf document).getD (Stored.session records id).store.definitions := by
      cases hfound : definitionsOf document with
      | none => exact (Stored.definitions_session records id).symm
      | some definitions => exact Definitions.kept_of_finite (hproper definitions hfound).finite
    have hforce : ((definitionsOf document).getD
        (Stored.session records id).store.definitions).Proper := by
      cases hfound : definitionsOf document with
      | none => exact hwithin.proper
      | some definitions => exact hproper definitions hfound
    have hstore := (Stored.session records id).store_replaced graph (definitionsOf document)
    rw [hplan]
    refine Plan.within_store _ [] htime ?_ ?_ ?_ rfl ?_
    · rw [hstore]
      exact VariableStore.finite_ofDefinitions hforce.finite
    · simp [Session.history_replaced, ShortTimes]
    · rw [hstore]
      exact hdefinitions
    · rw [hstore]
      exact VariableStore.within_ofDefinitions hforce

namespace Session

variable {session : Session}

/-- A step of play leaves the variables within bounds, if a position that it goes to admits it. -/
theorem within_leads (h : session.store.Within) {payload : Json.Fields}
    {slots : String → Option SaveSlot} {action : PlayAction}
    (hadmitted : ∀ name position, action = .load → PlayAction.slot payload = .text name →
      slots name = some position → session.store.definitions.Admit position.values)
    {result : Session} (hresult : PlayAction.Leads payload time slots session action result) :
    result.store.Within := by
  cases hresult with
  | stay => exact h
  | restart => exact h.reset
  | execute choice => exact h.foldl_perform choice.operations
  | jump hjump =>
    change VariableStore.Within (Player.store _)
    rw [PlayAction.store_of_jump? hjump]
    exact h
  | resume hload hname hslot => exact h.restore (hadmitted _ _ hload hname hslot)

end Session

namespace Command

theorem within_actionPlan (h : Kept records) (hwithin : (Stored.session records id).store.Within)
    (hnow : now.millis = .ok time) {payload : Json.Fields} {action : PlayAction}
    (hadmitted : ∀ name position, action = .load → PlayAction.slot payload = .text name →
      Stored.slot records id name = some position →
      (Stored.definitions records id).Admit position.values) :
    (Stored.session ((actionPlan time payload (Stored.slot records id) (Stored.session records id)
      action).store id records) id).store.Within := by
  rw [← Stored.definitions_session] at hadmitted
  unfold actionPlan
  cases houtcome : (action.plan payload time (Stored.slot records id)
      (Stored.session records id)).outcome with
  | error failure =>
    rw [PlayAction.plan_of_error houtcome]
    exact hwithin
  | ok found =>
    obtain ⟨result, position⟩ := found
    rw [session_of_autosaved h hnow houtcome]
    exact Session.within_leads hwithin hadmitted (PlayAction.leads_of_plan houtcome)

/-- A command leaves the variables of its story within bounds. -/
theorem within_plan (h : Kept records) (hwithin : (Stored.session records id).store.Within)
    (hnow : now.millis = .ok time) {assets : Option Assets} {command : Command}
    (hproper : ∀ definitions,
      command.installed? assets (Stored.definitions records id) = some definitions →
      definitions.Proper)
    (hwhole : command.leftover? assets = none)
    (hadmitted : ∀ name position, command.Loads name →
      Stored.slot records id name = some position →
      (Stored.definitions records id).Admit position.values) :
    (Stored.session ((command.plan assets time (Stored.session records id)
      (Stored.slot records id)).store id records) id).store.Within := by
  have htime := shortTime_of_millis hnow
  have hnode (key : String) (refusal : Failure) (edit : Graph → Option Graph) :
      (Stored.session (((Stored.session records id).nodePlan key refusal edit).store id
        records) id).store.Within := by
    rw [Plan.store_session_of_nothing (Session.definitions_nodePlan key refusal edit)
      (Session.slots_nodePlan key refusal edit)]
    exact hwithin
  have hdefinitions {refusal : Failure} {edit : Definitions → Option DefinitionsEdit}
      (hedit : (edit (Stored.definitions records id)).map DefinitionsEdit.definitions =
        command.installed? assets (Stored.definitions records id))
      (hold : ∀ result, edit (Stored.definitions records id) = some result →
        result.restarts = false → ∀ category, ∀ definition ∈ result.definitions.get category,
          ∃ old ∈ (Stored.definitions records id).get category, old.id = definition.id) :
      (Stored.session (((Stored.session records id).definitionsPlan time refusal edit).store id
        records) id).store.Within := by
    refine within_definitionsPlan h hwithin htime refusal (fun result hresult => ?_) hold
    exact hproper _ (by rw [← hedit, hresult]; rfl)
  cases command with
  | importStory document =>
    rw [plan, Plan.store_map]
    exact within_importPlan hwithin htime _ hproper hwhole
  | loadDemo =>
    cases assets with
    | none => exact hwithin
    | some assets =>
      simp only [plan, Assets.require]
      rw [Plan.store_map]
      exact within_importPlan hwithin htime _ hproper hwhole
  | createNode =>
    rw [plan, Plan.store_map, Plan.store_session_of_nothing rfl rfl]
    exact hwithin
  | removeNode node =>
    rw [plan, Plan.store_map, Session.removalPlan]
    cases (Stored.session records id).graph.removeNode node with
    | none => exact hwithin
    | some graph =>
      rw [Plan.store_session_of_nothing rfl rfl]
      exact hwithin
  | patchNode | addChoice | patchChoice | removeChoice | patchCondition | addOperation
  | patchOperation | removeOperation =>
    rw [plan, Plan.store_map]
    exact hnode _ _ _
  | addVariable category request =>
    rw [plan, Plan.store_map]
    exact hdefinitions rfl fun result hresult hkeeps =>
      absurd (Definitions.restarts_of_add hresult) (by simp [hkeeps])
  | removeVariable category name =>
    rw [plan, Plan.store_map]
    exact hdefinitions rfl fun result hresult hkeeps =>
      absurd (Definitions.restarts_of_remove hresult) (by simp [hkeeps])
  | patchVariable category name patch =>
    rw [plan, Plan.store_map]
    split
    · exact hwithin
    · exact hdefinitions rfl fun result hresult hkeeps =>
        Definitions.old_of_patch hresult hkeeps
  | play name payload =>
    simp only [plan]
    split
    case h_1 action haction =>
      rw [Plan.store_map]
      refine within_actionPlan h hwithin hnow fun slot position hload hslot hposition => ?_
      exact hadmitted slot position ⟨hload ▸ haction, hslot⟩ hposition
    case h_2 => exact hwithin
  | savePosition slot =>
    rw [plan, Plan.store_map]
    exact within_actionPlan h hwithin hnow fun _ _ hload => absurd hload (by simp)

end Command

/-! ## Whole runs -/

/-- The variables of every story are within bounds, and nothing is stored of a story that the
catalog does not list. -/
structure Orderly (records : Records) : Prop where
  within : ∀ id, Stored.Registered records id → (Stored.session records id).store.Within
  blank : ∀ id, ¬Stored.Registered records id →
    ∀ part, records.get? (StoreKey.story id part).text = none

theorem orderly_empty : Orderly .empty where
  within := fun _ hlisted => absurd hlisted List.not_mem_nil
  blank := fun _ _ _ => rfl

theorem Definitions.proper_initial : Definitions.default.Proper where
  proper := proper_default
  nodup := by
    intro category
    cases category <;> decide

theorem Orderly.created (h : Orderly records) (hkept : Kept records)
    (hnew : ¬Stored.Registered records id) : Orderly (created id records) := by
  have hother {other : Identifier} (hid : other ≠ id) (part : StoryKey) :
      (Narrative.created id records).get? (StoreKey.story other part).text =
        records.get? (StoreKey.story other part).text := by
    rw [get?_created_of_ne _ _ (by simp), Plan.get?_store_story _ _ (Ne.symm hid)]
  refine ⟨fun other hlisted => ?_, fun other hmissing part => ?_⟩
  · by_cases hid : other = id
    · rw [hid, Stored.store_created (h.blank id hnew)]
      exact VariableStore.within_ofDefinitions Definitions.proper_initial
    · rw [Stored.session_congr (hother hid)]
      exact h.within other (((registered_created hkept _ _).1 hlisted).resolve_right hid)
  · rw [registered_created hkept, not_or] at hmissing
    rw [hother hmissing.2]
    exact h.blank other hmissing.1 part

theorem Orderly.store {α : Type} {plan : Plan α} (h : Orderly records)
    (hlisted : Stored.Registered records id)
    (hwithin : (Stored.session (plan.store id records) id).store.Within) :
    Orderly (plan.store id records) := by
  refine ⟨fun other hother => ?_, fun other hmissing part => ?_⟩
  · rw [Plan.registered_store] at hother
    by_cases hid : id = other
    · exact hid ▸ hwithin
    · rw [Stored.session_congr (plan.get?_store_story records hid)]
      exact h.within other hother
  · rw [Plan.registered_store] at hmissing
    have hid : id ≠ other := fun e => hmissing (e ▸ hlisted)
    rw [plan.get?_store_story records hid]
    exact h.blank other hmissing part

/-- A request that is made with care leaves the variables of all stories within bounds. -/
theorem Step.orderly {occasion : Occasion} {result : Except Failure Reply × Records}
    (h : Step occasion.assets occasion.fresh time records occasion.request result)
    (hkept : Kept records) (hnow : now.millis = .ok time)
    (hcareful : Occasion.Careful records occasion) (horderly : Orderly records) :
    Orderly result.2 := by
  obtain ⟨request, assets, fresh, now⟩ := occasion
  cases h with
  | look | refuse => exact horderly
  | create => exact horderly.created hkept (hcareful.fresh rfl)
  | change id command hfree hlisted =>
    apply horderly.store hlisted
    apply Command.within_plan hkept (horderly.within id hlisted) hnow
    · exact fun definitions => hcareful.definitions id command definitions rfl hlisted
    · exact hcareful.whole id command rfl hlisted
    · intro name position hloads hslot
      by_cases hname : name = Repository.autosaveSlot
      · exact Stored.admit_of_within (horderly.within id hlisted) (hname ▸ hslot)
      · exact hcareful.admitted id command name position rfl hlisted hloads hname hslot

theorem Run.orderly (h : Run Occasion.Careful .empty records) : Orderly records := by
  induction h with
  | start => exact orderly_empty
  | next h occasion hnow hallowed ih =>
    obtain ⟨time, htime⟩ := hnow
    have hkept := h.kept kept_empty
    exact (Request.step hkept htime occasion.assets occasion.fresh occasion.request).orderly hkept
      htime hallowed ih

/-- After every careful run every story opens with all its values between their bounds. -/
theorem within_bounds_of_run (h : Run Occasion.Careful .empty records)
    (hlisted : Stored.Registered records id) :
    ∃ session, (Session.openStory id.spelling true).run records = (.ok session, records) ∧
      ∀ category, ∀ definition ∈ session.store.definitions.get category,
        definition.min ≤ session.store.get category definition.id ∧
          session.store.get category definition.id ≤ definition.max := by
  refine ⟨Stored.session records id,
    Session.openStory_of_registered (h.kept kept_empty) hlisted, ?_⟩
  intro category definition hdefinition
  exact (h.orderly.within id hlisted).get hdefinition

theorem careful_createStory :
    Occasion.Careful .empty ⟨.createStory, none, ⟨1⟩, ⟨0.0⟩⟩ where
  fresh := fun _ => List.not_mem_nil
  definitions := fun _ _ _ h => nomatch h
  whole := fun _ _ h => nomatch h
  admitted := fun _ _ _ _ h => nomatch h

theorem proper_command {assets : Option Assets} {command : Command}
    (h : ∀ definitions,
      command.installed? assets (Stored.definitions records id) = some definitions →
      definitions.Proper) (fresh : Identifier) (now : Instant) :
    Occasion.Proper records ⟨.command id command, assets, fresh, now⟩ where
  fresh := by
    intro hcreate
    cases hcreate
  definitions := by
    intro other wanted definitions hrequest _ hinstalled
    cases hrequest
    exact h definitions hinstalled

theorem careful_command {assets : Option Assets} {command : Command}
    (hproper : ∀ definitions,
      command.installed? assets (Stored.definitions records id) = some definitions →
      definitions.Proper)
    (hwhole : command.leftover? assets = none)
    (hadmitted : ∀ name position, command.Loads name → name ≠ Repository.autosaveSlot →
      Stored.slot records id name = some position →
      (Stored.definitions records id).Admit position.values) (fresh : Identifier) (now : Instant) :
    Occasion.Careful records ⟨.command id command, assets, fresh, now⟩ where
  toProper := proper_command hproper fresh now
  whole := by
    intro other wanted hrequest _
    cases hrequest
    exact hwhole
  admitted := by
    intro other wanted name position hrequest _
    cases hrequest
    exact hadmitted name position

/-- Half of the health, now and at the start. -/
def halving : DefinitionPatch := { initial := some 50.0, max := some 50.0 }

/-- The definition of the health with half of it. -/
def halvedHealth : VariableDefinition :=
  { VariableDefinition.percentage "health" "Health" 50.0 with max := 50.0 }

theorem proper_halvedHealth : halvedHealth.Proper :=
  ⟨⟨by decide, by decide, by decide⟩, by decide, by decide⟩

/-- Definitions of a single variable are proper if its definition is. -/
theorem Definitions.proper_singleton {definition : VariableDefinition} (h : definition.Proper) :
    Definitions.Proper ⟨[definition], [], []⟩ where
  proper := by
    intro category other hother
    cases category with
    | physiological => rwa [List.mem_singleton.1 hother]
    | emotional | difficulty => exact absurd hother List.not_mem_nil
  nodup := by
    intro category
    cases category with
    | physiological => exact List.nodup_singleton _
    | emotional | difficulty => exact List.nodup_nil

/-- A story with the health as its only variable. -/
def healthStory : Json.Fields :=
  [("nodes", .obj [("start", .obj [])]),
    ("variableDefinitions", .obj [("physiological", .arr [.obj [("id", .str "health"),
      ("name", .str "Health"), ("initial", .num 80.0)]])])]

/-- The story is imported into a new one, and half of the health is taken away. -/
theorem exists_halvedHealth : ∃ records, Run Occasion.Careful .empty records ∧
    Stored.Registered records ⟨1⟩ ∧ Stored.definitions records ⟨1⟩ = ⟨[halvedHealth], [], []⟩ := by
  have hnow : (Instant.mk 0.0).Readable := Instant.readable_of_isFinite (by decide)
  have himport : Occasion.Careful newStory
      ⟨.command ⟨1⟩ (.importStory healthStory), none, ⟨1⟩, ⟨0.0⟩⟩ := by
    refine careful_command ?_ rfl (by simp [Command.Loads]) ⟨1⟩ ⟨0.0⟩
    rintro definitions ⟨⟩
    exact Definitions.proper_singleton
      ⟨⟨by decide, by decide, by decide⟩, by decide, by decide⟩
  obtain ⟨imported, hrun, hlisted, hdefinitions, -⟩ :=
    (Run.newStory careful_createStory).next_command registered_newStory hnow himport
  have hhalved : (Command.patchVariable .physiological "health" halving).installed? none
      (Stored.definitions imported ⟨1⟩) = some ⟨[halvedHealth], [], []⟩ := by
    rw [hdefinitions]
    rfl
  have hproper := Definitions.proper_singleton proper_halvedHealth
  obtain ⟨patched, hrun, hlisted, hdefinitions, -⟩ := hrun.next_command hlisted hnow
    (careful_command (fun definitions h => by rwa [← Option.some.inj (hhalved.symm.trans h)]) rfl
      (by simp [Command.Loads]) ⟨1⟩ ⟨0.0⟩)
  rw [hhalved, Option.map_some, Option.getD_some, Definitions.kept_of_finite hproper.finite]
    at hdefinitions
  exact ⟨patched, hrun, hlisted, hdefinitions⟩

/-- The position in that story is saved and loaded again. -/
theorem within_bounds_of_run_loaded :
    ∃ records, Run Occasion.Careful .empty records ∧ Stored.Registered records ⟨1⟩ ∧
      ∃ session, (Session.openStory (Identifier.mk 1).spelling true).run records =
          (.ok session, records) ∧
        session.store.definitions = ⟨[halvedHealth], [], []⟩ ∧
        0.0 ≤ session.store.get .physiological "health" ∧
        session.store.get .physiological "health" ≤ 50.0 := by
  have hnow : (Instant.mk 0.0).Readable := Instant.readable_of_isFinite (by decide)
  obtain ⟨records, hrun, hlisted, hdefinitions⟩ := exists_halvedHealth
  obtain ⟨saved, position, hrun, hlisted, hsame, hslot, hauto, -⟩ := hrun.next_save hlisted hnow
    (by decide : "s1" ≠ "") (by decide)
    (careful_command (by simp [Command.installed?]) rfl (by simp [Command.Loads]) ⟨1⟩ ⟨0.0⟩)
  have hadmit := Stored.admit_of_within (hrun.orderly.within ⟨1⟩ hlisted) hauto
  have hload : Occasion.Careful saved
      ⟨.command ⟨1⟩ (.play PlayAction.load.name [("slot", .str "s1")]), none, ⟨1⟩, ⟨0.0⟩⟩ := by
    refine careful_command (by simp [Command.installed?]) rfl ?_ ⟨1⟩ ⟨0.0⟩
    intro name found hloads _ hfound
    obtain rfl := Command.eq_of_loads (by decide) hloads
    rwa [← Option.some.inj (hslot.symm.trans hfound)]
  obtain ⟨loaded, hrun, hlisted, hfinal, -⟩ := hrun.next_command hlisted hnow hload
  obtain ⟨session, hopen, hbounds⟩ := within_bounds_of_run hrun hlisted
  have hforce : session.store.definitions = ⟨[halvedHealth], [], []⟩ := by
    rw [Session.openStory_of_registered (hrun.kept kept_empty) hlisted] at hopen
    rw [← Except.ok.inj (Prod.mk.inj hopen).1, Stored.definitions_session, hfinal]
    exact hsame.trans hdefinitions
  have hmem : halvedHealth ∈ session.store.definitions.get .physiological := by
    rw [hforce]
    exact List.mem_singleton_self _
  have hhealth := hbounds .physiological halvedHealth hmem
  exact ⟨loaded, hrun, hlisted, session, hopen, hforce, hhealth⟩

/-- The definitions of a new story with half of the health. -/
def halvedDefinitions : Definitions :=
  Definitions.default.set .physiological [halvedHealth,
    .percentage "energy" "Energy" 100.0, .percentage "hunger" "Hunger" 0.0]

theorem patch_halving : Definitions.default.patch .physiological "health" halving =
    some ⟨halvedDefinitions, false⟩ := by
  simp [Definitions.patch, Definitions.default, Categorized.get, List.findIdx?_cons,
    VariableDefinition.percentage, halving, DefinitionPatch.apply, halvedDefinitions, halvedHealth]

theorem proper_halvedDefinitions : halvedDefinitions.Proper where
  proper := by
    intro category
    rw [halvedDefinitions, Categorized.get_set]
    split
    · have hdefault := Definitions.proper_default .physiological
      simp only [Definitions.default, Categorized.get, List.forall_mem_cons] at hdefault ⊢
      exact ⟨proper_halvedHealth, hdefault.2⟩
    · exact Definitions.proper_default category
  nodup := by
    intro category
    cases category <;> decide

/-- A new story whose position has been saved, with half of the health. -/
theorem exists_halved : ∃ records position, Run Occasion.Proper .empty records ∧
    Stored.Registered records ⟨1⟩ ∧ Stored.definitions records ⟨1⟩ = halvedDefinitions ∧
    Stored.slot records ⟨1⟩ "s1" = some position ∧
    position.values = (VariableStore.ofDefinitions .default).snapshot := by
  have hnow : (Instant.mk 0.0).Readable := Instant.readable_of_isFinite (by decide)
  obtain ⟨records, position, hrun, hlisted, hdefault, hslot, hvalues⟩ :=
    exists_saved careful_createStory.toProper (by decide : "s1" ≠ "") (by decide)
      (proper_command (by simp [Command.installed?]) ⟨1⟩ ⟨0.0⟩)
  have hhalved : (Command.patchVariable .physiological "health" halving).installed? none
      (Stored.definitions records ⟨1⟩) = some halvedDefinitions := by
    rw [Command.installed?, hdefault, patch_halving]
    rfl
  have hproper : ∀ definitions, (Command.patchVariable .physiological "health" halving).installed?
      none (Stored.definitions records ⟨1⟩) = some definitions → definitions.Proper := by
    intro definitions h
    rw [← Option.some.inj (hhalved.symm.trans h)]
    exact proper_halvedDefinitions
  obtain ⟨after, hrun, hlisted, hdefinitions, hslots⟩ :=
    hrun.next_command hlisted hnow (proper_command hproper ⟨1⟩ ⟨0.0⟩)
  rw [hhalved, Option.map_some, Option.getD_some,
    Definitions.kept_of_finite proper_halvedDefinitions.finite] at hdefinitions
  exact ⟨after, position, hrun, hlisted, hdefinitions, (hslots _ (by decide) id).trans hslot,
    hvalues⟩

/-- Proper definitions alone do not keep the values within bounds: a position may be loaded that was
saved under wider bounds. -/
theorem not_within_bounds_of_proper :
    ¬∀ (records : Records) (id : Identifier), Run Occasion.Proper .empty records →
      Stored.Registered records id →
      ∃ session, (Session.openStory id.spelling true).run records = (.ok session, records) ∧
        ∀ category, ∀ definition ∈ session.store.definitions.get category,
          definition.min ≤ session.store.get category definition.id ∧
            session.store.get category definition.id ≤ definition.max := by
  intro hclaim
  obtain ⟨records, position, hrun, hlisted, hdefinitions, hslot, hvalues⟩ := exists_halved
  have hnow : (Instant.mk 0.0).Readable := Instant.readable_of_isFinite (by decide)
  have hproper : Occasion.Proper records
      ⟨.command ⟨1⟩ (.play PlayAction.load.name [("slot", .str "s1")]), none, ⟨1⟩, ⟨0.0⟩⟩ :=
    proper_command (by simp [Command.installed?]) ⟨1⟩ ⟨0.0⟩
  have hloaded := hrun.dispatch hnow none ⟨1⟩ hproper
  have hreach := hrun.reachable Run.start
  have hstays := registered_dispatch hreach hnow hlisted PlayAction.load.name [("slot", .str "s1")]
  obtain ⟨time, htime⟩ := hnow
  obtain ⟨final, hload, hfinal⟩ := run_dispatch_load hreach.kept (hreach.not_held ⟨1⟩) hlisted htime
    (PlayAction.slot_str (by decide)) hslot
  rw [hload] at hloaded hstays
  obtain ⟨session, hopen, hbounds⟩ := hclaim final ⟨1⟩ hloaded hstays
  rw [Session.openStory_of_registered (hloaded.kept kept_empty) hstays, hfinal] at hopen
  have hstore : session.store =
      { definitions := halvedDefinitions,
        values := (VariableStore.ofDefinitions .default).values } := by
    rw [← Except.ok.inj (Prod.mk.inj hopen).1]
    change VariableStore.restore _ position.values = _
    rw [hvalues, VariableStore.restore_snapshot]
    congr 1
    exact (Stored.definitions_session records ⟨1⟩).trans hdefinitions
  have hhealth := hbounds .physiological halvedHealth
  rw [hstore] at hhealth
  have hlow := (hhealth (by simp [halvedDefinitions, Categorized.get_set])).2
  revert hlow
  decide

end Narrative
