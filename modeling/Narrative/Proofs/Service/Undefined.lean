import Narrative.Proofs.Service.Revisions
import Narrative.Proofs.Variable.Declared

/-!
# Undefined variables of a story

A variable that is not defined reads as zero, with two exceptions.  Going to a saved position brings
back all its values, also those of variables that have been removed or renamed since; and an import
that breaks off puts its definitions in force and leaves the values alone.
-/

namespace Narrative

variable {records : Records} {id : Identifier} {now : Instant} {time : ℤ}

/-- All undefined variables read as zero. -/
def VariableStore.UndefinedReadZero (store : VariableStore) : Prop :=
  ∀ category id, store.definition? category id = none → store.ReadsZero category id

/-- The current position has values of defined variables only. -/
def Stored.Declared (records : Records) (id : Identifier) : Prop :=
  ∀ position, slot records id Repository.autosaveSlot = some position →
    (definitions records id).Declare position.values

namespace Stored

/-- A story opens with values of defined variables only, exactly if its current position has no
others. -/
theorem declared_session : (session records id).store.Declared ↔ Declared records id := by
  unfold session Declared
  cases slot records id Repository.autosaveSlot with
  | none =>
    have hfresh : (Session.fresh id.spelling (definitions records id)
        (graph records id)).store.Declared := VariableStore.declared_ofDefinitions _
    simpa using hfresh
  | some position =>
    simp only [Option.map_some, Option.getD_some, Option.some.injEq, forall_eq']
    exact VariableStore.declared_restore

theorem declared_congr {other : Records}
    (h : ∀ part, other.get? (StoreKey.story id part).text =
      records.get? (StoreKey.story id part).text) (hdeclared : Declared records id) :
    Declared other id := by
  rw [← declared_session] at hdeclared ⊢
  rwa [session_congr h]

end Stored

/-- New stories get new identifiers; an import that breaks off defines all variables of the current
position; and a position that has been saved to a slot is loaded only if all its variables are
defined. -/
structure Occasion.Declaring (records : Records) (occasion : Occasion) : Prop where
  fresh : occasion.request = .createStory → ¬Stored.Registered records occasion.fresh
  leftover : ∀ id command definitions position, occasion.request = .command id command →
    Stored.Registered records id → command.leftover? occasion.assets = some definitions →
    Stored.slot records id Repository.autosaveSlot = some position →
    definitions.Declare position.values
  loaded : ∀ id command name position, occasion.request = .command id command →
    Stored.Registered records id → command.Loads name → name ≠ Repository.autosaveSlot →
    Stored.slot records id name = some position →
    (Stored.definitions records id).Declare position.values

/-! ## One command -/

namespace Session

variable {session : Session}

theorem declared_installed (h : session.store.Declared) {edit : DefinitionsEdit}
    (hids : edit.restarts = false → ∀ category,
      (edit.definitions.get category).map VariableDefinition.id =
        (session.store.definitions.get category).map VariableDefinition.id) :
    (session.installed edit).store.Declared := by
  unfold installed
  simp only
  split
  case isTrue => exact VariableStore.declared_ofDefinitions _
  case isFalse hkeeps => exact h.withDefinitions (hids (by simpa using hkeeps))

/-- A step of play gives values to defined variables only, if a position that it goes to does. -/
theorem declared_leads (h : session.store.Declared) {payload : Json.Fields}
    {slots : String → Option SaveSlot} {action : PlayAction}
    (hloaded : ∀ name position, action = .load → PlayAction.slot payload = .text name →
      slots name = some position → session.store.definitions.Declare position.values)
    {result : Session} (hresult : PlayAction.Leads payload time slots session action result) :
    result.store.Declared := by
  cases hresult with
  | stay => exact h
  | restart => exact VariableStore.declared_ofDefinitions _
  | execute choice => exact h.foldl_perform choice.operations
  | jump hjump =>
    change VariableStore.Declared (Player.store _)
    rw [PlayAction.store_of_jump? hjump]
    exact h
  | resume hload hname hslot =>
    exact VariableStore.declared_restore.2 (hloaded _ _ hload hname hslot)

end Session

/-- A command keeps the values of its story to defined variables, if the position that it goes to
and the definitions that it leaves behind do. -/
theorem Command.declared_plan (h : Kept records) (hnow : now.millis = .ok time)
    {assets : Option Assets} (command : Command) (hdeclared : Stored.Declared records id)
    (hleftover : ∀ definitions position, command.leftover? assets = some definitions →
      Stored.slot records id Repository.autosaveSlot = some position →
      definitions.Declare position.values)
    (hloaded : ∀ name position, command.Loads name → name ≠ Repository.autosaveSlot →
      Stored.slot records id name = some position →
      (Stored.definitions records id).Declare position.values) :
    Stored.Declared ((command.plan assets time (Stored.session records id)
      (Stored.slot records id)).store id records) id := by
  have hsession := Stored.declared_session.2 hdeclared
  have htimely : (command.plan assets time (Stored.session records id)
      (Stored.slot records id)).Timely :=
    Command.timely_plan (Stored.sound_session h id) (shortTime_of_millis hnow)
      (fun _ _ => Stored.readable_slot h) assets command
  have hrevised : command.RevisedBy assets time (Stored.slot records id)
      (Stored.session records id) _ := command.revisedBy_plan
  obtain ⟨saved, hrevises, hends⟩ := hrevised
  intro position hslot
  -- The current position afterwards is the one saved last, under the definitions stored.
  have hposition := Plan.slot_of_endsAt hends htimely hslot
  rw [Stored.definitions_store]
  generalize (command.plan assets time (Stored.session records id)
    (Stored.slot records id)).definitions = definitions at hrevises
  cases hrevises with
  | nothing => exact hdeclared position hposition
  | leftover hfound =>
    -- The position stays, so the definitions left behind have to cover it.
    exact Definitions.declare_kept.2 (hleftover _ _ hfound hposition)
  | @install edit hids =>
    have hinstalled := Session.declared_installed hsession hids
    rw [VariableStore.declared_iff_declare, Session.definitions_installed] at hinstalled
    rw [show position = _ from hposition]
    exact Definitions.declare_kept.2 hinstalled
  | replace graph definitions =>
    have hreplaced := VariableStore.declared_ofDefinitions
      (definitions.getD (Stored.session records id).store.definitions)
    rw [← Session.store_replaced _ graph, VariableStore.declared_iff_declare,
      Session.store_replaced] at hreplaced
    rw [show position = _ from hposition]
    cases definitions with
    | none => exact Stored.definitions_session records id ▸ hreplaced
    | some definitions => exact Definitions.declare_kept.2 hreplaced
  | @play action payload result hload hleads =>
    have hresult : result.store.Declared := by
      refine Session.declared_leads hsession (fun name position haction hname hfound => ?_) hleads
      rw [Stored.definitions_session]
      by_cases hauto : name = Repository.autosaveSlot
      · exact hdeclared position (hauto ▸ hfound)
      · exact hloaded name position (hload name haction hname) hauto hfound
    rw [VariableStore.declared_iff_declare, hleads.sameStory.definitions,
      Stored.definitions_session] at hresult
    rw [show position = _ from hposition]
    exact hresult

/-- A request that is made with care keeps the values of all stories to defined variables. -/
theorem Step.declared {occasion : Occasion} {result : Except Failure Reply × Records}
    (h : Step occasion.assets occasion.fresh time records occasion.request result)
    (hkept : Kept records) (hnow : now.millis = .ok time)
    (hblank : ∀ id, ¬Stored.Registered records id →
      ∀ part, records.get? (StoreKey.story id part).text = none)
    (hdeclaring : occasion.Declaring records) (hdeclared : Stored.Declared records id) :
    Stored.Declared result.2 id := by
  obtain ⟨request, assets, fresh, _⟩ := occasion
  cases h with
  | look | refuse => exact hdeclared
  | create =>
    by_cases hid : fresh = id
    · subst hid
      rw [← Stored.declared_session, Stored.store_created (hblank fresh (hdeclaring.fresh rfl))]
      exact VariableStore.declared_ofDefinitions _
    · refine Stored.declared_congr (fun part => ?_) hdeclared
      rw [get?_created_of_ne _ _ (by simp), Plan.get?_store_story _ _ hid]
  | change changed command hfree hlisted =>
    by_cases hid : changed = id
    · subst hid
      refine command.declared_plan hkept hnow hdeclared ?_ ?_
      · exact fun definitions position =>
          hdeclaring.leftover changed command definitions position rfl hlisted
      · exact fun name position => hdeclaring.loaded changed command name position rfl hlisted
    · exact Stored.declared_congr (Plan.get?_store_story _ _ hid) hdeclared

/-! ## Whole runs -/

/-- After every run that is made with care only defined variables have values. -/
theorem Run.declared (h : Run Occasion.Declaring .empty records) (id : Identifier) :
    Stored.Declared records id := by
  induction h with
  | start => exact fun _ hslot => nomatch hslot
  | next h occasion hnow hallowed ih =>
    obtain ⟨time, htime⟩ := hnow
    have hreach := h.reachable Run.start
    exact (Request.step hreach.kept htime occasion.assets occasion.fresh occasion.request).declared
      hreach.kept htime (fun _ => hreach.blank) hallowed ih

/-- What a play action that goes through leads to has values of defined variables only, exactly if
the position that it loads, if it loads any, does. -/
theorem undefinedReadZero_of_dispatch (h : Kept records) (hnow : now.millis = .ok time)
    (hdeclared : Stored.Declared records id) {name : String} {payload : Json.Fields}
    {outcome : PlayAction.Outcome} {after : Records}
    (hdone : (PlayAction.dispatch now id.spelling name payload).run records =
      (.ok outcome, after)) :
    ∃ session, (Session.openStory id.spelling true).run after = (.ok session, after) ∧
      session.store.definitions = Stored.definitions records id ∧
      outcome.view.values = session.store.snapshot ∧
      (session.store.UndefinedReadZero ↔ ∀ slot position,
        PlayAction.ofName? name = some .load → PlayAction.slot payload = .text slot →
        Stored.slot records id slot = some position →
        (Stored.definitions records id).Declare position.values) := by
  obtain ⟨action, result, hname, hplan, hview, -, hopen⟩ := opened_of_dispatch h hnow hdone
  have hleads := PlayAction.leads_of_plan hplan
  have hdefinitions := hleads.sameStory.definitions.trans (Stored.definitions_session records id)
  refine ⟨result, hopen, hdefinitions, congrArg PlaybackView.values hview, ?_⟩
  rw [VariableStore.UndefinedReadZero, ← VariableStore.declared_iff_readsZero]
  constructor
  · intro hresult slot position hload hslot hposition
    rw [hname] at hload
    cases hload
    rw [PlayAction.outcome_load hslot hposition] at hplan
    obtain ⟨rfl, -⟩ := Prod.mk.inj (Except.ok.inj hplan)
    rw [← Stored.definitions_session]
    exact VariableStore.declared_restore.1 hresult
  · intro hloaded
    refine Session.declared_leads (Stored.declared_session.2 hdeclared) ?_ hleads
    rw [Stored.definitions_session]
    exact fun slot position hload => hloaded slot position (hload ▸ hname)

/-- After every run that is made with care undefined variables read as zero.  After one more play
action that goes through they do exactly if all variables of the position that it loads, if it
loads any, are defined. -/
theorem undefined_reads_zero (h : Run Occasion.Declaring .empty records)
    (hlisted : Stored.Registered records id) :
    ∃ opened, (Session.openStory id.spelling true).run records = (.ok opened, records) ∧
      opened.store.UndefinedReadZero ∧ opened.view.values = opened.store.snapshot ∧
      ∀ now : Instant, now.Readable → ∀ name payload outcome after,
        (PlayAction.dispatch now id.spelling name payload).run records = (.ok outcome, after) →
        ∃ later, (Session.openStory id.spelling true).run after = (.ok later, after) ∧
          later.store.definitions = opened.store.definitions ∧
          outcome.view.values = later.store.snapshot ∧
          (later.store.UndefinedReadZero ↔ ∀ slot position,
            PlayAction.ofName? name = some .load → PlayAction.slot payload = .text slot →
            Stored.slot records id slot = some position →
            opened.store.definitions.Declare position.values) := by
  have hkept := (h.reachable Run.start).kept
  have hdeclared := h.declared id
  refine ⟨Stored.session records id, Session.openStory_of_registered hkept hlisted,
    VariableStore.declared_iff_readsZero.1 (Stored.declared_session.2 hdeclared), rfl, ?_⟩
  rintro now ⟨time, htime⟩ name payload outcome after hdone
  rw [Stored.definitions_session]
  exact undefinedReadZero_of_dispatch hkept htime hdeclared hdone

theorem declaring_createStory :
    Occasion.Declaring .empty ⟨.createStory, none, ⟨1⟩, ⟨0.0⟩⟩ where
  fresh := fun _ => List.not_mem_nil
  leftover := fun _ _ _ _ h => nomatch h
  loaded := fun _ _ _ _ h => nomatch h

theorem declaring_command {assets : Option Assets} {command : Command}
    (hwhole : command.leftover? assets = none)
    (hloaded : ∀ name position, command.Loads name → name ≠ Repository.autosaveSlot →
      Stored.slot records id name = some position →
      (Stored.definitions records id).Declare position.values) (fresh : Identifier)
    (now : Instant) :
    Occasion.Declaring records ⟨.command id command, assets, fresh, now⟩ where
  fresh := by
    intro hcreate
    cases hcreate
  leftover := by
    intro other wanted definitions position hrequest _ hleft
    cases hrequest
    rw [hwhole] at hleft
    cases hleft
  loaded := by
    intro other wanted name position hrequest _
    cases hrequest
    exact hloaded name position

/-- A story with the health, the thirst and the pulse. -/
def pulseStory : Json.Fields :=
  [("nodes", .obj [("start", .obj [])]),
    ("variableDefinitions", .obj [("physiological", .arr
      [.obj [("id", .str "health"), ("name", .str "Health"), ("initial", .num 80.0)],
        .obj [("id", .str "thirst"), ("name", .str "Thirst"), ("initial", .num 10.0)],
        .obj [("id", .str "pulse"), ("name", .str "Pulse"), ("initial", .num 60.0)]])])]

/-- Its definitions. -/
def pulseDefinitions : Definitions :=
  ⟨[.percentage "health" "Health" 80.0, .percentage "thirst" "Thirst" 10.0,
    .percentage "pulse" "Pulse" 60.0], [], []⟩

/-- What is left of them without the thirst, and with the pulse under a new name. -/
def beatDefinitions : Definitions :=
  ⟨[.percentage "health" "Health" 80.0, .percentage "beat" "Pulse" 60.0], [], []⟩

/-- The position in a new story is saved to a slot; then the other story is imported, the thirst is
removed, and the pulse gets its new name. -/
theorem exists_beat : ∃ records position, Run Occasion.Declaring .empty records ∧
    Stored.Registered records ⟨1⟩ ∧ Stored.definitions records ⟨1⟩ = beatDefinitions ∧
    Stored.slot records ⟨1⟩ "old" = some position ∧
    position.values = (VariableStore.ofDefinitions .default).snapshot := by
  have hnow : (Instant.mk 0.0).Readable := Instant.readable_of_isFinite (by decide)
  obtain ⟨records, position, hrun, hlisted, -, hslot, hvalues⟩ :=
    exists_saved declaring_createStory (by decide : "old" ≠ "") (by decide)
      (declaring_command rfl (by simp [Command.Loads]) ⟨1⟩ ⟨0.0⟩)
  have hedits (command : Command) (hwhole : command.leftover? none = none)
      (hloads : ∀ name, ¬command.Loads name) (records : Records) :
      Occasion.Declaring records ⟨.command ⟨1⟩ command, none, ⟨1⟩, ⟨0.0⟩⟩ :=
    declaring_command hwhole (fun name _ hload => absurd hload (hloads name)) ⟨1⟩ ⟨0.0⟩
  obtain ⟨records, hrun, hlisted, himported, himport⟩ := hrun.next_command hlisted hnow
    (hedits (.importStory pulseStory) rfl (by simp [Command.Loads]) _)
  obtain ⟨records, hrun, hlisted, hremoved, hremove⟩ := hrun.next_command hlisted hnow
    (hedits (.removeVariable .physiological "thirst") rfl (by simp [Command.Loads]) _)
  obtain ⟨records, hrun, hlisted, hrenamed, hrename⟩ := hrun.next_command hlisted hnow
    (hedits (.patchVariable .physiological "pulse" { id := some "beat" }) rfl
      (by simp [Command.Loads]) _)
  rw [himported] at hremoved
  rw [hremoved] at hrenamed
  refine ⟨records, position, hrun, hlisted, hrenamed, ?_, hvalues⟩
  rw [hrename _ (by decide) id, hremove _ (by decide) id, himport _ (by decide) id, hslot]

/-- The new position is saved and loaded.  The thirst and the pulse read as zero then, also after
loading that position again; after loading the old one, not all undefined variables do. -/
theorem undefined_reads_zero_beat :
    ∃ records opened, Run Occasion.Declaring .empty records ∧ Stored.Registered records ⟨1⟩ ∧
      (Session.openStory (Identifier.mk 1).spelling true).run records = (.ok opened, records) ∧
      opened.store.definitions = beatDefinitions ∧
      opened.store.ReadsZero .physiological "thirst" ∧
      opened.store.ReadsZero .physiological "pulse" ∧
      (∃ after later, ((PlayAction.dispatch ⟨0.0⟩ (Identifier.mk 1).spelling PlayAction.load.name
          [("slot", .str "s1")]).run records).2 = after ∧
        (Session.openStory (Identifier.mk 1).spelling true).run after = (.ok later, after) ∧
        later.store.UndefinedReadZero) ∧
      ∃ after later, ((PlayAction.dispatch ⟨0.0⟩ (Identifier.mk 1).spelling PlayAction.load.name
          [("slot", .str "old")]).run records).2 = after ∧
        (Session.openStory (Identifier.mk 1).spelling true).run after = (.ok later, after) ∧
        ¬later.store.UndefinedReadZero := by
  have hnow : (Instant.mk 0.0).Readable := Instant.readable_of_isFinite (by decide)
  obtain ⟨records, old, hrun, hlisted, hbeat, hold, hvalues⟩ := exists_beat
  obtain ⟨records, position, hrun, hlisted, hsaved, hslot, hauto, -, hothers⟩ :=
    hrun.next_save hlisted hnow (by decide : "s1" ≠ "") (by decide)
      (declaring_command rfl (by simp [Command.Loads]) ⟨1⟩ ⟨0.0⟩)
  have hdeclare := hrun.declared ⟨1⟩ position hauto
  have hload : Occasion.Declaring records
      ⟨.command ⟨1⟩ (.play PlayAction.load.name [("slot", .str "s1")]), none, ⟨1⟩, ⟨0.0⟩⟩ := by
    refine declaring_command rfl (fun name found hloads _ hfound => ?_) ⟨1⟩ ⟨0.0⟩
    obtain rfl := Command.eq_of_loads (by decide) hloads
    rwa [← Option.some.inj (hslot.symm.trans hfound)]
  obtain ⟨loaded, hrun, hlisted, hforce, hslots⟩ := hrun.next_command hlisted hnow hload
  have hkept := hrun.kept kept_empty
  have hkeeps (name : String) :
      ¬(Command.play PlayAction.load.name [("slot", .str "s1")]).Saves name := by
    simp [Command.Saves]
  have hnew : Stored.definitions loaded ⟨1⟩ = beatDefinitions := hforce.trans (hsaved.trans hbeat)
  obtain ⟨opened, hopen, hzero, -, hplay⟩ := undefined_reads_zero hrun hlisted
  have hopened : opened.store.definitions = beatDefinitions := by
    rw [Session.openStory_of_registered hkept hlisted] at hopen
    rw [← Except.ok.inj (Prod.mk.inj hopen).1, Stored.definitions_session, hnew]
  have hagain {name : String} {found : SaveSlot} (hname : name ≠ "")
      (hfound : Stored.slot loaded ⟨1⟩ name = some found) :
      ∃ after later, ((PlayAction.dispatch ⟨0.0⟩ (Identifier.mk 1).spelling PlayAction.load.name
          [("slot", .str name)]).run loaded).2 = after ∧
        (Session.openStory (Identifier.mk 1).spelling true).run after = (.ok later, after) ∧
        (later.store.UndefinedReadZero ↔ beatDefinitions.Declare found.values) := by
    have hreach := hrun.reachable Run.start
    obtain ⟨time, htime⟩ := hnow
    obtain ⟨final, hdone, -⟩ := run_dispatch_load hkept (hreach.not_held ⟨1⟩) hlisted htime
      (PlayAction.slot_str hname) hfound
    obtain ⟨later, hlater, -, -, hiff⟩ := hplay ⟨0.0⟩ ⟨time, htime⟩ _ _ _ _ hdone
    refine ⟨final, later, by rw [hdone], hlater, hiff.trans ?_⟩
    rw [hopened]
    constructor
    · exact fun h => h name found rfl (PlayAction.slot_str hname) hfound
    · intro h slot position _ hslot hposition
      rw [PlayAction.slot_str hname] at hslot
      cases hslot
      rwa [← Option.some.inj (hfound.symm.trans hposition)]
  refine ⟨loaded, opened, hrun, hlisted, hopen, hopened, ?_, ?_, ?_, ?_⟩
  · exact hzero .physiological "thirst" (by rw [VariableStore.definition?, hopened]; rfl)
  · exact hzero .physiological "pulse" (by rw [VariableStore.definition?, hopened]; rfl)
  · obtain ⟨after, later, hafter, hlater, hiff⟩ :=
      hagain (by decide : "s1" ≠ "") ((hslots _ (by decide) (hkeeps _)).trans hslot)
    refine ⟨after, later, hafter, hlater, hiff.2 ?_⟩
    rwa [hsaved, hbeat] at hdeclare
  · obtain ⟨after, later, hafter, hlater, hiff⟩ := hagain (by decide : "old" ≠ "")
      ((hslots _ (by decide) (hkeeps _)).trans ((hothers _ (by decide) (by decide)).trans hold))
    refine ⟨after, later, hafter, hlater, fun hall => ?_⟩
    have henergy := hiff.1 hall .physiological "energy" rfl
    rw [hvalues] at henergy
    have hmissing := henergy _ (VariableStore.get?_snapshot _ _)
    revert hmissing
    decide

/-- A new story whose position has been saved, without the health. -/
theorem exists_removed_health : ∃ records position, Reachable records ∧
    Stored.Registered records ⟨1⟩ ∧
    (Stored.definitions records ⟨1⟩).find .physiological "health" = none ∧
    Stored.slot records ⟨1⟩ "s1" = some position ∧
    position.values = (VariableStore.ofDefinitions .default).snapshot := by
  have hnow : (Instant.mk 0.0).Readable := Instant.readable_of_isFinite (by decide)
  obtain ⟨records, position, hrun, hlisted, hdefault, hslot, hvalues⟩ :=
    exists_saved declaring_createStory (by decide : "s1" ≠ "") (by decide)
      (declaring_command rfl (by simp [Command.Loads]) ⟨1⟩ ⟨0.0⟩)
  have hremove : Occasion.Declaring records
      ⟨.command ⟨1⟩ (.removeVariable .physiological "health"), none, ⟨1⟩, ⟨0.0⟩⟩ :=
    declaring_command rfl (by simp [Command.Loads]) ⟨1⟩ ⟨0.0⟩
  obtain ⟨after, hrun, hlisted, hdefinitions, hslots⟩ := hrun.next_command hlisted hnow hremove
  refine ⟨after, position, hrun.reachable Run.start, hlisted, ?_,
    (hslots _ (by decide) id).trans hslot, hvalues⟩
  rw [hdefinitions, hdefault]
  decide

/-- A position that is loaded brings back the value of a variable that has been removed. -/
theorem not_undefined_reads_zero :
    ¬∀ (records : Records) (id : Identifier), Reachable records → Stored.Registered records id →
      ∃ session, (Session.openStory id.spelling true).run records = (.ok session, records) ∧
        session.store.UndefinedReadZero := by
  intro hclaim
  obtain ⟨records, position, hreach, hlisted, hremoved, hslot, hvalues⟩ := exists_removed_health
  have hnow : (Instant.mk 0.0).Readable := Instant.readable_of_isFinite (by decide)
  have hloaded := hreach.dispatch hnow ⟨1⟩ PlayAction.load.name [("slot", .str "s1")]
  have hstays := registered_dispatch hreach hnow hlisted PlayAction.load.name [("slot", .str "s1")]
  obtain ⟨time, htime⟩ := hnow
  obtain ⟨final, hload, hfinal⟩ := run_dispatch_load hreach.kept (hreach.not_held ⟨1⟩) hlisted htime
    (PlayAction.slot_str (by decide)) hslot
  rw [hload] at hloaded hstays
  obtain ⟨session, hopen, hzero⟩ := hclaim final ⟨1⟩ hloaded hstays
  rw [Session.openStory_of_registered hloaded.kept hstays, hfinal] at hopen
  have hstore : session.store = (Stored.session records ⟨1⟩).store.restore position.values := by
    rw [← Except.ok.inj (Prod.mk.inj hopen).1]
    rfl
  have hundefined : session.store.definition? .physiological "health" = none := by
    rw [hstore]
    rwa [← Stored.definitions_session] at hremoved
  have hread := (hzero .physiological "health" hundefined).get
  rw [hstore, hvalues, VariableStore.restore_snapshot] at hread
  have hhealth : (VariableStore.ofDefinitions .default).get .physiological "health" = 0.0 := hread
  revert hhealth
  decide

end Narrative
