import Narrative.Proofs.Service.Live

/-!
# Saved positions stay

Nothing but a save to the same slot of the same story ever touches a saved position.  However much
is played, edited and imported after a save, loading the slot brings back the node, all values and
the whole history of the time of the save.
-/

namespace Narrative

variable {records : Records} {id : Identifier} {name : String} {now : Instant} {time : ℤ}

/-- The command saves the position to the slot. -/
def Command.Saves (name : String) : Command → Prop
  | play action payload =>
    PlayAction.ofName? action = some .save ∧ PlayAction.slot payload = .text name
  | savePosition slot => PlayAction.slot [("slot", .str slot)] = .text name
  | _ => False

/-- The request saves the position of the story to the slot. -/
def Request.Saves (id : Identifier) (name : String) : Request → Prop
  | command story wanted => story = id ∧ wanted.Saves name
  | _ => False

namespace PlayAction

/-- A slot with a name goes by that name. -/
theorem slot_str {name : String} (h : name ≠ "") : slot [("slot", .str name)] = .text name := by
  have hvacant : (Json.str name).isVacant = false := by
    simpa [Json.isVacant] using h
  change (if (Json.str name).isVacant then _ else _) = _
  rw [hvacant]
  rfl

theorem slots_plan {payload : Json.Fields} {slots : String → Option SaveSlot} {session : Session}
    {action : PlayAction} {entry : String × SaveSlot}
    (h : entry ∈ (action.plan payload time slots session).slots) :
    action = .save ∧ slot payload = .text entry.1 := by
  cases action with
  | choose | restart | jump | load => exact absurd h List.not_mem_nil
  | save =>
    simp only [plan] at h
    cases hslot : slot payload with
    | torn points =>
      simp only [hslot, slotName] at h
      exact absurd h List.not_mem_nil
    | text name =>
      simp only [hslot, slotName] at h
      rw [List.mem_singleton.1 h]
      exact ⟨rfl, rfl⟩

end PlayAction

namespace Command

theorem slots_actionPlan {payload : Json.Fields} {slots : String → Option SaveSlot}
    {session : Session} {action : PlayAction} {entry : String × SaveSlot}
    (h : entry ∈ (actionPlan time payload slots session action).slots) :
    entry.1 = Repository.autosaveSlot ∨
      action = .save ∧ PlayAction.slot payload = .text entry.1 := by
  unfold actionPlan PlayAction.autosaved at h
  split at h
  case h_1 =>
    rcases List.mem_append.1 h with hplan | hauto
    · exact Or.inr (PlayAction.slots_plan hplan)
    · rw [List.mem_singleton.1 hauto]
      exact Or.inl rfl
  case h_2 => exact absurd h List.not_mem_nil

/-- A command saves to the current position and to the slot that it names. -/
theorem slots_plan {assets : Option Assets} {slots : String → Option SaveSlot} {session : Session}
    {command : Command} {entry : String × SaveSlot}
    (h : entry ∈ (command.plan assets time session slots).slots) :
    entry.1 = Repository.autosaveSlot ∨ command.Saves entry.1 := by
  have hauto {position : SaveSlot} (h : entry ∈ [(Repository.autosaveSlot, position)]) :
      entry.1 = Repository.autosaveSlot ∨ command.Saves entry.1 := by
    rw [List.mem_singleton.1 h]
    exact Or.inl rfl
  have hdefinitions {refusal : Failure} {edit : Definitions → Option DefinitionsEdit}
      (h : entry ∈ (session.definitionsPlan time refusal edit).slots) :
      entry.1 = Repository.autosaveSlot ∨ command.Saves entry.1 := by
    unfold Session.definitionsPlan at h
    split at h
    · exact hauto h
    · exact absurd h List.not_mem_nil
  have himport {refusal : Failure} {document : Json.Fields}
      (h : entry ∈ (session.importPlan time refusal document).slots) :
      entry.1 = Repository.autosaveSlot ∨ command.Saves entry.1 := by
    unfold Session.importPlan at h
    split at h
    · exact absurd h List.not_mem_nil
    · split at h
      · exact absurd h List.not_mem_nil
      · exact absurd h List.not_mem_nil
      · exact hauto h
  have hnode {key : String} {refusal : Failure} {edit : Graph → Option Graph}
      (h : entry ∈ (session.nodePlan key refusal edit).slots) :
      entry.1 = Repository.autosaveSlot ∨ command.Saves entry.1 := by
    rw [Session.slots_nodePlan] at h
    exact absurd h List.not_mem_nil
  cases command with
  | importStory document => exact himport h
  | loadDemo =>
    simp only [plan] at h
    split at h
    · exact himport h
    · exact absurd h List.not_mem_nil
  | createNode => exact absurd h List.not_mem_nil
  | removeNode node =>
    simp only [plan, Session.removalPlan] at h
    split at h <;> exact absurd h List.not_mem_nil
  | patchNode | addChoice | patchChoice | removeChoice | patchCondition | addOperation
  | patchOperation | removeOperation => exact hnode h
  | addVariable | removeVariable => exact hdefinitions h
  | patchVariable category old patch =>
    simp only [plan] at h
    split at h
    · exact absurd h List.not_mem_nil
    · exact hdefinitions h
  | play action payload =>
    simp only [plan] at h
    split at h
    case h_1 found hfound =>
      rcases slots_actionPlan h with hentry | ⟨rfl, hslot⟩
      · exact Or.inl hentry
      · exact Or.inr ⟨hfound, hslot⟩
    case h_2 => exact absurd h List.not_mem_nil
  | savePosition slot =>
    rcases slots_actionPlan h with hentry | ⟨-, hslot⟩
    · exact Or.inl hentry
    · exact Or.inr hslot

end Command

/-! ## What stays of a slot -/

/-- A command leaves every slot of its story alone that it does not save to. -/
theorem Command.get?_store_slot {assets : Option Assets} {slots : String → Option SaveSlot}
    {session : Session} {command : Command} (hname : name ≠ Repository.autosaveSlot)
    (hsaves : ¬command.Saves name) :
    ((command.plan assets time session slots).store id records).get?
      (StoreKey.story id (.slot name)).text =
        records.get? (StoreKey.story id (.slot name)).text := by
  refine Plan.get?_store_slot _ records name fun entry hentry heq => ?_
  rcases slots_plan hentry with hauto | hsaved
  · exact hname (heq.symm.trans hauto)
  · exact hsaves (heq ▸ hsaved)

/-- A request leaves every slot alone that it does not save to. -/
theorem Step.get?_slot {assets : Option Assets} {fresh : Identifier} {request : Request}
    {result : Except Failure Reply × Records}
    (h : Step assets fresh time records request result) (hname : name ≠ Repository.autosaveSlot)
    (hsaves : ¬request.Saves id name) :
    result.2.get? (StoreKey.story id (.slot name)).text =
      records.get? (StoreKey.story id (.slot name)).text := by
  cases h with
  | look | refuse => rfl
  | create =>
    rw [get?_created_of_ne _ _ (by simp)]
    exact creation.get?_store_of_ne records (by simp) (by simp) (by simp) (by simp [creation])
  | change other command =>
    by_cases hid : other = id
    · subst hid
      exact Command.get?_store_slot hname fun hsaved => hsaves ⟨rfl, hsaved⟩
    · exact Plan.get?_store_story _ records hid (.slot name)

theorem Run.get?_slot {start : Records}
    (h : Run (fun _ occasion => ¬occasion.request.Saves id name) start records)
    (hstart : Kept start) (hname : name ≠ Repository.autosaveSlot) :
    records.get? (StoreKey.story id (.slot name)).text =
      start.get? (StoreKey.story id (.slot name)).text := by
  induction h with
  | start => rfl
  | next h occasion hnow hallowed ih =>
    obtain ⟨time, htime⟩ := hnow
    rw [← ih]
    exact (Request.step (h.kept hstart) htime _ _ _).get?_slot hname hallowed

theorem Run.registered {allowed : Records → Occasion → Prop} {start : Records}
    (h : Run allowed start records) (hstart : Kept start) (hlisted : Stored.Registered start id) :
    Stored.Registered records id := by
  induction h with
  | start => exact hlisted
  | next h occasion hnow hallowed ih =>
    obtain ⟨time, htime⟩ := hnow
    exact (Request.step (h.kept hstart) htime _ _ _).registered (h.kept hstart) ih

/-! ## Saving and loading -/

/-- An action that goes through is on a story of the catalog. -/
theorem registered_of_dispatch (h : Kept records) {action : String} {payload : Json.Fields}
    {outcome : PlayAction.Outcome} {after : Records}
    (hdone : (PlayAction.dispatch now id.spelling action payload).run records =
      (.ok outcome, after)) : Stored.Registered records id := by
  by_contra hmissing
  obtain ⟨failure, hfailure⟩ := Command.run_dispatch_of_refused now h (Or.inr hmissing) action
    payload
  rw [hfailure] at hdone
  exact absurd (Prod.mk.inj hdone).1 (by simp)

theorem run_dispatch_save (h : Kept records) (hfree : ¬Held records id)
    (hlisted : Stored.Registered records id) (hnow : now.millis = .ok time) {payload : Json.Fields}
    (hslot : PlayAction.slot payload = .text name) :
    (PlayAction.dispatch now id.spelling PlayAction.save.name payload).run records =
      (.ok ⟨(Stored.session records id).view,
          some ((Stored.session records id).player.position time)⟩,
        saved id Repository.autosaveSlot ((Stored.session records id).player.position time)
          (saved id name ((Stored.session records id).player.position time) records)) := by
  rw [Command.run_dispatch h hfree hlisted hnow (PlayAction.ofName?_name .save)]
  simp only [Command.actionPlan, PlayAction.autosaved, PlayAction.plan, hslot, PlayAction.slotName]
  rfl

/-- Loading leads to the position in the slot. -/
theorem PlayAction.outcome_load {session : Session} {slots : String → Option SaveSlot}
    {payload : Json.Fields} (hslot : slot payload = .text name) {position : SaveSlot}
    (hposition : slots name = some position) : (load.plan payload time slots session).outcome =
      .ok (session.withPlayer (session.player.resume position), none) := by
  simp only [plan, hslot, slotName, Except.bind, hposition]

theorem run_dispatch_load (h : Kept records) (hfree : ¬Held records id)
    (hlisted : Stored.Registered records id) (hnow : now.millis = .ok time) {payload : Json.Fields}
    (hslot : PlayAction.slot payload = .text name) {position : SaveSlot}
    (hposition : Stored.slot records id name = some position) :
    ∃ final, (PlayAction.dispatch now id.spelling PlayAction.load.name payload).run records =
        (.ok ⟨((Stored.session records id).player.resume position).view, none⟩, final) ∧
      Stored.session final id = (Stored.session records id).withPlayer
        ((Stored.session records id).player.resume position) := by
  have houtcome : (PlayAction.load.plan payload time (Stored.slot records id)
      (Stored.session records id)).outcome = _ := PlayAction.outcome_load hslot hposition
  rw [Command.run_dispatch h hfree hlisted hnow (PlayAction.ofName?_name .load),
    Command.actionPlan]
  refine ⟨_, ?_, session_of_autosaved h hnow houtcome⟩
  rw [PlayAction.autosaved, houtcome]
  rfl

/-- A position that has been saved can be loaded again after any requests that do not save to the
same slot, and is what it was: the node, the values and the history. -/
theorem load_of_saved (h : Reachable records) (hnow : now.Readable)
    (hname : name ≠ Repository.autosaveSlot) {payload : Json.Fields}
    (hslot : PlayAction.slot payload = .text name) {outcome : PlayAction.Outcome} {after : Records}
    (hsave : (PlayAction.dispatch now id.spelling PlayAction.save.name payload).run records =
      (.ok outcome, after)) {later : Records}
    (hrun : Run (fun _ occasion => ¬occasion.request.Saves id name) after later) {again : Instant}
    (hagain : again.Readable) {wanted : Json.Fields}
    (hwanted : PlayAction.slot wanted = .text name) :
    ∃ opened, (Session.openStory id.spelling true).run records = (.ok opened, records) ∧
      outcome.view = opened.view ∧
      ∃ loaded final,
        (PlayAction.dispatch again id.spelling PlayAction.load.name wanted).run later =
          (.ok loaded, final) ∧
        loaded.view.currentNodeId = outcome.view.currentNodeId ∧
        loaded.view.values = outcome.view.values ∧
        ∃ session, (Session.openStory id.spelling true).run final = (.ok session, final) ∧
          session.view = loaded.view ∧ session.place.history = opened.place.history := by
  have hafter : after = ((PlayAction.dispatch now id.spelling PlayAction.save.name payload).run
      records).2 := by rw [hsave]
  have hlisted : Stored.Registered records id := registered_of_dispatch h.kept hsave
  have hreach : Reachable after := hafter ▸ h.dispatch hnow id PlayAction.save.name payload
  have hstays : Stored.Registered after id :=
    hafter ▸ registered_dispatch h hnow hlisted PlayAction.save.name payload
  obtain ⟨time, htime⟩ := hnow
  obtain ⟨moment, hmoment⟩ := hagain
  rw [run_dispatch_save h.kept (h.not_held id) hlisted htime hslot] at hsave
  obtain ⟨houtcome, hsaved⟩ := Prod.mk.inj hsave
  have hposition : Stored.slot later id name =
      some ((Stored.session records id).player.position time) := by
    refine Stored.slot_of_text
      ((Stored.sound_session h.kept id).readable_position (shortTime_of_millis htime)) ?_
    rw [hrun.get?_slot hreach.kept hname, ← hsaved, get?_saved_slot, if_neg fun e => hname e.symm,
      get?_saved_slot, if_pos rfl]
  obtain ⟨final, hload, hfinal⟩ := run_dispatch_load (hrun.kept hreach.kept)
    ((hrun.reachable hreach).not_held id) (hrun.registered hreach.kept hstays) hmoment hwanted
    hposition
  have hview : outcome.view = (Stored.session records id).view :=
    congrArg PlayAction.Outcome.view (Except.ok.inj houtcome).symm
  have hreachFinal : Reachable final := by
    have hnext := (hrun.reachable hreach).dispatch ⟨moment, hmoment⟩ id PlayAction.load.name wanted
    rwa [hload] at hnext
  have hlistedFinal : Stored.Registered final id := by
    have hnext := registered_dispatch (hrun.reachable hreach) ⟨moment, hmoment⟩
      (hrun.registered hreach.kept hstays) PlayAction.load.name wanted
    rwa [hload] at hnext
  refine ⟨_, Session.openStory_of_registered h.kept hlisted, hview, _, final, hload, ?_, ?_, _,
    Session.openStory_of_registered hreachFinal.kept hlistedFinal, ?_, ?_⟩
  · rw [hview]
    rfl
  · rw [hview]
    change VariableStore.snapshot (VariableStore.restore _ (VariableStore.snapshot _)) = _
    rw [VariableStore.restore_snapshot]
    rfl
  · rw [hfinal]
    rfl
  · rw [hfinal]
    rfl

/-- A position that is saved in a new story and loaded after another one has been saved. -/
theorem load_of_saved_newStory :
    ∃ outcome after, (PlayAction.dispatch ⟨1.5⟩ (Identifier.mk 1).spelling PlayAction.save.name
        [("slot", .str "a:b")]).run newStory = (.ok outcome, after) ∧
      ∃ opened, (Session.openStory (Identifier.mk 1).spelling true).run newStory =
          (.ok opened, newStory) ∧
        outcome.view = opened.view ∧
        ∃ loaded final, (PlayAction.dispatch ⟨3.5⟩ (Identifier.mk 1).spelling PlayAction.load.name
            [("slot", .str "a:b")]).run (Occasion.run
              ⟨.command ⟨1⟩ (.savePosition "saves"), none, ⟨2⟩, ⟨2.5⟩⟩ after).2 =
            (.ok loaded, final) ∧
          loaded.view.currentNodeId = outcome.view.currentNodeId ∧
          loaded.view.values = outcome.view.values ∧
          ∃ session, (Session.openStory (Identifier.mk 1).spelling true).run final =
              (.ok session, final) ∧
            session.view = loaded.view ∧ session.place.history = opened.place.history := by
  have hnow : (Instant.mk 1.5).Readable := Instant.readable_of_isFinite (by decide)
  have hslot : PlayAction.slot [("slot", .str "a:b")] = .text "a:b" :=
    PlayAction.slot_str (by decide)
  obtain ⟨time, htime⟩ := hnow
  have hsave := run_dispatch_save reachable_newStory.kept (reachable_newStory.not_held ⟨1⟩)
    registered_newStory htime hslot
  have hother : ¬(Request.command ⟨1⟩ (.savePosition "saves")).Saves ⟨1⟩ "a:b" := by
    rintro ⟨-, hsaves⟩
    rw [Command.Saves, PlayAction.slot_str (by decide)] at hsaves
    exact absurd (Label.text.inj hsaves) (by decide)
  refine ⟨_, _, hsave, load_of_saved reachable_newStory ⟨time, htime⟩ (by decide) hslot hsave
    (Run.next Run.start ⟨_, _, _, _⟩ ?_ hother) ?_ hslot⟩
  · exact Instant.readable_of_isFinite (show Decimal.isFinite (2.5 * 1000.0) by decide)
  · exact Instant.readable_of_isFinite (show Decimal.isFinite (3.5 * 1000.0) by decide)

end Narrative
