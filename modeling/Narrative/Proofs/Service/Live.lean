import Narrative.Proofs.Service.Reachable

/-!
# Dispatched and live play

A play action that is dispatched opens the story anew, and all it leaves behind is in the store.
The same run of actions can be played in one session that stays open.  Nobody can tell the two
apart: after every action the outcomes, what the reader sees, the history and the stores agree.
-/

namespace Narrative

namespace PlayAction

/-- Carry out the step of an action in a session that stays open.  The session is the one that the
step leaves behind, also when the step fails. -/
def act (payload : Json.Fields) (now : Instant) (session : Session) :
    PlayAction → Script (Except Failure (Option SaveSlot) × Session)
  | choose =>
    match index payload with
    | .ok index =>
      let (outcome, session) := session.take ChoiceCheck.all now index
      return (outcome.map fun _ => none, session)
    | .error failure => return (.error failure, session)
  | restart => return (.ok none, session.restart)
  | jump =>
    match index payload with
    | .ok index =>
      match session.jump? index with
      | some session => return (.ok none, session)
      | none => return (.error (.historyOutOfRange index), session)
    | .error failure => return (.error failure, session)
  | save =>
    match slotName session.story (slot payload) with
    | .ok name => do
      let outcome ← ExceptT.run (session.save now name)
      return (outcome.map some, session)
    | .error failure => return (.error failure, session)
  | load =>
    match slotName session.story (slot payload) with
    | .ok name => do
      match ← session.loadSave name with
      | some session => return (.ok none, session)
      | none => return (.error (.slotNotFound name), session)
    | .error failure => return (.error failure, session)

/-- Carry out an action in a session that stays open, and save the position if it goes through. -/
def advance (action : PlayAction) (payload : Json.Fields) (now : Instant) (session : Session) :
    Script (Except Failure Outcome × Session) := do
  let (outcome, session) ← action.act payload now session
  match outcome with
  | .ok saved =>
    let outcome ← ExceptT.run (session.autosave now)
    return (outcome.map fun _ => { view := session.view, saved }, session)
  | .error failure => return (.error failure, session)

end PlayAction

/-- A play action with everything that it is given. -/
structure PlayMove where
  action : PlayAction
  payload : Json.Fields
  now : Instant

/-- What can be told after a move: its outcome, what the reader sees and has done, and the store. -/
structure Sight where
  outcome : Except Failure PlayAction.Outcome
  shown : Except Failure (PlaybackView × List HistoryEntry)
  records : Records

/-- Dispatch moves one by one, and open the story after each of them to look at it. -/
def dispatchedSights (id : Identifier) : List PlayMove → Records → List Sight
  | [], _ => []
  | move :: rest, records =>
    let (outcome, records) :=
      (PlayAction.dispatch move.now id.spelling move.action.name move.payload).run records
    let shown := ((Session.openStory id.spelling true).run records).1.map fun session =>
      (session.view, session.place.history)
    { outcome, shown, records } :: dispatchedSights id rest records

/-- Carry out moves in one session, and look at it after each of them. -/
def liveSights : List PlayMove → Session → Records → List Sight
  | [], _, _ => []
  | move :: rest, session, records =>
    let ((outcome, session), records) :=
      (move.action.advance move.payload move.now session).run records
    { outcome, shown := .ok (session.view, session.place.history), records } ::
      liveSights rest session records

variable {records : Records} {id : Identifier} {session : Session} {now : Instant} {time : ℤ}

/-! ## One move -/

namespace PlayAction

/-- The step of a live action is that of a dispatched one, which drops its session on failure. -/
theorem run_perform (action : PlayAction) (payload : Json.Fields) (now : Instant)
    (session : Session) (records : Records) :
    (action.perform payload now session).run records =
      (((action.act payload now session).run records).1.1.map fun saved =>
          (((action.act payload now session).run records).1.2, saved),
        ((action.act payload now session).run records).2) := by
  cases action with
  | restart => rfl
  | choose =>
    rw [perform, act, Attempt.run_bind, Attempt.run_ofExcept]
    cases index payload with
    | error failure => rfl
    | ok index =>
      simp only
      rw [Attempt.run_bind, Attempt.run_ofExcept]
      cases (session.take ChoiceCheck.all now index).1 <;> rfl
  | jump =>
    rw [perform, act, Attempt.run_bind, Attempt.run_ofExcept]
    cases index payload with
    | error failure => rfl
    | ok index =>
      simp only
      cases session.jump? index <;> rfl
  | save =>
    rw [perform, act, Attempt.run_bind, Attempt.run_ofExcept]
    cases slotName session.story (slot payload) with
    | error failure => rfl
    | ok name =>
      have hsave : (session.save now name).run records =
        Script.run (ExceptT.run (session.save now name)) records := rfl
      simp only
      rw [Attempt.run_bind, hsave, Script.run_bind, Script.run_pure]
      rcases Script.run (ExceptT.run (session.save now name)) records with
        ⟨outcome | outcome, after⟩ <;> rfl
  | load =>
    rw [perform, act, Attempt.run_bind, Attempt.run_ofExcept]
    cases slotName session.story (slot payload) with
    | error failure => rfl
    | ok name =>
      simp only
      rw [Attempt.run_bind, Attempt.run_lift, Script.run_bind]
      cases ((session.loadSave name).run records).1 <;> rfl

/-- An action that fails leaves the session as it was. -/
theorem act_of_error (hnow : now.millis = .ok time) {action : PlayAction} {payload : Json.Fields}
    {failure : Failure}
    (h : ((action.act payload now session).run records).1.1 = .error failure) :
    ((action.act payload now session).run records).1.2 = session := by
  cases action with
  | restart => exact absurd h (by simp [act])
  | choose =>
    rw [act] at h ⊢
    cases hindex : index payload with
    | error failure => rfl
    | ok index =>
      simp only [hindex, take_of_millis hnow] at h ⊢
      cases hchecked : session.player.checked ChoiceCheck.all index with
      | error failure => rfl
      | ok choice => simp [hchecked, Except.map] at h
  | jump =>
    rw [act] at h ⊢
    cases hindex : index payload with
    | error failure => rfl
    | ok index =>
      cases hjump : session.jump? index with
      | none => simp [hjump]
      | some result => simp [hindex, hjump] at h
  | save =>
    rw [act]
    cases slotName session.story (slot payload) with
    | error failure => rfl
    | ok name => rw [Script.run_bind, Script.run_pure]
  | load =>
    rw [act] at h ⊢
    cases hname : slotName session.story (slot payload) with
    | error failure => rfl
    | ok name =>
      simp only [hname] at h ⊢
      rw [Script.run_bind] at h ⊢
      cases hloaded : ((session.loadSave name).run records).1 with
      | none => rfl
      | some result => simp [hloaded] at h

/-- What a live step does, by its plan. -/
theorem run_act (hlisted : Listed records id) (hstory : session.story = id.spelling)
    (hnow : now.millis = .ok time) (action : PlayAction) (payload : Json.Fields) :
    (action.act payload now session).run records =
      (match (action.plan payload time (Stored.slot records id) session).outcome with
        | .ok (result, saved) => (.ok saved, result)
        | .error failure => (.error failure, session),
      (action.plan payload time (Stored.slot records id) session).store id records) := by
  have hperform := realizes_perform hstory hnow action payload records hlisted
  rw [run_perform] at hperform
  have hfailed (failure : Failure)
      (h : ((action.act payload now session).run records).1.1 = .error failure) :
      ((action.act payload now session).run records).1.2 = session := act_of_error hnow h
  simp only at hperform
  rw [← (Prod.mk.inj hperform).1, ← (Prod.mk.inj hperform).2]
  revert hfailed
  rcases (action.act payload now session).run records with ⟨⟨failure | saved, result⟩, after⟩
  · intro hfailed
    rw [show result = session from hfailed failure rfl]
    rfl
  · intro _
    rfl

/-- What a live action does, by its plan. -/
theorem run_advance (hlisted : Listed records id) (hstory : session.story = id.spelling)
    (hnow : now.millis = .ok time) (action : PlayAction) (payload : Json.Fields) :
    (action.advance payload now session).run records =
      (((autosaved time (action.plan payload time (Stored.slot records id) session)).outcome,
        match (action.plan payload time (Stored.slot records id) session).outcome with
        | .ok (result, _) => result
        | .error _ => session),
      (autosaved time (action.plan payload time (Stored.slot records id) session)).store id
        records) := by
  rw [advance, Script.run_bind, run_act hlisted hstory hnow]
  cases houtcome : (action.plan payload time (Stored.slot records id) session).outcome with
  | error failure =>
    simp only [plan_of_error houtcome]
    rfl
  | ok found =>
    obtain ⟨result, saved⟩ := found
    have hresult := (leads_of_plan houtcome).sameStory.story.trans hstory
    have hautosave : Script.run (ExceptT.run (result.autosave now))
        ((action.plan payload time (Stored.slot records id) session).store id records) = _ :=
      Session.run_save (Plan.listed_store _ hlisted) hresult hnow Repository.autosaveSlot
    simp only
    rw [Script.run_bind, hautosave, store_autosaved houtcome, autosaved, houtcome]
    rfl

end PlayAction

/-! ## Whole runs -/

/-- After an action that goes through the story opens with the session that the action reached. -/
theorem session_of_autosaved (h : Kept records) (hnow : now.millis = .ok time)
    {action : PlayAction} {payload : Json.Fields} {result : Session} {saved : Option SaveSlot}
    (houtcome : (action.plan payload time (Stored.slot records id)
      (Stored.session records id)).outcome = .ok (result, saved)) :
    Stored.session ((PlayAction.autosaved time (action.plan payload time (Stored.slot records id)
      (Stored.session records id))).store id records) id = result := by
  have hleads := PlayAction.leads_of_plan houtcome
  have htime := shortTime_of_millis hnow
  have hsound := (Stored.sound_session h id).leads htime (fun _ _ => Stored.readable_slot h) hleads
  have hsame := hleads.sameStory
  obtain ⟨hnodefinitions, hnograph⟩ : (action.plan payload time (Stored.slot records id)
      (Stored.session records id)).definitions = none ∧ (action.plan payload time
      (Stored.slot records id) (Stored.session records id)).graph = none :=
    action.plan_only_saves ..
  rw [PlayAction.store_autosaved houtcome]
  refine Stored.session_eq_of_saved hsound
    (hsame.story.trans (Stored.story_session records id)) htime ?_ ?_ ?_
  · rw [hsame.definitions, Stored.definitions_session, Stored.definitions_saved,
      Stored.definitions, Plan.get?_store_definitions, hnodefinitions]
    rfl
  · rw [hsame.graph, Stored.graph_session, Stored.graph_saved, Stored.graph, Plan.get?_store_graph,
      hnograph]
    rfl
  · rw [get?_saved_slot, if_pos rfl]

/-- A dispatched action goes through exactly if its step does. -/
theorem dispatch_eq_ok (h : Kept records) (hfree : ¬Held records id)
    (hlisted : Stored.Registered records id) (hnow : now.millis = .ok time) (action : PlayAction)
    (payload : Json.Fields) :
    (∃ outcome after, (PlayAction.dispatch now id.spelling action.name payload).run records =
      (.ok outcome, after)) ↔
    ∃ result, (action.plan payload time (Stored.slot records id)
      (Stored.session records id)).outcome = .ok result := by
  rw [Command.run_dispatch h hfree hlisted hnow (PlayAction.ofName?_name action),
    Command.actionPlan, PlayAction.autosaved]
  cases (action.plan payload time (Stored.slot records id)
      (Stored.session records id)).outcome with
  | error failure => simp [Plan.refused]
  | ok result => simp

/-- After a dispatched action that goes through the story opens with the session that its step
leads to. -/
theorem opened_of_dispatch (h : Kept records) (hnow : now.millis = .ok time) {name : String}
    {payload : Json.Fields} {outcome : PlayAction.Outcome} {after : Records}
    (hdone : (PlayAction.dispatch now id.spelling name payload).run records =
      (.ok outcome, after)) :
    ∃ action result, PlayAction.ofName? name = some action ∧
      (action.plan payload time (Stored.slot records id) (Stored.session records id)).outcome =
        .ok (result, outcome.saved) ∧
      outcome.view = result.view ∧ Stored.session after id = result ∧
      (Session.openStory id.spelling true).run after = (.ok result, after) := by
  have hready : ¬Held records id ∧ Stored.Registered records id := by
    by_contra hrefused
    rw [not_and_or, not_not] at hrefused
    obtain ⟨failure, hfailure⟩ := Command.run_dispatch_of_refused now h hrefused name payload
    exact absurd (Prod.mk.inj (hfailure.symm.trans hdone)).1 (by simp)
  cases hname : PlayAction.ofName? name with
  | none =>
    rw [PlayAction.dispatch, hname] at hdone
    exact absurd (Prod.mk.inj hdone).1 (by simp)
  | some action =>
    have htimely : (Command.actionPlan time payload (Stored.slot records id)
        (Stored.session records id) action).Timely :=
      Command.timely_actionPlan (Stored.sound_session h id) (shortTime_of_millis hnow)
        (fun _ _ => Stored.readable_slot h) payload action
    rw [Command.run_dispatch h hready.1 hready.2 hnow hname] at hdone
    obtain ⟨houtcome, rfl⟩ := Prod.mk.inj hdone
    cases hplan : (action.plan payload time (Stored.slot records id)
        (Stored.session records id)).outcome with
    | error failure =>
      rw [Command.actionPlan, PlayAction.autosaved, hplan] at houtcome
      exact absurd houtcome (by simp [Plan.refused])
    | ok found =>
      obtain ⟨result, saved⟩ := found
      have hresult := session_of_autosaved h hnow hplan
      rw [Command.actionPlan, PlayAction.autosaved, hplan] at houtcome
      cases houtcome
      refine ⟨action, result, rfl, hplan, rfl, hresult, ?_⟩
      rw [Session.openStory_of_registered (Plan.kept_store htimely h)
        ((Plan.registered_store ..).2 hready.2)]
      exact congrArg (fun session => (Except.ok session, _)) hresult

/-- One move: the outcomes and the stores agree, and the live session is the one that the story
opens with afterwards. -/
theorem run_dispatch_eq_run_advance (h : Kept records) (hfree : ¬Held records id)
    (hlisted : Stored.Registered records id) (hnow : now.millis = .ok time) (action : PlayAction)
    (payload : Json.Fields) :
    (action.advance payload now (Stored.session records id)).run records =
      ((((PlayAction.dispatch now id.spelling action.name payload).run records).1,
        Stored.session
          ((PlayAction.dispatch now id.spelling action.name payload).run records).2 id),
      ((PlayAction.dispatch now id.spelling action.name payload).run records).2) := by
  rw [Command.run_dispatch h hfree hlisted hnow (PlayAction.ofName?_name action),
    PlayAction.run_advance (h.slotList id) (Stored.story_session records id) hnow]
  simp only [Command.actionPlan]
  cases houtcome : (action.plan payload time (Stored.slot records id)
      (Stored.session records id)).outcome with
  | error failure =>
    simp only [PlayAction.plan_of_error houtcome]
    rfl
  | ok found =>
    obtain ⟨result, saved⟩ := found
    rw [session_of_autosaved h hnow houtcome]

theorem registered_dispatch (h : Reachable records) (hnow : now.Readable)
    (hlisted : Stored.Registered records id) (name : String) (payload : Json.Fields) :
    Stored.Registered ((PlayAction.dispatch now id.spelling name payload).run records).2 id := by
  obtain ⟨time, htime⟩ := hnow
  have hstep := ((Request.command id (.play name payload)).step h.kept htime none id).registered
    h.kept hlisted
  rwa [Request.perform, Command.perform, bind_pure_comp, Attempt.run_map] at hstep

/-- Dispatching moves one by one cannot be told from playing them in one session. -/
theorem dispatchedSights_eq_liveSights (h : Reachable records)
    (hlisted : Stored.Registered records id) {moves : List PlayMove}
    (hmoves : ∀ move ∈ moves, move.now.Readable) :
    ∃ session, (Session.openStory id.spelling true).run records = (.ok session, records) ∧
      dispatchedSights id moves records = liveSights moves session records := by
  refine ⟨Stored.session records id, Session.openStory_of_registered h.kept hlisted, ?_⟩
  induction moves generalizing records with
  | nil => rfl
  | cons move rest ih =>
    rw [List.forall_mem_cons] at hmoves
    have hreach := h.dispatch hmoves.1 id move.action.name move.payload
    have hstays := registered_dispatch h hmoves.1 hlisted move.action.name move.payload
    obtain ⟨time, htime⟩ := hmoves.1
    have hmove := run_dispatch_eq_run_advance h.kept (h.not_held id) hlisted htime move.action
      move.payload
    simp only [dispatchedSights, liveSights, hmove]
    rw [Session.openStory_of_registered hreach.kept hstays, ih hreach hstays hmoves.2]
    rfl

/-- The first steps of a reader in a new story, the last of which fails. -/
theorem dispatchedSights_newStory :
    ∃ session, (Session.openStory (Identifier.mk 1).spelling true).run newStory =
        (.ok session, newStory) ∧
      dispatchedSights ⟨1⟩ [⟨.choose, [("index", .int 0)], ⟨1.5⟩⟩,
          ⟨.jump, [("index", .int 0)], ⟨2.5⟩⟩, ⟨.load, [("slot", .str "a:b")], ⟨3.5⟩⟩] newStory =
        liveSights [⟨.choose, [("index", .int 0)], ⟨1.5⟩⟩, ⟨.jump, [("index", .int 0)], ⟨2.5⟩⟩,
          ⟨.load, [("slot", .str "a:b")], ⟨3.5⟩⟩] session newStory := by
  refine dispatchedSights_eq_liveSights reachable_newStory registered_newStory ?_
  simp only [List.forall_mem_cons]
  exact ⟨Instant.readable_of_isFinite (by decide), Instant.readable_of_isFinite (by decide),
    Instant.readable_of_isFinite (by decide), by simp⟩

end Narrative
