import Narrative.Proofs.Session.Plans

/-!
# Plans of commands

A command on a story of the catalog whose lock is free carries out a plan made from the story as it
is stored, and the lock is gone afterwards as if it had never been there.  While somebody else holds
the lock, and where the catalog does not list the story, a command fails and leaves everything as it
is.
-/

namespace Narrative

variable {records : Records} {id : Identifier} {now : Instant} {time : ℤ}

/-- Somebody holds the lock of the story. -/
def Held (records : Records) (id : Identifier) : Prop :=
  records.contains (StoreKey.lock id).text = true

instance (records : Records) (id : Identifier) : Decidable (Held records id) :=
  inferInstanceAs (Decidable (_ = true))

/-! ## Under a lock -/

namespace Stored

theorem story_session (records : Records) (id : Identifier) :
    (session records id).story = id.spelling := by
  unfold session
  cases slot records id Repository.autosaveSlot <;> rfl

theorem get?_insert_lock (records : Records) (id : Identifier) (value : String) (key : StoreKey)
    (h : .lock id ≠ key) :
    (records.insert (StoreKey.lock id).text value).get? key.text = records.get? key.text := by
  rw [get?_insert_text, if_neg h]

theorem registered_insert_lock (records : Records) (id other : Identifier) (value : String) :
    Registered (records.insert (StoreKey.lock other).text value) id ↔ Registered records id := by
  rw [Registered, Registered, labels, get?_insert_lock _ _ _ _ (by simp)]
  rfl

theorem session_insert_lock (records : Records) (id other : Identifier) (value : String) :
    session (records.insert (StoreKey.lock other).text value) id = session records id :=
  session_congr fun _ => get?_insert_lock _ _ _ _ (by simp)

theorem slot_insert_lock (records : Records) (id other : Identifier) (value : String) :
    slot (records.insert (StoreKey.lock other).text value) id = slot records id := by
  funext name
  rw [slot, slot, get?_insert_lock _ _ _ _ (by simp)]

end Stored

namespace Plan

/-- A plan carried out under a lock leaves what it leaves without one. -/
theorem erase_store_insert {α : Type} (plan : Plan α) (hfree : ¬Held records id) (value : String) :
    (plan.store id (records.insert (StoreKey.lock id).text value)).erase (StoreKey.lock id).text =
      plan.store id records := by
  rw [erase_store, Table.erase_insert_self, Table.erase_of_get?]
  exact Table.contains_eq_false.1 (Bool.eq_false_iff.2 hfree)

end Plan

namespace Command

section Editing

variable {α : Type} {change : Session → Attempt α}

theorem run_editing_of_held (hheld : Held records id) :
    (editing id.spelling change).run records = (.error .storyBusy, records) :=
  Attempt.run_locked_of_contains _ hheld

/-- An edit of a story whose lock is free is made under the lock, which is gone afterwards. -/
theorem run_editing_of_free (hfree : ¬Held records id) (change : Session → Attempt α) :
    (editing id.spelling change).run records =
      (((Session.openStory id.spelling true >>= change).run
          (records.insert (StoreKey.lock id).text "1")).1,
        ((Session.openStory id.spelling true >>= change).run
          (records.insert (StoreKey.lock id).text "1")).2.erase (StoreKey.lock id).text) :=
  Attempt.run_locked_of_not_contains _ (Bool.eq_false_iff.2 hfree)

theorem run_editing_of_not_registered (h : Kept records) (hfree : ¬Held records id)
    (hlisted : ¬Stored.Registered records id) :
    (editing id.spelling change).run records = (.error .storyNotFound, records) := by
  have hopen := Session.run_openStory (h.insert_lock id "1") id
  rw [if_neg fun hin => hlisted ((Stored.registered_insert_lock ..).1 hin)] at hopen
  have hnone : records.get? (StoreKey.lock id).text = none :=
    Table.contains_eq_false.1 (Bool.eq_false_iff.2 hfree)
  rw [run_editing_of_free hfree, Attempt.run_bind, hopen]
  simp only
  rw [Table.erase_insert_self, Table.erase_of_get? hnone]

/-- An edit of a story carries out its plan, as if there were no locks. -/
theorem run_editing (h : Kept records) (hfree : ¬Held records id)
    (hlisted : Stored.Registered records id) (change : Session → Attempt α)
    (plan : Session → (String → Option SaveSlot) → Plan α)
    (hchange : ∀ session : Session, session.story = id.spelling →
      Realizes id (change session) (plan session)) :
    (editing id.spelling change).run records =
      ((plan (Stored.session records id) (Stored.slot records id)).outcome,
        (plan (Stored.session records id) (Stored.slot records id)).store id records) := by
  have hkept := h.insert_lock id "1"
  have hopen := Session.run_openStory hkept id
  rw [if_pos ((Stored.registered_insert_lock ..).2 hlisted), Stored.session_insert_lock] at hopen
  have hplan := hchange _ (Stored.story_session records id) _ (hkept.slotList id)
  rw [Stored.slot_insert_lock] at hplan
  rw [run_editing_of_free hfree, Attempt.run_bind, hopen]
  simp only
  rw [hplan]
  simp only
  rw [Plan.erase_store_insert _ hfree]

end Editing

/-- The plan of a play action. -/
def actionPlan (time : ℤ) (payload : Json.Fields) (slots : String → Option SaveSlot)
    (session : Session) (action : PlayAction) : Plan PlayAction.Outcome :=
  PlayAction.autosaved time (action.plan payload time slots session)

theorem run_dispatch (h : Kept records) (hfree : ¬Held records id)
    (hlisted : Stored.Registered records id) (hnow : now.millis = .ok time) {name : String}
    {action : PlayAction} (hname : PlayAction.ofName? name = some action) (payload : Json.Fields) :
    (PlayAction.dispatch now id.spelling name payload).run records =
      ((actionPlan time payload (Stored.slot records id) (Stored.session records id)
          action).outcome,
        (actionPlan time payload (Stored.slot records id) (Stored.session records id)
          action).store id records) := by
  rw [PlayAction.dispatch, hname]
  exact run_editing h hfree hlisted _
    (fun session slots => actionPlan time payload slots session action)
    fun session hstory => PlayAction.realizes_autosaved hstory hnow action payload

/-- A play action that cannot be carried out at all leaves everything as it is. -/
theorem run_dispatch_of_refused (now : Instant) (h : Kept records)
    (hrefused : Held records id ∨ ¬Stored.Registered records id) (name : String)
    (payload : Json.Fields) :
    ∃ failure, (PlayAction.dispatch now id.spelling name payload).run records =
      (.error failure, records) := by
  rw [PlayAction.dispatch]
  cases PlayAction.ofName? name with
  | none => exact ⟨_, rfl⟩
  | some action =>
    by_cases hheld : Held records id
    · exact ⟨_, run_editing_of_held hheld⟩
    · exact ⟨_, run_editing_of_not_registered h hheld (hrefused.resolve_left hheld)⟩

/-! ## Commands -/

/-- The plan of a command on a story of the catalog. -/
def plan (assets : Option Assets) (time : ℤ) (session : Session)
    (slots : String → Option SaveSlot) : Command → Plan Reply
  | importStory document => (session.importPlan time .notStory document).map .document
  | loadDemo =>
    match Assets.require assets with
    | .ok assets => (session.importPlan time .notDemo assets.demo).map .document
    | .error failure => .refused failure
  | createNode => (session.creationPlan time).map fun key => .created (NodeIdAnswer.toJson ⟨key⟩)
  | patchNode node patch =>
    (session.nodePlan node .noSuchNode fun graph => graph.patchNode node patch).map .document
  | removeNode node => (session.removalPlan node).map fun _ => { status := .noContent }
  | addChoice node =>
    (session.nodePlan node .noSuchNode fun graph => graph.addChoice node).map .created
  | patchChoice node choice patch =>
    (session.nodePlan node .noSuchChoice fun graph =>
      graph.patchChoice node choice patch).map .document
  | removeChoice node choice =>
    (session.nodePlan node .noSuchChoice fun graph =>
      graph.removeChoice node choice).map .document
  | patchCondition node choice patch =>
    (session.nodePlan node .noSuchChoice fun graph =>
      graph.patchCondition node choice patch).map .document
  | addOperation node choice =>
    (session.nodePlan node .noSuchChoice fun graph =>
      graph.addOperation node choice).map .created
  | patchOperation node choice operation patch =>
    (session.nodePlan node .noSuchOperation fun graph =>
      graph.patchOperation node choice operation patch).map .document
  | removeOperation node choice operation =>
    (session.nodePlan node .noSuchOperation fun graph =>
      graph.removeOperation node choice operation).map .document
  | addVariable category request =>
    (session.definitionsPlan time (.variableTaken request.id category) fun definitions =>
      definitions.add category (requestedDefinition request)).map .created
  | patchVariable category name patch =>
    (if (session.store.definition? category name).isNone then .refused .noSuchVariable
      else session.definitionsPlan time (.variableTaken (patch.id.getD name) category)
        fun definitions => definitions.patch category name patch).map .document
  | removeVariable category name =>
    (session.definitionsPlan time .noSuchVariable fun definitions =>
      definitions.remove category name).map .document
  | play name payload =>
    match PlayAction.ofName? name with
    | some action =>
      (actionPlan time payload slots session action).map fun outcome =>
        .document outcome.view.toJson
    | none => .refused (.unknownAction name)
  | savePosition slot =>
    (actionPlan time [("slot", .str slot)] slots session .save).map fun outcome =>
      .created (.ofOption SaveSlot.toJson outcome.saved)

/-- A command on a story of the catalog carries out its plan if the lock is free. -/
theorem run_perform (h : Kept records) (hfree : ¬Held records id)
    (hlisted : Stored.Registered records id) (hnow : now.millis = .ok time)
    (assets : Option Assets) (command : Command) :
    (command.perform assets now id.spelling).run records =
      ((command.plan assets time (Stored.session records id) (Stored.slot records id)).outcome,
        (command.plan assets time (Stored.session records id) (Stored.slot records id)).store id
          records) := by
  have hnode (key : String) (refusal : Failure) (edit : Graph → Option Graph) :=
    run_editing h hfree hlisted (editNode key refusal edit) _ fun session hstory =>
      Session.realizes_editNode hstory key refusal edit
  have hdefinitions (refusal : Failure) (edit : Definitions → Option DefinitionsEdit) :=
    run_editing h hfree hlisted (editDefinitions now refusal edit) _
      fun session hstory => Session.realizes_editDefinitions hstory hnow refusal edit
  cases command with
  | importStory document =>
    rw [perform, Attempt.run_map, run_editing h hfree hlisted _ _ fun session hstory =>
      Session.realizes_replaceStory hstory hnow .notStory document]
    rfl
  | loadDemo =>
    have hdemo (session : Session) (hstory : session.story = id.spelling) :
        Realizes id (do
          let assets ← Attempt.ofExcept (Assets.require assets)
          replaceStory now .notDemo assets.demo session) fun _ =>
          match Assets.require assets with
          | .ok assets => session.importPlan time .notDemo assets.demo
          | .error failure => .refused failure := by
      intro records hrecords
      rw [Attempt.run_bind, Attempt.run_ofExcept]
      cases Assets.require assets with
      | error failure => rfl
      | ok assets =>
        exact Session.realizes_replaceStory hstory hnow .notDemo assets.demo records hrecords
    rw [perform, Attempt.run_map, run_editing h hfree hlisted _ _ hdemo, plan]
    cases Assets.require assets <;> rfl
  | createNode =>
    rw [perform, bind_pure_comp, Attempt.run_map, run_editing h hfree hlisted _ _
      fun session hstory => Session.realizes_createNode hstory hnow]
    rfl
  | removeNode node =>
    rw [perform, bind_pure_comp, Attempt.run_map, run_editing h hfree hlisted _ _
      fun session hstory => Session.realizes_removeNode hstory node]
    rfl
  | patchNode | addChoice | patchChoice | removeChoice | patchCondition | addOperation
  | patchOperation | removeOperation =>
    rw [perform, Attempt.run_map, hnode]
    rfl
  | addVariable | removeVariable =>
    rw [perform, Attempt.run_map, hdefinitions]
    rfl
  | patchVariable category name patch =>
    rw [perform, Attempt.run_map, run_editing h hfree hlisted _ _ fun session hstory =>
      Session.realizes_patchDefinition hstory hnow category name patch]
    rfl
  | play name payload =>
    rw [perform, bind_pure_comp, Attempt.run_map, plan]
    cases hname : PlayAction.ofName? name with
    | none =>
      rw [PlayAction.dispatch, hname]
      rfl
    | some action =>
      rw [run_dispatch h hfree hlisted hnow hname]
      rfl
  | savePosition slot =>
    rw [perform, bind_pure_comp, Attempt.run_map,
      run_dispatch h hfree hlisted hnow (PlayAction.ofName?_name .save)]
    rfl

end Command

end Narrative
