import Narrative.Proofs.Service.Commands
import Narrative.Proofs.Session.Sound
import Narrative.Proofs.Service.Looking

/-!
# Reachable stores

A request on a kept store does one of three things: it leaves everything as it is, it creates a
story, or it carries out the plan of a command.  So every store that requests can lead to is kept,
and nobody holds a lock in it.
-/

namespace Narrative

variable {records : Records} {id : Identifier} {now : Instant} {time : ℤ}

namespace Plan

variable {α β : Type}

theorem timely_refused (failure : Failure) : (refused failure : Plan α).Timely :=
  fun _ h => absurd h (List.not_mem_nil)

theorem Timely.map {plan : Plan α} (h : plan.Timely) (f : α → β) : (plan.map f).Timely := h

end Plan

namespace PlayAction

theorem timely_plan {session : Session} (h : ShortTimes session.place.history)
    (htime : ShortTime time) (payload : Json.Fields) (slots : String → Option SaveSlot)
    (action : PlayAction) : (action.plan payload time slots session).Timely := by
  cases action with
  | choose | restart | jump | load => exact fun _ hentry => absurd hentry List.not_mem_nil
  | save =>
    simp only [plan]
    cases slotName session.story (slot payload) with
    | error failure => exact Plan.timely_refused failure
    | ok name =>
      intro entry hentry
      rw [List.mem_singleton.1 hentry]
      exact Session.timely_position session h htime

end PlayAction

namespace Session

variable {session : Session}

theorem timely_definitionsPlan (h : ShortTimes session.place.history) (htime : ShortTime time)
    (refusal : Failure) (edit : Definitions → Option DefinitionsEdit) :
    (session.definitionsPlan time refusal edit).Timely := by
  unfold definitionsPlan
  cases edit session.store.definitions with
  | none => exact Plan.timely_refused refusal
  | some edit =>
    intro entry hentry
    rw [List.mem_singleton.1 hentry]
    exact timely_position (session.installed edit) h htime

/-- After an import nothing has been played. -/
theorem history_replaced (session : Session) (graph : Graph) (definitions : Option Definitions) :
    (session.replaced graph definitions).place.history = [] := rfl

theorem timely_importPlan (htime : ShortTime time) (refusal : Failure) (document : Json.Fields) :
    (session.importPlan time refusal document).Timely := by
  unfold importPlan
  cases imported (.obj document) with
  | none => exact Plan.timely_refused refusal
  | some found =>
    obtain ⟨graph, definitions⟩ := found
    simp only
    split
    · exact Plan.timely_refused _
    · exact fun _ hentry => absurd hentry List.not_mem_nil
    · intro entry hentry
      rw [List.mem_singleton.1 hentry]
      exact timely_position _ (by simp [history_replaced, ShortTimes]) htime

theorem slots_nodePlan (key : String) (refusal : Failure) (edit : Graph → Option Graph) :
    (session.nodePlan key refusal edit).slots = [] := by
  unfold nodePlan
  cases edit session.graph <;> rfl

end Session

namespace Command

theorem timely_actionPlan {session : Session} (h : session.Sound) (htime : ShortTime time)
    {slots : String → Option SaveSlot}
    (hslots : ∀ name position, slots name = some position → position.Readable)
    (payload : Json.Fields) (action : PlayAction) :
    (actionPlan time payload slots session action).Timely := by
  unfold actionPlan PlayAction.autosaved
  split
  case h_1 result position houtcome =>
    have hresult := h.leads htime hslots (PlayAction.leads_of_plan houtcome)
    refine List.forall_mem_append.2 ⟨PlayAction.timely_plan h.history htime _ _ _, ?_⟩
    intro entry hentry
    rw [List.mem_singleton.1 hentry]
    exact Session.timely_position result hresult.history htime
  case h_2 failure _ => exact Plan.timely_refused failure

/-- The plan of a command on a sound session saves positions that can be read again. -/
theorem timely_plan {session : Session} (h : session.Sound) (htime : ShortTime time)
    {slots : String → Option SaveSlot}
    (hslots : ∀ name position, slots name = some position → position.Readable)
    (assets : Option Assets) (command : Command) :
    (command.plan assets time session slots).Timely := by
  have hnode (key : String) (refusal : Failure) (edit : Graph → Option Graph) :
      (session.nodePlan key refusal edit).Timely := by
    rw [Plan.Timely, Session.slots_nodePlan]
    simp
  cases command with
  | importStory document => exact Session.timely_importPlan htime _ _
  | loadDemo =>
    simp only [plan]
    split
    · exact Session.timely_importPlan htime _ _
    · exact Plan.timely_refused _
  | createNode => exact fun _ hentry => absurd hentry List.not_mem_nil
  | removeNode node =>
    simp only [plan, Session.removalPlan]
    split <;> exact fun _ hentry => absurd hentry List.not_mem_nil
  | patchNode | addChoice | patchChoice | removeChoice | patchCondition | addOperation
  | patchOperation | removeOperation => exact (hnode _ _ _).map _
  | addVariable | removeVariable =>
    exact (Session.timely_definitionsPlan h.history htime _ _).map _
  | patchVariable category name patch =>
    simp only [plan]
    split
    · exact Plan.timely_refused _
    · exact Session.timely_definitionsPlan h.history htime _ _
  | play name payload =>
    simp only [plan]
    split
    · exact timely_actionPlan h htime hslots _ _
    · exact Plan.timely_refused _
  | savePosition slot => exact timely_actionPlan h htime hslots _ _

/-- A command on a story that is held or that the catalog does not list changes nothing. -/
theorem run_of_refused (now : Instant) (h : Kept records)
    (hrefused : Held records id ∨ ¬Stored.Registered records id) (assets : Option Assets)
    (command : Command) : ∃ failure,
      (command.perform assets now id.spelling).run records = (.error failure, records) := by
  have hediting {α : Type} (change : Session → Attempt α) : ∃ failure,
      (editing id.spelling change).run records = (.error failure, records) := by
    by_cases hheld : Held records id
    · exact ⟨_, run_editing_of_held hheld⟩
    · exact ⟨_, run_editing_of_not_registered h hheld (hrefused.resolve_left hheld)⟩
  have hmap {α : Type} {attempt : Attempt α} (f : α → Reply)
      (hattempt : ∃ failure, attempt.run records = (.error failure, records)) : ∃ failure,
      (f <$> attempt).run records = (.error failure, records) := by
    obtain ⟨failure, hfailure⟩ := hattempt
    exact ⟨failure, by rw [Attempt.run_map, hfailure]; rfl⟩
  cases command with
  | createNode | removeNode =>
    rw [perform, bind_pure_comp]
    exact hmap _ (hediting _)
  | play name payload =>
    rw [perform, bind_pure_comp]
    exact hmap _ (run_dispatch_of_refused now h hrefused _ _)
  | savePosition slot =>
    rw [perform, bind_pure_comp]
    exact hmap _ (run_dispatch_of_refused now h hrefused _ _)
  | importStory | loadDemo | patchNode | addChoice | patchChoice | removeChoice | patchCondition
  | addOperation | patchOperation | removeOperation | addVariable | patchVariable
  | removeVariable => exact hmap _ (hediting _)

end Command

/-- The plan of a new story. -/
def creation : Plan Unit where
  definitions := some .default
  graph := some .default
  outcome := .ok ()

/-- The store with a new story in the catalog. -/
def created (id : Identifier) (records : Records) : Records :=
  (creation.store id records).insert StoreKey.catalog.text
    (Json.listText (Stored.labels records .catalog ++ [.text id.spelling]))

theorem Catalog.run_create (h : Kept records) (id : Identifier) :
    (create id).run records = (.ok id, created id records) := by
  obtain ⟨ids, hids⟩ := h.catalog
  have hcatalog : NamesAt (creation.store id records) .catalog (ids.map Identifier.spelling) :=
    hids.congr (creation.get?_store_catalog records)
  have hload : load.run (creation.store id records) =
      (.ok (Stored.labels records .catalog), creation.store id records) := by
    have hnames := Repository.run_loadNames hcatalog
    rwa [hcatalog.labels, ← hids.labels] at hnames
  change Attempt.run (load >>= _) (creation.store id records) = _
  rw [Attempt.run_bind, hload]
  rfl

theorem get?_created_of_ne (id : Identifier) (records : Records) {key : StoreKey}
    (h : .catalog ≠ key) :
    (created id records).get? key.text = (creation.store id records).get? key.text := by
  rw [created, get?_insert_text, if_neg h]

theorem registered_created (h : Kept records) (id other : Identifier) :
    Stored.Registered (created id records) other ↔
      Stored.Registered records other ∨ other = id := by
  obtain ⟨ids, hids⟩ := h.catalog
  have hnames : NamesAt (created id records) .catalog ((ids ++ [id]).map Identifier.spelling) := by
    refine Or.inr ?_
    rw [created, get?_insert_text, if_pos rfl, hids.labels]
    simp
  have hspelling (identifier : Identifier) : other.spelling = identifier.spelling ↔
      other = identifier := ⟨Identifier.spelling_injective, congrArg Identifier.spelling⟩
  rw [Stored.Registered, hnames.labels, Stored.Registered, hids.labels]
  simp only [List.map_append, List.map_map, List.mem_append, List.mem_map, Function.comp_apply,
    List.map_cons, List.map_nil, List.mem_singleton, Label.text.injEq, hspelling]

theorem Kept.created (h : Kept records) (id : Identifier) : Kept (created id records) := by
  have hstored : Kept (creation.store id records) :=
    Plan.kept_store (fun _ hentry => absurd hentry List.not_mem_nil) h
  obtain ⟨ids, hids⟩ := h.catalog
  have hlisted := hstored.insert_catalog (ids ++ [id])
  rw [List.map_append, List.map_append] at hlisted
  rwa [Narrative.created, hids.labels]

/-! ## Requests -/

/-- What a request does to a store. -/
inductive Step (assets : Option Assets) (fresh : Identifier) (time : ℤ) (records : Records) :
    Request → Except Failure Reply × Records → Prop where
  | look {request : Request} (hcreates : request.creates = false)
      (hchanged : request.changed? = none) (outcome : Except Failure Reply) :
      Step assets fresh time records request (outcome, records)
  | create :
      Step assets fresh time records .createStory
        (.ok (.created (StoryIdAnswer.toJson ⟨fresh⟩)), created fresh records)
  | refuse (id : Identifier) (command : Command) (failure : Failure)
      (hrefused : Held records id ∨ ¬Stored.Registered records id) :
      Step assets fresh time records (.command id command) (.error failure, records)
  | change (id : Identifier) (command : Command) (hfree : ¬Held records id)
      (hlisted : Stored.Registered records id) :
      Step assets fresh time records (.command id command)
        ((command.plan assets time (Stored.session records id) (Stored.slot records id)).outcome,
          (command.plan assets time (Stored.session records id) (Stored.slot records id)).store id
            records)

theorem Request.run_createStory (h : Kept records) (assets : Option Assets) (fresh : Identifier) :
    (createStory.perform assets fresh now).run records =
      (.ok (.created (StoryIdAnswer.toJson ⟨fresh⟩)), created fresh records) := by
  have hcreate : (Attempt.unexplained (Catalog.create fresh)).run records =
      (.ok fresh, created fresh records) := by
    rw [Attempt.run_unexplained, Catalog.run_create h]
    rfl
  rw [perform, Attempt.run_bind, hcreate]
  rfl

/-- A request on a kept store leaves everything as it is, creates a story, or carries out a plan. -/
theorem Request.step (h : Kept records) (hnow : now.millis = .ok time) (assets : Option Assets)
    (fresh : Identifier) (request : Request) :
    Step assets fresh time records request ((request.perform assets fresh now).run records) := by
  have hlook (hcreates : request.creates = false) (hchanged : request.changed? = none) :
      Step assets fresh time records request ((request.perform assets fresh now).run records) := by
    have hreads := Request.onlyReads_perform hcreates hchanged assets fresh now records
    rw [← Prod.mk.eta (p := (request.perform assets fresh now).run records), hreads]
    exact .look hcreates hchanged _
  cases request with
  | health | about | documentation | listStories | query => exact hlook rfl rfl
  | createStory =>
    rw [run_createStory h]
    exact .create
  | command id command =>
    by_cases hrefused : Held records id ∨ ¬Stored.Registered records id
    · obtain ⟨failure, hrun⟩ := command.run_of_refused now h hrefused assets
      rw [perform, hrun]
      exact .refuse id command failure hrefused
    · rw [not_or, not_not] at hrefused
      rw [perform, command.run_perform h hrefused.1 hrefused.2 hnow assets]
      exact .change id command hrefused.1 hrefused.2

namespace Step

variable {assets : Option Assets} {fresh : Identifier} {request : Request}
  {result : Except Failure Reply × Records}

/-- Requests keep a kept store kept. -/
theorem kept (h : Step assets fresh time records request result) (hkept : Kept records)
    (htime : ShortTime time) : Kept result.2 := by
  cases h with
  | look | refuse => exact hkept
  | create => exact hkept.created fresh
  | change id command =>
    exact Plan.kept_store (Command.timely_plan (Stored.sound_session hkept id) htime
      (fun _ _ => Stored.readable_slot hkept) assets command) hkept

/-- Requests leave all locks as they are. -/
theorem get?_lock (h : Step assets fresh time records request result) (id : Identifier) :
    result.2.get? (StoreKey.lock id).text = records.get? (StoreKey.lock id).text := by
  cases h with
  | look | refuse => rfl
  | create => rw [get?_created_of_ne _ _ (by simp), Plan.get?_store_lock]
  | change other command => exact Plan.get?_store_lock _ records id

theorem held_iff (h : Step assets fresh time records request result) (id : Identifier) :
    Held result.2 id ↔ Held records id := by
  rw [Held, Held, Table.contains, Table.contains, h.get?_lock]

/-- A story that the catalog lists stays in it. -/
theorem registered (h : Step assets fresh time records request result) (hkept : Kept records)
    (hlisted : Stored.Registered records id) : Stored.Registered result.2 id := by
  cases h with
  | look | refuse => exact hlisted
  | create => exact (registered_created hkept fresh id).2 (Or.inl hlisted)
  | change other command => exact (Plan.registered_store _ records id).2 hlisted

end Step

/-! ## Reachable stores -/

/-- A request with everything that surrounds it.  There is one instant for all of it, although the
entry of a choice in the history and each position that is saved read the clock anew. -/
structure Occasion where
  request : Request
  assets : Option Assets
  fresh : Identifier
  now : Instant

/-- Carry out the request of an occasion. -/
def Occasion.run (occasion : Occasion) (records : Records) : Except Failure Reply × Records :=
  (occasion.request.perform occasion.assets occasion.fresh occasion.now).run records

/-- The stores that runs of allowed requests lead to.  Whether a request is allowed may depend on
the store that it finds. -/
inductive Run (allowed : Records → Occasion → Prop) (start : Records) : Records → Prop where
  | start : Run allowed start start
  | next {records : Records} (h : Run allowed start records) (occasion : Occasion)
      (hnow : occasion.now.Readable) (hallowed : allowed records occasion) :
      Run allowed start (occasion.run records).2

/-- A dispatched action is a request. -/
theorem Run.dispatch {allowed : Records → Occasion → Prop} {start : Records}
    (h : Run allowed start records) (hnow : now.Readable) {name : String} {payload : Json.Fields}
    (assets : Option Assets) (fresh : Identifier)
    (hallowed : allowed records ⟨.command id (.play name payload), assets, fresh, now⟩) :
    Run allowed start ((PlayAction.dispatch now id.spelling name payload).run records).2 := by
  have hnext := Run.next h ⟨.command id (.play name payload), assets, fresh, now⟩ hnow hallowed
  rwa [Occasion.run, Request.perform, Command.perform, bind_pure_comp, Attempt.run_map] at hnext

/-- The stores that requests can lead to. -/
def Reachable (records : Records) : Prop := Run (fun _ _ => True) .empty records

variable {allowed : Records → Occasion → Prop} {start : Records}

/-- Runs keep a kept store kept. -/
theorem Run.kept (h : Run allowed start records) (hstart : Kept start) : Kept records := by
  induction h with
  | start => exact hstart
  | next _ _ hnow _ ih =>
    obtain ⟨time, htime⟩ := hnow
    exact (Request.step ih htime _ _ _).kept ih (shortTime_of_millis htime)

theorem Run.reachable (h : Run allowed start records) (hstart : Reachable start) :
    Reachable records := by
  induction h with
  | start => exact hstart
  | next _ occasion hnow _ ih => exact Run.next ih occasion hnow trivial

namespace Reachable

/-- Every text in a reachable store was written by the repository. -/
theorem kept (h : Reachable records) : Kept records := Run.kept h kept_empty

/-- Nobody holds a lock between requests. -/
theorem not_held (h : Reachable records) (id : Identifier) : ¬Held records id := by
  have hnone : records.get? (StoreKey.lock id).text = none := by
    induction h with
    | start => rfl
    | next h _ hnow _ ih =>
      obtain ⟨time, htime⟩ := hnow
      rw [← ih]
      exact (Request.step (Reachable.kept h) htime _ _ _).get?_lock id
  rw [Held, Table.contains_eq_false.2 hnone]
  decide

theorem dispatch (h : Reachable records) (hnow : now.Readable) (id : Identifier) (name : String)
    (payload : Json.Fields) :
    Reachable ((PlayAction.dispatch now id.spelling name payload).run records).2 :=
  Run.dispatch h hnow none id trivial

theorem create (h : Reachable records) (id : Identifier) : Reachable (created id records) := by
  have hnow : (Instant.mk 0.0).Readable := Instant.readable_of_isFinite (by decide)
  have hnext := Run.next h ⟨.createStory, none, id, ⟨0.0⟩⟩ hnow trivial
  rwa [Occasion.run, Request.run_createStory h.kept] at hnext

end Reachable

/-- A command on a story of the catalog that is allowed carries out its plan. -/
theorem Run.command (h : Run allowed .empty records) (hlisted : Stored.Registered records id)
    (hnow : now.millis = .ok time) {assets : Option Assets} (fresh : Identifier) {command : Command}
    (hallowed : allowed records ⟨.command id command, assets, fresh, now⟩) :
    Run allowed .empty ((command.plan assets time (Stored.session records id)
      (Stored.slot records id)).store id records) := by
  have hreach : Reachable records := h.reachable Run.start
  have hnext := Run.next h ⟨.command id command, assets, fresh, now⟩ ⟨time, hnow⟩ hallowed
  rwa [Occasion.run, Request.perform, command.run_perform hreach.kept (hreach.not_held id) hlisted
    hnow] at hnext

theorem Reachable.command (h : Reachable records) (hlisted : Stored.Registered records id)
    (hnow : now.millis = .ok time) (assets : Option Assets) (command : Command) :
    Reachable ((command.plan assets time (Stored.session records id)
      (Stored.slot records id)).store id records) :=
  Run.command h hlisted hnow id trivial

/-- The store of a service that has created one story. -/
def newStory : Records := created ⟨1⟩ .empty

theorem Run.newStory (h : allowed .empty ⟨.createStory, none, ⟨1⟩, ⟨0.0⟩⟩) :
    Run allowed .empty newStory := by
  have hnow : (Instant.mk 0.0).Readable := Instant.readable_of_isFinite (by decide)
  have hnext := Run.next Run.start ⟨.createStory, none, ⟨1⟩, ⟨0.0⟩⟩ hnow h
  rwa [Occasion.run, Request.run_createStory kept_empty] at hnext

theorem reachable_newStory : Reachable newStory := Reachable.create Run.start ⟨1⟩

theorem registered_newStory : Stored.Registered newStory ⟨1⟩ :=
  (registered_created kept_empty ⟨1⟩ ⟨1⟩).2 (Or.inr rfl)

end Narrative
