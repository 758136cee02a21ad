import Narrative.Proofs.Service.Agreement
import Narrative.Proofs.Service.Opening
import Narrative.Proofs.Service.Views

/-!
# Forgetting

A reader who starts again is in the place of a new reader.  The position that the story was opened
at is restored as a whole before that, but nothing of it lasts: neither what the reader sees then
nor anything that choices and jumps lead to later depends on what was in the save slots.
-/

namespace Narrative

variable {records other : Records} {id : Identifier} {now : Instant} {session : Session}
  {parts : StoryKey → Prop}

/-- What playing never changes. -/
def StoryKey.Lasting (part : StoryKey) : Prop := part = .definitions ∨ part = .graph

/-- Where a story is registered and locked, and what playing it never changes. -/
def StoreKey.Lasting (key : StoreKey) (id : Identifier) : Prop :=
  key = .lock id ∨ key = .catalog ∨ ∃ part : StoryKey, part.Lasting ∧ key = .story id part

/-- What playing goes on from. -/
def StoryKey.Current (part : StoryKey) : Prop :=
  part.Lasting ∨ part = .slot Repository.autosaveSlot

namespace Session

theorem confined_opening {reads : String → Prop} {restores : Bool}
    (hcatalog : reads StoreKey.catalog.text)
    (hdefinitions : reads (StoreKey.story id .definitions).text)
    (hgraph : reads (StoreKey.story id .graph).text)
    (hautosave : restores = true →
      reads (StoreKey.story id (.slot Repository.autosaveSlot)).text) :
    (openStory id.spelling restores).Confined reads (fun _ => False) fun _ => True := by
  have hlist : Catalog.load.Confined reads (fun _ => False) fun _ => True :=
    Repository.confined_loadNames hcatalog
  have hrequire : (Catalog.require id.spelling).Confined reads (fun _ => False) fun _ => True := by
    refine (hlist.map fun _ _ => trivial).bind fun listed (_ : True) => ?_
    cases listed
    · exact Attempt.confined_throw _
    · exact Attempt.confined_pure trivial
  refine hrequire.bind fun _ _ => ?_
  refine (Repository.confined_load hdefinitions _ _).bind fun definitions _ => ?_
  refine (Repository.confined_load hgraph _ _).bind fun graph _ => ?_
  cases restores with
  | false => exact Attempt.confined_pure trivial
  | true => exact ⟨hautosave rfl, fun _ _ _ => trivial⟩

/-- What a story opens with is determined by its definitions and its graph, and by the current
position if that is asked for. -/
theorem determined_openStory (restores : Bool)
    (hlasting : ∀ part : StoryKey, part.Lasting → parts part)
    (hautosave : restores = true → parts (.slot Repository.autosaveSlot)) :
    (openStory id.spelling restores).Determined id parts parts (Of id) := by
  refine (onlyReads_openStory _ _).determined (fun records other hagree => ?_)
    fun records session h => (definitions_of_openStory h).1
  have hconfined : (openStory id.spelling restores).Confined
      (fun key => records.get? key = other.get? key) (fun _ => False) fun _ => True :=
    confined_opening hagree.catalog (hagree.part _ (hlasting _ (Or.inl rfl)))
      (hagree.part _ (hlasting _ (Or.inr rfl))) fun h => hagree.part _ (hautosave h)
  exact (hconfined.run_congr fun _ h => h).1

theorem determined_openStory_current :
    (openStory id.spelling true).Determined id StoryKey.Current StoryKey.Current (Of id) :=
  determined_openStory true (fun _ => Or.inl) fun _ => Or.inr rfl

/-- Saving the position makes stores agree on the current position. -/
theorem determined_autosave (hstory : session.Of id) (now : Instant) :
    (session.autosave now).Determined id parts
      (fun part => parts part ∨ part = .slot Repository.autosaveSlot) fun _ => True := by
  refine (Attempt.determined_ofExcept fun _ _ => trivial).bind (fun time (_ : True) => ?_)
    fun _ h => h
  rw [hstory]
  exact (Repository.determined_saveSlot _ _).bind (fun _ _ => Attempt.determined_pure trivial)
    fun _ => Or.inl

end Session

/-! ## Restarting -/

namespace PlayAction

variable {action : PlayAction} {payload : Json.Fields}

/-- Start a story again as a new reader would start it. -/
def startingOver (now : Instant) (story : String) : Attempt Outcome :=
  Attempt.locked (Repository.lockKey story) do
    let session ← Session.openStory story false
    let _ ← session.restart.autosave now
    return { view := session.restart.view, saved := none }

/-- Starting again does not depend on the position that the story is opened at. -/
theorem run_dispatch_eq_startingOver (now : Instant) (story : String) (payload : Json.Fields)
    (records : Records) : (dispatch now story restart.name payload).run records =
      (startingOver now story).run records := by
  rw [dispatch, ofName?_name]
  refine Attempt.run_locked_congr (fun records => ?_) records
  rw [(Session.onlyReads_openStory story true).run_bind,
    (Session.onlyReads_openStory story false).run_bind, Session.run_openStory_restoring]
  cases ((Session.openStory story false).run records).1 with
  | error failure => rfl
  | ok session =>
    have hrestart (payload : Json.Fields) :
        restart.perform payload now (session.resumed records) = pure (session.restart, none) := by
      rw [perform, Session.restart_resumed]
    simp only [Except.map, hrestart, pure_bind]

theorem determined_restart (now : Instant) (payload : Json.Fields) :
    (dispatch now id.spelling restart.name payload).Determined id StoryKey.Lasting
      StoryKey.Current fun _ => True := by
  have hstart : (startingOver now id.spelling).Determined id StoryKey.Lasting StoryKey.Current
      fun _ => True := by
    refine Attempt.Determined.locked ?_
    refine (Session.determined_openStory false (fun _ h => h) (by simp)).bind
      (fun session hstory => ?_) fun _ h => h
    have hof : session.restart.Of id := hstory
    exact (Session.determined_autosave hof now).bind
      (fun _ _ => Attempt.determined_pure trivial) fun _ => Or.inl
  intro records other hagree
  rw [run_dispatch_eq_startingOver, run_dispatch_eq_startingOver]
  exact hstart records other hagree

/-! ## Going on -/

/-- The action moves the reader and uses no save slot. -/
def Wanders : PlayAction → Prop
  | choose | restart | jump => True
  | save | load => False

theorem story_take (session : Session) (checks : List ChoiceCheck) (now : Instant) (index : ℤ) :
    (session.take checks now index).2.story = session.story := by
  rw [Session.take]
  cases session.player.checked checks index with
  | error failure => rfl
  | ok choice =>
    simp only [Session.execute]
    cases now.millis <;> rfl

/-- What such an action does is decided by the session alone. -/
theorem determined_perform (h : action.Wanders) (payload : Json.Fields) (now : Instant)
    (hstory : session.Of id) : (action.perform payload now session).Determined id parts parts
      fun found => found.1.Of id := by
  have hindex : (Attempt.ofExcept (index payload)).Determined id parts parts fun _ => True :=
    Attempt.determined_ofExcept fun _ _ => trivial
  have hpure (result : Session) (hresult : result.story = session.story) :
      Attempt.Determined id parts parts (fun found : Session × Option SaveSlot => found.1.Of id)
        (pure (result, none)) := Attempt.determined_pure (hresult.trans hstory)
  cases action with
  | save | load => exact h.elim
  | restart => exact hpure _ rfl
  | choose =>
    refine hindex.bind (fun index _ => ?_) fun _ hpart => hpart
    have htaken : (Attempt.ofExcept (session.take ChoiceCheck.all now index).1).Determined id parts
        parts fun _ => True := Attempt.determined_ofExcept fun _ _ => trivial
    exact htaken.bind (fun _ _ => hpure _ (story_take session _ now index)) fun _ hpart => hpart
  | jump =>
    refine hindex.bind (fun index _ => ?_) fun _ hpart => hpart
    cases hjump : session.jump? index with
    | none => exact Attempt.determined_throw _
    | some result =>
      obtain ⟨player, -, rfl⟩ := Option.map_eq_some_iff.1 hjump
      exact hpure _ rfl

theorem determined_dispatch (h : action.Wanders) (now : Instant) (payload : Json.Fields) :
    (dispatch now id.spelling action.name payload).Determined id StoryKey.Current
      StoryKey.Current fun _ => True := by
  rw [dispatch, ofName?_name]
  refine Attempt.Determined.locked ?_
  refine Session.determined_openStory_current.bind (fun session hstory => ?_) fun _ hpart => hpart
  refine (determined_perform h payload now hstory).bind (fun found hfound => ?_)
    fun _ hpart => hpart
  have hsave : (found.1.autosave now).Determined id StoryKey.Current StoryKey.Current
      fun _ => True := (Session.determined_autosave hfound now).mono fun _ => Or.inl
  exact hsave.bind (fun _ _ => Attempt.determined_pure trivial) fun _ hpart => hpart

end PlayAction

/-- What a reader can tell after a move, who does not see the store. -/
def Sight.told (sight : Sight) :
    Except Failure PlayAction.Outcome × Except Failure (PlaybackView × List HistoryEntry) :=
  (sight.outcome, sight.shown)

/-- Nobody can tell apart stores that agree on what is played, whatever moves are made. -/
theorem told_congr (hagree : Agree id StoryKey.Current records other) (moves : List PlayMove)
    (hmoves : ∀ move ∈ moves, move.action.Wanders) :
    (dispatchedSights id moves records).map Sight.told =
      (dispatchedSights id moves other).map Sight.told := by
  induction moves generalizing records other with
  | nil => rfl
  | cons move rest ih =>
    obtain ⟨outcome, after, later, hone, hother, hrest⟩ := PlayAction.determined_dispatch
      (hmoves move (.head _)) move.now move.payload records other hagree
    have hafter : Agree id StoryKey.Current after later := by
      cases outcome with
      | ok found => exact hrest.2
      | error failure => exact hrest
    obtain ⟨opened, afterOne, afterOther, hopened, hopenedOther, -⟩ :=
      Session.determined_openStory_current after later hafter
    have hgoes := ih hafter fun move hmove => hmoves move (.tail _ hmove)
    simp only [dispatchedSights, hone, hother, hopened, hopenedOther, List.map_cons, Sight.told,
      hgoes]

/-- The view of a reader who has done nothing yet. -/
structure PlaybackView.Begins (view : PlaybackView) (definitions : Definitions) (graph : Graph) :
    Prop where
  start : view.currentNodeId = graph.startPosition
  /-- Every variable that is defined is shown, at its initial value, and no other is. -/
  values : view.values = (VariableStore.ofDefinitions definitions).snapshot
  consistent : view.Consistent graph []

theorem Session.begins_fresh (story : String) (definitions : Definitions) (graph : Graph) :
    (fresh story definitions graph).view.Begins definitions graph where
  start := rfl
  values := rfl
  consistent :=
    have hsettled : (fresh story definitions graph).player.Settled := rfl
    hsettled.consistent

theorem Session.run_openStory_fresh (h : Kept records) (hlisted : Stored.Registered records id) :
    (openStory id.spelling false).run records =
      (.ok (fresh id.spelling (Stored.definitions records id) (Stored.graph records id)),
        records) := by
  have hopen := openStory_of_registered h hlisted
  rw [run_openStory_restoring] at hopen
  cases hfresh : ((openStory id.spelling false).run records).1 with
  | error failure =>
    rw [hfresh] at hopen
    exact absurd (Prod.mk.inj hopen).1 (by simp [Except.map])
  | ok session =>
    refine Prod.ext ?_ (onlyReads_openStory _ _ records)
    rw [hfresh, fresh_of_openStory hfresh]

theorem Stored.restart_session (records : Records) (id : Identifier) :
    (Stored.session records id).restart =
      Session.fresh id.spelling (definitions records id) (graph records id) := by
  rw [Stored.session]
  cases slot records id Repository.autosaveSlot <;> rfl

/-- A restart that goes through shows what a new reader sees, and leaves no history. -/
theorem PlayAction.opened_of_restart (h : Kept records) {payload : Json.Fields} {outcome : Outcome}
    {after : Records}
    (hdone : (dispatch now id.spelling restart.name payload).run records = (.ok outcome, after)) :
    outcome.view = (Session.fresh id.spelling (Stored.definitions records id)
        (Stored.graph records id)).view ∧
      ∀ moment, (Query.history.perform moment id.spelling).run after =
        (.ok (.document (HistoryAnswer.toJson ⟨[]⟩)), after) := by
  obtain ⟨time, hnow⟩ := readable_of_dispatch hdone
  obtain ⟨action, result, haction, hplan, hview, hsession, -⟩ := opened_of_dispatch h hnow hdone
  obtain rfl : restart = action := Option.some.inj ((ofName?_name restart).symm.trans haction)
  have hresult : result = Session.fresh id.spelling (Stored.definitions records id)
      (Stored.graph records id) := by
    rw [← Stored.restart_session]
    exact (congrArg Prod.fst (Except.ok.inj hplan)).symm
  obtain ⟨hafter, hlisted⟩ := stored_of_dispatch h hdone
  refine ⟨hview.trans (congrArg Session.view hresult), fun moment => ?_⟩
  rw [Query.run_history hafter hlisted, hsession, hresult]
  rfl

/-- Stores that requests have led to agree on what playing never changes once its texts are the
same; what is in their save slots makes no difference. -/
theorem Contended.agree (h : Contended records) (hother : Contended other)
    (hsame : ∀ key : StoreKey, key.Lasting id → records.get? key.text = other.get? key.text) :
    Agree id StoryKey.Lasting records other where
  lock := hsame _ (Or.inl rfl)
  catalog := hsame _ (Or.inr (Or.inl rfl))
  part part hpart := hsame _ (Or.inr (Or.inr ⟨part, hpart, rfl⟩))
  slotList := Or.inr ⟨(h.kept.slotList id).legible, (hother.kept.slotList id).legible⟩

/-- Starting again forgets the playthrough.  What it shows is what a new reader sees, who is at the
start, has done nothing, and has all variables at their initial values.  In stores that have the
same catalog, definitions and graph, whatever is in the save slots, it shows the same, and so does
all playing from then on that uses no save slot. -/
theorem restart_forgets (id : Identifier) :
    (∀ records, Contended records → Stored.Registered records id →
      ∃ session definitions graph,
        (Session.openStory id.spelling false).run records = (.ok session, records) ∧
        (Repository.loadDefinitions id.spelling).run records = (.ok definitions, records) ∧
        (Repository.loadGraph id.spelling).run records = (.ok graph, records) ∧
        session.view.Begins (definitions.getD .default) (graph.getD .default) ∧
        (∀ now payload outcome after,
          (PlayAction.dispatch now id.spelling PlayAction.restart.name payload).run records =
            (.ok outcome, after) →
          outcome.view = session.view ∧
          ∀ moment, (Query.history.perform moment id.spelling).run after =
            (.ok (.document (HistoryAnswer.toJson ⟨[]⟩)), after)) ∧
        (¬Held records id → ∀ now payload, now.Readable → ∃ outcome after,
          (PlayAction.dispatch now id.spelling PlayAction.restart.name payload).run records =
            (.ok outcome, after))) ∧
    (∀ records other, Contended records → Contended other →
      (∀ key : StoreKey, key.Lasting id → records.get? key.text = other.get? key.text) →
      Agree id StoryKey.Lasting records other) ∧
    ∀ records other, Agree id StoryKey.Lasting records other → ∀ now payload,
      ∃ outcome after later,
        (PlayAction.dispatch now id.spelling PlayAction.restart.name payload).run records =
          (outcome, after) ∧
        (PlayAction.dispatch now id.spelling PlayAction.restart.name payload).run other =
          (outcome, later) ∧
        (outcome.isOk → ∀ moves : List PlayMove, (∀ move ∈ moves, move.action.Wanders) →
          (dispatchedSights id moves after).map Sight.told =
            (dispatchedSights id moves later).map Sight.told) := by
  refine ⟨fun records hcontended hlisted => ?_, fun records other h hother => h.agree hother,
    fun records other hagree now payload => ?_⟩
  · have hkept := hcontended.kept
    obtain ⟨definitions, hdefinitions, hstored⟩ := Repository.run_loadDefinitions hkept id
    obtain ⟨graph, hgraph, hplayed⟩ := Repository.run_loadGraph hkept id
    refine ⟨_, definitions, graph, Session.run_openStory_fresh hkept hlisted, hdefinitions, hgraph,
      ?_, fun now payload outcome after hdone => PlayAction.opened_of_restart hkept hdone,
      fun hfree now payload hnow => ?_⟩
    · rw [hstored, hplayed]
      exact Session.begins_fresh _ _ _
    · obtain ⟨time, htime⟩ := hnow
      obtain ⟨later, hlater⟩ := run_dispatch_restart hkept hfree hlisted htime payload
      exact ⟨_, later, hlater⟩
  · obtain ⟨outcome, after, later, hone, hother, hrest⟩ :=
      PlayAction.determined_restart now payload records other hagree
    refine ⟨outcome, after, later, hone, hother, fun hok moves hmoves => ?_⟩
    cases outcome with
    | ok found => exact told_congr hrest.2 moves hmoves
    | error failure => exact absurd hok (by simp [Except.isOk, Except.toBool])

/-- A new story whose current position nobody can read, and in which another one has been saved. -/
def strayStory : Records :=
  saved ⟨1⟩ "bookmark" { currentNodeId := "elsewhere" }
    (newStory.insert (StoreKey.story ⟨1⟩ (.slot Repository.autosaveSlot)).text "elsewhere")

theorem agree_strayStory : Agree ⟨1⟩ StoryKey.Lasting newStory strayStory := by
  have hinsert (key : StoreKey) (hkey : .story ⟨1⟩ (.slot Repository.autosaveSlot) ≠ key) :
      (newStory.insert (StoreKey.story ⟨1⟩ (.slot Repository.autosaveSlot)).text "elsewhere").get?
        key.text = newStory.get? key.text := by
    rw [get?_insert_text, if_neg hkey]
  have hframe (key : StoreKey) (hlist : .story ⟨1⟩ .slotList ≠ key)
      (hslot : ∀ name, .story ⟨1⟩ (.slot name) ≠ key) :
      newStory.get? key.text = strayStory.get? key.text := by
    rw [strayStory, get?_saved_of_ne _ _ _ hlist (hslot _), hinsert key (hslot _)]
  obtain ⟨names, hnames⟩ := reachable_newStory.kept.slotList ⟨1⟩
  have hlisted : Listed strayStory ⟨1⟩ :=
    ⟨_, namesAt_saved (hnames.congr (hinsert _ (by simp))) _ _⟩
  refine ⟨hframe _ (by simp) (by simp), hframe _ (by simp) (by simp), ?_,
    Or.inr ⟨Listed.legible ⟨names, hnames⟩, hlisted.legible⟩⟩
  rintro _ (rfl | rfl)
  · exact hframe _ (by simp) (by simp)
  · exact hframe _ (by simp) (by simp)

/-- Starting a new story again is the same whatever has been saved in it. -/
theorem restart_forgets_newStory : ∃ session outcome after later,
    (Session.openStory (Identifier.mk 1).spelling false).run newStory = (.ok session, newStory) ∧
    (PlayAction.dispatch ⟨0.0⟩ (Identifier.mk 1).spelling PlayAction.restart.name []).run newStory =
      (.ok outcome, after) ∧
    outcome.view = session.view ∧
    (PlayAction.dispatch ⟨0.0⟩ (Identifier.mk 1).spelling PlayAction.restart.name []).run
      strayStory = (.ok outcome, later) ∧
    ∀ moves : List PlayMove, (∀ move ∈ moves, move.action.Wanders) →
      (dispatchedSights ⟨1⟩ moves after).map Sight.told =
        (dispatchedSights ⟨1⟩ moves later).map Sight.told := by
  obtain ⟨hforgets, -, hsame⟩ := restart_forgets ⟨1⟩
  obtain ⟨session, -, -, hopen, -, -, -, hview, hgoes⟩ :=
    hforgets newStory (.reachable reachable_newStory) registered_newStory
  obtain ⟨outcome, after, hdone⟩ :=
    hgoes (reachable_newStory.not_held ⟨1⟩) ⟨0.0⟩ [] ⟨_, Instant.millis_zero⟩
  obtain ⟨same, next, later, hone, hother, htold⟩ := hsame _ _ agree_strayStory ⟨0.0⟩ []
  obtain ⟨rfl, rfl⟩ := Prod.mk.inj (hdone.symm.trans hone)
  exact ⟨session, outcome, after, later, hopen, hdone, (hview _ _ _ _ hdone).1, hother, htold rfl⟩

end Narrative
