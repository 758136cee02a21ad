import Narrative.Proofs.Storage.Confined
import Narrative.Service.Perform

/-!
# Footprints of requests

A request on a story reads the catalog to find out whether it lists the story.  Apart from that it
reads and writes the keys of the story only, and those of a change are read and written while the
lock of the story is held.  What a change writes are the graph, the definitions and saved positions.
-/

namespace Narrative

open Attempt

variable {id : Identifier} {now : Instant} {session : Session}

namespace Identifier

/-- The key is one of those under which the parts of the story are kept. -/
def Owns (id : Identifier) (key : String) : Prop := ∃ part, key = (StoreKey.story id part).text

/-- The key is that of the graph or that of the definitions of the story. -/
def OwnsContent (id : Identifier) (key : String) : Prop :=
  key = (StoreKey.story id .graph).text ∨ key = (StoreKey.story id .definitions).text

/-- The key is that of the catalog or one of the story. -/
def Sees (id : Identifier) (key : String) : Prop := key = StoreKey.catalog.text ∨ id.Owns key

theorem owns_text {id other : Identifier} {part : StoryKey} :
    id.Owns (StoreKey.story other part).text ↔ other = id := by
  constructor
  · rintro ⟨more, h⟩
    exact (StoreKey.story.inj (StoreKey.text_injective h)).1
  · rintro rfl
    exact ⟨part, rfl⟩

theorem OwnsContent.owns {key : String} (h : id.OwnsContent key) : id.Owns key := by
  rcases h with rfl | rfl
  · exact ⟨.graph, rfl⟩
  · exact ⟨.definitions, rfl⟩

theorem not_owns_lock (id other : Identifier) : ¬id.Owns (StoreKey.lock other).text := by
  rintro ⟨part, h⟩
  exact StoreKey.noConfusion (StoreKey.text_injective h)

theorem not_owns_catalog (id : Identifier) : ¬id.Owns StoreKey.catalog.text := by
  rintro ⟨part, h⟩
  exact StoreKey.noConfusion (StoreKey.text_injective h)

theorem not_sees_lock (id other : Identifier) : ¬id.Sees (StoreKey.lock other).text := by
  rintro (h | h)
  · exact StoreKey.noConfusion (StoreKey.text_injective h)
  · exact not_owns_lock id other h

/-- Different stories have no keys in common. -/
theorem Owns.eq {other : Identifier} {key : String} (h : id.Owns key) (hother : other.Owns key) :
    id = other := by
  obtain ⟨part, rfl⟩ := h
  exact owns_text.1 hother

theorem Owns.ne_lock {key : String} (h : id.Owns key) (other : Identifier) :
    key ≠ (StoreKey.lock other).text := fun heq => not_owns_lock id other (heq ▸ h)

end Identifier

namespace Repository

variable {reads writes : String → Prop}

theorem confined_load {α : Type} {key : String} (h : reads key) (title : String)
    (reader : Schema.Origin → Schema.Reader α) :
    (load key title reader).Confined reads writes fun _ => True := by
  refine (confined_get h).bind fun found _ => ?_
  cases found with
  | none => exact confined_pure trivial
  | some text =>
    simp only
    split
    · exact confined_pure trivial
    · exact (confined_ofExcept fun _ _ => trivial).map fun _ (_ : True) => trivial

theorem confined_loadNames {key : String} (h : reads key) :
    (loadNames key).Confined reads writes fun _ => True := by
  refine (confined_get h).bind fun found _ => ?_
  cases found with
  | none => exact confined_pure trivial
  | some text => exact confined_ofExcept fun _ _ => trivial

theorem confined_saveSlot (name : String) (position : SaveSlot) :
    (saveSlot id.spelling name position).Confined id.Owns id.Owns fun _ => True := by
  refine (confined_put ⟨.slot name, rfl⟩ _).bind fun _ _ => ?_
  refine (confined_loadNames ⟨.slotList, rfl⟩).bind fun slots _ => ?_
  split
  · exact confined_pure trivial
  · exact confined_put ⟨.slotList, rfl⟩ _

end Repository

theorem Catalog.confined_require {writes : String → Prop} (id : Identifier) :
    (Catalog.require id.spelling).Confined id.Sees writes fun _ => True := by
  refine Confined.bind (Confined.map (Repository.confined_loadNames (Or.inl rfl))
    fun _ _ => trivial) fun listed (_ : True) => ?_
  cases listed
  · exact confined_throw _
  · exact confined_pure trivial

/-! ## Sessions -/

namespace Session

/-- The session belongs to the story. -/
def Of (id : Identifier) (session : Session) : Prop := session.story = id.spelling

variable {writes : String → Prop}

theorem confined_build (id : Identifier) (restores : Bool) :
    (build id.spelling restores).Confined id.Owns writes (Of id) := by
  refine (Repository.confined_load ⟨.definitions, rfl⟩ _ _).bind fun definitions _ => ?_
  refine (Repository.confined_load ⟨.graph, rfl⟩ _ _).bind fun graph _ => ?_
  cases restores with
  | false => exact confined_pure rfl
  | true =>
    refine ⟨⟨.slot Repository.autosaveSlot, rfl⟩, fun found => ?_⟩
    rintro _ ⟨⟩
    cases found.bind Repository.parsedSlot <;> rfl

theorem confined_openStory (id : Identifier) :
    (openStory id.spelling true).Confined id.Sees writes (Of id) :=
  (Catalog.confined_require id).bind fun _ _ =>
    (confined_build id true).mono (fun _ => Or.inr) fun _ h => h

theorem confined_saveGraph (h : session.Of id) :
    session.saveGraph.Confined id.Owns id.OwnsContent fun _ => True := by
  rw [saveGraph, h]
  exact ⟨Or.inl rfl, trivial⟩

theorem confined_loadSave (h : session.Of id) (name : String) :
    (session.loadSave name).Confined id.Owns writes
      fun found => ∀ session, found = some session → session.Of id := by
  rw [loadSave, h]
  refine ⟨⟨.slot name, rfl⟩, fun found result hresult => ?_⟩
  obtain ⟨position, -, rfl⟩ := Option.map_eq_some_iff.1 hresult
  exact h

theorem confined_editGraph (h : session.Of id) (edit : Graph → Option Graph) :
    (session.editGraph edit).Confined id.Owns id.OwnsContent fun result => result.2.Of id := by
  rw [editGraph]
  cases edit session.graph with
  | none => exact h
  | some graph =>
    have hgraph : Of id { session with graph } := h
    exact (confined_saveGraph hgraph).bind fun _ _ => h

theorem confined_createNode (h : session.Of id) (now : Instant) :
    (session.createNode now).Confined id.Owns id.OwnsContent fun result => result.2.Of id := by
  refine (confined_ofExcept fun _ _ => trivial).bind fun time (_ : True) => ?_
  have hgraph : Of id { session with
    graph := session.graph.addNode (session.graph.freshKey time) } := h
  exact (confined_lift (confined_saveGraph hgraph)).bind fun _ _ => confined_pure hgraph

theorem confined_install (h : session.Of id) (edit : DefinitionsEdit) :
    (session.install edit).Confined id.Owns id.OwnsContent (Of id) := by
  exact ⟨Or.inr (congrArg Repository.definitionsKey h), h⟩

theorem confined_editDefinitions (h : session.Of id)
    (edit : Definitions → Option DefinitionsEdit) :
    (session.editDefinitions edit).Confined id.Owns id.OwnsContent
      fun result => result.2.Of id := by
  rw [editDefinitions]
  cases edit session.store.definitions with
  | none => exact h
  | some edit => exact (confined_install h edit).bind fun _ hresult => hresult

theorem confined_importStory (h : session.Of id) (data : Json) :
    (session.importStory data).Confined id.Owns id.OwnsContent fun result => result.2.Of id := by
  have hgraph {session : Session} (h : session.Of id) (graph : Schema.Draft Graph) :
      Attempt.Confined id.Owns id.OwnsContent (fun result : Bool × Session => result.2.Of id) (do
        let graph ← Attempt.ofExcept graph.storable
        let session := { session with graph, ownGraph := some session.playedGraph }
        session.saveGraph
        return (true, session)) := by
    refine (confined_ofExcept fun _ _ => trivial).bind fun graph (_ : True) => ?_
    have hreplaced : Of id { session with graph, ownGraph := some session.playedGraph } := h
    exact (confined_lift (confined_saveGraph hreplaced)).bind fun _ _ => confined_pure hreplaced
  rw [importStory]
  cases imported data with
  | none => exact confined_pure h
  | some found =>
    obtain ⟨graph, definitions | definitions⟩ := found
    · exact hgraph h graph
    · exact (confined_ofExcept fun _ _ => trivial).bind fun definitions (_ : True) =>
        (confined_lift (confined_install h ⟨definitions, true⟩)).bind fun session hsession =>
          hgraph hsession graph

end Session

/-! ## Changes -/

/-- What a change of an open story is made of: steps that read what is kept of the story and write
no more than its graph and its definitions, and saves of positions. -/
inductive Attempt.Amends (id : Identifier) : {α : Type} → (α → Prop) → Attempt α → Prop where
  | edits {α : Type} {yields : α → Prop} {attempt : Attempt α}
      (h : attempt.Confined id.Owns id.OwnsContent yields) : Amends id yields attempt
  | saves (name : String) (position : SaveSlot) :
      Amends id (fun _ => True) (Repository.saveSlot id.spelling name position)
  | bind {α β : Type} {yields : α → Prop} {results : β → Prop} {attempt : Attempt α}
      {f : α → Attempt β} (h : Amends id yields attempt)
      (hf : ∀ value, yields value → Amends id results (f value)) :
      Amends id results (attempt >>= f)

namespace Attempt

variable {α : Type} {yields : α → Prop} {attempt : Attempt α}

theorem Amends.confined (h : Amends id yields attempt) :
    attempt.Confined id.Owns id.Owns yields := by
  induction h with
  | edits h => exact Script.Confined.widen h fun _ => Identifier.OwnsContent.owns
  | saves name position => exact Repository.confined_saveSlot name position
  | bind _ _ ih ihf => exact ih.bind ihf

theorem amends_pure {value : α} (h : yields value) : Amends id yields (pure value) :=
  .edits (confined_pure h)

theorem amends_throw (failure : Failure) : Amends id yields (throw failure : Attempt α) :=
  .edits (confined_throw failure)

theorem amends_ofExcept (outcome : Except Failure α) :
    Amends id (fun _ => True) (ofExcept outcome) :=
  .edits (confined_ofExcept fun _ _ => trivial)

end Attempt

theorem Session.amends_save (h : session.Of id) (now : Instant) (name : String) :
    Amends id (fun _ => True) (session.save now name) := by
  refine .bind (amends_ofExcept _) fun time _ => ?_
  rw [h]
  exact .bind (.saves name _) fun _ _ => amends_pure trivial

namespace PlayAction

theorem amends_perform (h : session.Of id) (action : PlayAction) (payload : Json.Fields)
    (now : Instant) :
    Amends id (fun result => result.1.Of id) (action.perform payload now session) := by
  cases action with
  | choose =>
    refine .bind (amends_ofExcept _) fun index _ => ?_
    have htake : (session.take ChoiceCheck.all now index).2.Of id := by
      rw [Session.take]
      cases session.player.checked ChoiceCheck.all index with
      | error failure => exact h
      | ok choice =>
        simp only [Session.execute]
        cases now.millis <;> exact h
    exact .bind (amends_ofExcept _) fun _ _ => amends_pure htake
  | restart => exact amends_pure h
  | jump =>
    refine .bind (amends_ofExcept _) fun index _ => ?_
    cases hjump : session.jump? index with
    | none => exact amends_throw _
    | some result =>
      obtain ⟨player, -, rfl⟩ := Option.map_eq_some_iff.1 hjump
      exact amends_pure h
  | save =>
    refine .bind (amends_ofExcept _) fun name _ => ?_
    exact .bind (Session.amends_save h now name) fun _ _ => amends_pure h
  | load =>
    refine .bind (amends_ofExcept _) fun name _ => ?_
    refine .bind (.edits (confined_lift (Session.confined_loadSave h name))) fun found hfound => ?_
    cases found with
    | none => exact amends_throw _
    | some session => exact amends_pure (hfound session rfl)

/-- The step of an action, and saving the position that it leads to. -/
def saving (action : PlayAction) (payload : Json.Fields) (now : Instant) (session : Session) :
    Attempt Outcome := do
  let (session, saved) ← action.perform payload now session
  let _ ← session.autosave now
  return { view := session.view, saved }

theorem dispatch_of_name {name : String} {action : PlayAction} (h : ofName? name = some action)
    (now : Instant) (story : String) (payload : Json.Fields) :
    dispatch now story name payload = Command.editing story (action.saving payload now) := by
  rw [dispatch, h]
  rfl

theorem amends_saving (h : session.Of id) (action : PlayAction) (payload : Json.Fields)
    (now : Instant) : Amends id (fun _ => True) (action.saving payload now session) :=
  .bind (amends_perform h action payload now) fun _ hresult =>
    .bind (Session.amends_save hresult now _) fun _ _ => amends_pure trivial

end PlayAction

namespace Command

theorem amends_editNode (h : session.Of id) (key : String) (refusal : Failure)
    (edit : Graph → Option Graph) :
    Amends id (fun _ => True) (editNode key refusal edit session) := by
  refine .bind (.edits (confined_lift (Session.confined_editGraph h edit))) fun result _ => ?_
  obtain ⟨done, session⟩ := result
  cases done with
  | false => exact amends_throw refusal
  | true =>
    simp only [if_true]
    cases hnode : session.graph.node? key with
    | none => exact amends_throw _
    | some node => exact amends_pure trivial

theorem amends_editDefinitions (h : session.Of id) (now : Instant) (refusal : Failure)
    (edit : Definitions → Option DefinitionsEdit) :
    Amends id (fun _ => True) (editDefinitions now refusal edit session) := by
  refine .bind (.edits (confined_lift (Session.confined_editDefinitions h edit)))
    fun result hresult => ?_
  obtain ⟨done, session⟩ := result
  cases done with
  | false => exact amends_throw refusal
  | true => exact .bind (Session.amends_save hresult now _) fun _ _ => amends_pure trivial

theorem amends_replaceStory (h : session.Of id) (now : Instant) (refusal : Failure)
    (document : Json.Fields) :
    Amends id (fun _ => True) (replaceStory now refusal document session) := by
  refine .bind (.edits (Session.confined_importStory h _)) fun result hresult => ?_
  obtain ⟨done, session⟩ := result
  cases done with
  | false => exact amends_throw refusal
  | true =>
    have hreload : session.reload.Of id := hresult
    exact .bind (Session.amends_save hreload now _) fun _ _ => amends_pure trivial

/-- What a command does on a story: nothing, or it holds the lock of the story, opens the story, and
changes what is kept of it. -/
inductive Changes (id : Identifier) : Attempt Reply → Prop where
  | refused (failure : Failure) : Changes id (throw failure)
  | editing {α : Type} (change : Session → Attempt α) (reply : α → Reply)
      (h : ∀ session, session.Of id → Amends id (fun _ => True) (change session)) :
      Changes id (reply <$> editing id.spelling change)

theorem changes_dispatch (id : Identifier) (now : Instant) (name : String) (payload : Json.Fields)
    (reply : PlayAction.Outcome → Reply) :
    Changes id (reply <$> PlayAction.dispatch now id.spelling name payload) := by
  cases hname : PlayAction.ofName? name with
  | none =>
    rw [PlayAction.dispatch, hname]
    exact .refused _
  | some action =>
    rw [PlayAction.dispatch_of_name hname]
    exact .editing _ reply fun session h => PlayAction.amends_saving h action payload now

/-- Every command of a story changes what is kept of the story and nothing else. -/
theorem changes_perform (command : Command) (assets : Option Assets) (now : Instant)
    (id : Identifier) : Changes id (command.perform assets now id.spelling) := by
  cases command with
  | importStory document =>
    exact .editing _ _ fun session h => amends_replaceStory h now _ document
  | loadDemo =>
    refine .editing _ _ fun session h => ?_
    exact .bind (amends_ofExcept _) fun assets _ => amends_replaceStory h now _ _
  | createNode =>
    rw [perform, bind_pure_comp]
    exact .editing _ _ fun session h =>
      .bind (.edits (Session.confined_createNode h now)) fun _ _ => amends_pure trivial
  | removeNode node =>
    rw [perform, bind_pure_comp]
    refine .editing _ _ fun session h => ?_
    refine .bind (.edits (confined_lift (Session.confined_editGraph h _))) fun result _ => ?_
    obtain ⟨done, session⟩ := result
    cases done with
    | false => exact amends_throw _
    | true => exact amends_pure trivial
  | patchNode | addChoice | patchChoice | removeChoice | patchCondition | addOperation
  | patchOperation | removeOperation =>
    exact .editing _ _ fun session h => amends_editNode h _ _ _
  | addVariable | removeVariable =>
    exact .editing _ _ fun session h => amends_editDefinitions h now _ _
  | patchVariable category name patch =>
    refine .editing _ _ fun session h => ?_
    rw [patchDefinition]
    split
    · exact amends_throw _
    · exact amends_editDefinitions h now _ _
  | play action payload =>
    rw [perform, bind_pure_comp]
    exact changes_dispatch id now action payload _
  | savePosition slot =>
    rw [perform, bind_pure_comp]
    exact changes_dispatch id now _ _ _

end Command

theorem Query.confined_answer {writes : String → Prop} (h : session.Of id) (now : Instant)
    (query : Query) :
    (query.answer now session).Confined id.Owns writes fun _ => True := by
  cases query with
  | graph | nodes | definitions | view | history => exact confined_pure trivial
  | node key =>
    rw [answer]
    split
    · exact confined_pure trivial
    · exact confined_throw _
  | bundle =>
    refine Confined.unexplained ?_
    exact (confined_ofExcept fun _ _ => trivial).bind fun _ (_ : True) =>
      (confined_ofExcept fun _ _ => trivial).bind fun _ (_ : True) => confined_pure trivial
  | slots =>
    refine Confined.unexplained
      (Confined.bind (Repository.confined_loadNames ?_) fun labels _ => ?_)
    · exact ⟨.slotList, congrArg Repository.slotListKey h⟩
    · split
      · exact confined_pure trivial
      · exact confined_throw _

end Narrative
