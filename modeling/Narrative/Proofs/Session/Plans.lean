import Narrative.Proofs.Storage.Plan
import Narrative.Proofs.Variable.Bounds
import Narrative.Service.Perform

/-!
# Plans of a session

What the steps of play and the edits of a story store, as plans that are made from the open session
alone; only going to a saved position looks into the store once more.
-/

namespace Narrative

theorem Except.bind_eq_ok {ε α β : Type} {x : Except ε α} {f : α → Except ε β} {b : β} :
    x.bind f = .ok b ↔ ∃ a, x = .ok a ∧ f a = .ok b := by
  cases x <;> simp [Except.bind]

theorem Except.bind_eq_error {ε α β : Type} {x : Except ε α} {f : α → Except ε β} {e : ε} :
    x.bind f = .error e ↔ x = .error e ∨ ∃ a, x = .ok a ∧ f a = .error e := by
  cases x <;> simp [Except.bind]

theorem Except.map_eq_ok {ε α β : Type} {x : Except ε α} {f : α → β} {b : β} :
    x.map f = .ok b ↔ ∃ a, x = .ok a ∧ f a = b := by
  cases x <;> simp [Except.map]

theorem Except.map_eq_error {ε α β : Type} {x : Except ε α} {f : α → β} {e : ε} :
    x.map f = .error e ↔ x = .error e := by
  cases x <;> simp [Except.map]

/-- The attempt carries out a plan, which may look at the stored positions. -/
def Realizes {α : Type} (id : Identifier) (attempt : Attempt α)
    (plan : (String → Option SaveSlot) → Plan α) : Prop :=
  ∀ records, Listed records id → attempt.run records =
    ((plan (Stored.slot records id)).outcome, (plan (Stored.slot records id)).store id records)

/-! ## Playing -/

namespace PlayAction

/-- The plan of a step of play. -/
def plan (payload : Json.Fields) (time : ℤ) (slots : String → Option SaveSlot)
    (session : Session) : PlayAction → Plan (Session × Option SaveSlot)
  | choose => {
      outcome := (index payload).bind fun index =>
        (session.player.checked ChoiceCheck.all index).map fun choice =>
          (session.withPlayer (session.player.execute time choice.toChoice), none) }
  | restart => { outcome := .ok (session.restart, none) }
  | jump => {
      outcome := (index payload).bind fun index =>
        match session.jump? index with
        | some session => .ok (session, none)
        | none => .error (.historyOutOfRange index) }
  | save =>
    match slotName session.story (slot payload) with
    | .ok name => {
        slots := [(name, session.player.position time)]
        outcome := .ok (session, some (session.player.position time)) }
    | .error failure => .refused failure
  | load => {
      outcome := (slotName session.story (slot payload)).bind fun name =>
        match slots name with
        | some position => .ok (session.withPlayer (session.player.resume position), none)
        | none => .error (.slotNotFound name) }

variable {session : Session} {id : Identifier} {now : Instant} {time : ℤ}

theorem take_of_millis (hnow : now.millis = .ok time) (index : ℤ) :
    session.take ChoiceCheck.all now index =
      match session.player.checked ChoiceCheck.all index with
      | .ok choice =>
        (.ok choice, session.withPlayer (session.player.execute time choice.toChoice))
      | .error failure => (.error failure, session) := by
  rw [Session.take]
  cases session.player.checked ChoiceCheck.all index with
  | error failure => rfl
  | ok choice =>
    simp only [Session.execute, hnow]
    rfl

/-- A step of play carries out its plan. -/
theorem realizes_perform (hstory : session.story = id.spelling) (hnow : now.millis = .ok time)
    (action : PlayAction) (payload : Json.Fields) :
    Realizes id (action.perform payload now session) fun slots =>
      action.plan payload time slots session := by
  intro records hrecords
  cases action with
  | restart => rfl
  | choose =>
    rw [perform, Attempt.run_bind, Attempt.run_ofExcept]
    cases hindex : index payload with
    | error failure => simp [plan, hindex, Except.bind, Plan.store, putText]
    | ok index =>
      cases hchecked : session.player.checked ChoiceCheck.all index with
      | error failure =>
        simp only [take_of_millis hnow, hchecked]
        simp [plan, hindex, hchecked, Except.bind, Except.map, Plan.store, putText]
        rfl
      | ok choice =>
        simp only [take_of_millis hnow, hchecked]
        simp [plan, hindex, hchecked, Except.bind, Except.map, Plan.store, putText]
        rfl
  | jump =>
    rw [perform, Attempt.run_bind, Attempt.run_ofExcept]
    cases hindex : index payload with
    | error failure => simp [plan, hindex, Except.bind, Plan.store, putText]
    | ok index =>
      cases hjump : session.jump? index <;>
        simp [plan, hindex, hjump, Except.bind, Plan.store, putText]
  | save =>
    rw [perform, Attempt.run_bind, Attempt.run_ofExcept]
    simp only [plan]
    cases slotName session.story (slot payload) with
    | error failure => rfl
    | ok name =>
      simp only
      rw [Attempt.run_bind, Session.run_save hrecords hstory hnow]
      rfl
  | load =>
    rw [perform, Attempt.run_bind, Attempt.run_ofExcept]
    cases hname : slotName session.story (slot payload) with
    | error failure => simp [plan, hname, Except.bind, Plan.store, putText]
    | ok name =>
      simp only
      rw [Attempt.run_bind, Attempt.run_lift, Session.run_loadSave session hstory]
      cases hslot : Stored.slot records id name <;>
        simp [plan, hname, hslot, Except.bind, Plan.store, putText]

/-- Where a step of play that goes through can lead. -/
inductive Leads (payload : Json.Fields) (time : ℤ) (slots : String → Option SaveSlot)
    (session : Session) (action : PlayAction) : Session → Prop where
  | stay : Leads payload time slots session action session
  | restart : Leads payload time slots session action session.restart
  | execute (choice : Choice) :
      Leads payload time slots session action
        (session.withPlayer (session.player.execute time choice))
  | jump {index : ℤ} {player : Player} (h : session.player.jump? index = some player) :
      Leads payload time slots session action (session.withPlayer player)
  | resume {name : String} {position : SaveSlot} (hload : action = load)
      (hname : slot payload = .text name) (h : slots name = some position) :
      Leads payload time slots session action
        (session.withPlayer (session.player.resume position))

theorem eq_of_slotName {story name : String} {label : Label}
    (h : slotName story label = .ok name) : label = .text name := by
  cases label with
  | torn points => exact absurd h (by simp [slotName])
  | text other => exact congrArg Label.text (Except.ok.inj h)

theorem leads_of_plan {payload : Json.Fields} {slots : String → Option SaveSlot}
    {action : PlayAction} {result : Session} {saved : Option SaveSlot}
    (h : (action.plan payload time slots session).outcome = .ok (result, saved)) :
    Leads payload time slots session action result := by
  cases action with
  | choose =>
    obtain ⟨index, -, hchecked⟩ := Except.bind_eq_ok.1 h
    obtain ⟨choice, -, heq⟩ := Except.map_eq_ok.1 hchecked
    obtain ⟨rfl, -⟩ := Prod.mk.inj heq
    exact .execute choice.toChoice
  | restart =>
    obtain ⟨rfl, -⟩ := Prod.mk.inj (Except.ok.inj h)
    exact .restart
  | jump =>
    obtain ⟨index, -, hfound⟩ := Except.bind_eq_ok.1 h
    cases hjump : session.player.jump? index with
    | none => simp [Session.jump?, hjump] at hfound
    | some player =>
      simp only [Session.jump?, hjump, Option.map_some] at hfound
      obtain ⟨rfl, -⟩ := Prod.mk.inj (Except.ok.inj hfound)
      exact .jump hjump
  | save =>
    simp only [plan] at h
    split at h
    case h_1 =>
      obtain ⟨rfl, -⟩ := Prod.mk.inj (Except.ok.inj h)
      exact .stay
    case h_2 => exact absurd h (by simp [Plan.refused])
  | load =>
    obtain ⟨name, hname, hfound⟩ := Except.bind_eq_ok.1 h
    cases hslot : slots name with
    | none => simp [hslot] at hfound
    | some position =>
      simp only [hslot] at hfound
      obtain ⟨rfl, -⟩ := Prod.mk.inj (Except.ok.inj hfound)
      exact .resume rfl (eq_of_slotName hname) hslot

/-- A step that is refused stores nothing. -/
theorem plan_of_error {payload : Json.Fields} {slots : String → Option SaveSlot}
    {action : PlayAction} {failure : Failure}
    (h : (action.plan payload time slots session).outcome = .error failure) :
    action.plan payload time slots session = .refused failure := by
  cases action with
  | choose => simpa [plan, Plan.refused] using h
  | restart => simp [plan] at h
  | jump => simpa [plan, Plan.refused] using h
  | load => simpa [plan, Plan.refused] using h
  | save =>
    simp only [plan] at h ⊢
    split at h
    case h_1 => simp at h
    case h_2 => rw [Except.error.inj h]

/-- A step of play stores neither definitions nor a graph. -/
theorem plan_only_saves (payload : Json.Fields) (slots : String → Option SaveSlot)
    (action : PlayAction) : (action.plan payload time slots session).definitions = none ∧
      (action.plan payload time slots session).graph = none := by
  cases action with
  | choose | restart | jump | load => exact ⟨rfl, rfl⟩
  | save =>
    simp only [plan]
    split <;> exact ⟨rfl, rfl⟩

/-- Playing changes neither the story nor what is in force of it. -/
structure SameStory (session other : Session) : Prop where
  story : other.story = session.story
  graph : other.graph = session.graph
  ownGraph : other.ownGraph = session.ownGraph
  definitions : other.store.definitions = session.store.definitions

theorem store_of_jump? {player other : Player} {index : ℤ} (h : player.jump? index = some other) :
    other.store = player.store := by
  cases index with
  | negSucc n => simp [Player.jump?] at h
  | ofNat n =>
    obtain ⟨entry, -, rfl⟩ := Option.map_eq_some_iff.1 h
    rfl

theorem Leads.sameStory {payload : Json.Fields} {slots : String → Option SaveSlot}
    {action : PlayAction} {result : Session}
    (h : Leads payload time slots session action result) : SameStory session result := by
  cases h with
  | stay => exact ⟨rfl, rfl, rfl, rfl⟩
  | restart => exact ⟨rfl, rfl, rfl, rfl⟩
  | execute choice => exact ⟨rfl, rfl, rfl, VariableStore.definitions_foldl_perform _ _⟩
  | jump h => exact ⟨rfl, rfl, rfl, congrArg VariableStore.definitions (store_of_jump? h)⟩
  | resume => exact ⟨rfl, rfl, rfl, rfl⟩

/-- The plan of a step with the position reached saved behind it. -/
def autosaved (time : ℤ) (plan : Plan (Session × Option SaveSlot)) : Plan Outcome :=
  match plan.outcome with
  | .ok (session, saved) => {
      definitions := plan.definitions
      graph := plan.graph
      slots := plan.slots ++ [(Repository.autosaveSlot, session.player.position time)]
      outcome := .ok { view := session.view, saved } }
  | .error failure => .refused failure

theorem store_autosaved {plan : Plan (Session × Option SaveSlot)} {result : Session}
    {position : Option SaveSlot} (h : plan.outcome = .ok (result, position)) (id : Identifier)
    (records : Records) :
    (autosaved time plan).store id records =
      saved id Repository.autosaveSlot (result.player.position time) (plan.store id records) := by
  rw [autosaved, h]
  simp only [Plan.store, List.foldl_append, List.foldl_cons, List.foldl_nil]

/-- A step of play that goes through is followed by saving the position reached. -/
theorem realizes_autosaved (hstory : session.story = id.spelling) (hnow : now.millis = .ok time)
    (action : PlayAction) (payload : Json.Fields) :
    Realizes id (do
      let (session, saved) ← action.perform payload now session
      let _ ← session.autosave now
      return { view := session.view, saved : Outcome })
      fun slots => autosaved time (action.plan payload time slots session) := by
  intro records hrecords
  have hperform := realizes_perform hstory hnow action payload records hrecords
  simp only at hperform
  rw [Attempt.run_bind, hperform]
  cases houtcome : (action.plan payload time (Stored.slot records id) session).outcome with
  | error failure =>
    simp only [plan_of_error houtcome]
    rfl
  | ok found =>
    obtain ⟨result, position⟩ := found
    have hresult := (leads_of_plan houtcome).sameStory.story.trans hstory
    simp only
    rw [Attempt.run_bind, Session.autosave, Session.run_save (Plan.listed_store _ hrecords) hresult
      hnow, store_autosaved houtcome, autosaved, houtcome]
    rfl

end PlayAction

/-! ## Editing -/

namespace Session

/-- The session with edited definitions in force. -/
def installed (session : Session) (edit : DefinitionsEdit) : Session :=
  { session with
    store :=
      if edit.restarts then VariableStore.ofDefinitions edit.definitions
      else session.store.withDefinitions edit.definitions }

variable {session : Session} {id : Identifier} {now : Instant} {time : ℤ}

theorem run_install (hstory : session.story = id.spelling) (edit : DefinitionsEdit)
    (records : Records) :
    (session.install edit).run records = (session.installed edit,
      putText (.story id .definitions) (some edit.definitions.toJson.text) records) := by
  have hkey : Repository.definitionsKey session.story = (StoreKey.story id .definitions).text := by
    rw [hstory]
    rfl
  rw [install, Repository.saveDefinitions, hkey]
  rfl

theorem run_saveGraph (session : Session) (hstory : session.story = id.spelling)
    (records : Records) :
    session.saveGraph.run records =
      ((), putText (.story id .graph) (some session.graph.toJson.text) records) := by
  have hkey : Repository.graphKey session.story = (StoreKey.story id .graph).text := by
    rw [hstory]
    rfl
  rw [saveGraph, Repository.saveGraph, hkey]
  rfl

/-- The plan of an edit of the graph that answers a node. -/
def nodePlan (key : String) (refusal : Failure) (edit : Graph → Option Graph) (session : Session) :
    Plan Json :=
  match edit session.graph with
  | some graph => {
      graph := some graph
      outcome := match graph.node? key with
        | some node => .ok node.toJson
        | none => .error .noSuchNode }
  | none => .refused refusal

/-- The plan of the removal of a node. -/
def removalPlan (key : String) (session : Session) : Plan Unit :=
  match session.graph.removeNode key with
  | some graph => { graph := some graph, outcome := .ok () }
  | none => .refused (.nodeKept startNodeId)

/-- The plan of the creation of a node. -/
def creationPlan (time : ℤ) (session : Session) : Plan String where
  graph := some (session.graph.addNode (session.graph.freshKey time))
  outcome := .ok (session.graph.freshKey time)

/-- The plan of an edit of the definitions. -/
def definitionsPlan (time : ℤ) (refusal : Failure) (edit : Definitions → Option DefinitionsEdit)
    (session : Session) : Plan Json :=
  match edit session.store.definitions with
  | some edit => {
      definitions := some edit.definitions
      slots := [(Repository.autosaveSlot, (session.installed edit).player.position time)]
      outcome := .ok edit.definitions.toJson }
  | none => .refused refusal

/-- The session after an import. -/
def replaced (session : Session) (graph : Graph) (definitions : Option Definitions) : Session :=
  let session := (definitions.map fun definitions =>
    session.installed ⟨definitions, true⟩).getD session
  { session with graph, ownGraph := some session.playedGraph }.reload

/-- The plan of an import.  When the graph cannot be stored, the definitions are stored all the
same. -/
def importPlan (time : ℤ) (refusal : Failure) (document : Json.Fields) (session : Session) :
    Plan Json :=
  match imported (.obj document) with
  | none => .refused refusal
  | some (graph, definitions) =>
    match definitions.bind Schema.Draft.torn, graph.storable with
    | some points, _ => .refused (.unwritableText points)
    | none, .error failure => {
        definitions := definitions.map Schema.Draft.value
        outcome := .error failure }
    | none, .ok graph => {
        definitions := definitions.map Schema.Draft.value
        graph := some graph
        slots := [(Repository.autosaveSlot, (session.replaced graph
          (definitions.map Schema.Draft.value)).player.position time)]
        outcome := .ok graph.toJson }

theorem run_editGraph (hstory : session.story = id.spelling) (edit : Graph → Option Graph)
    (records : Records) :
    (session.editGraph edit).run records =
      match edit session.graph with
      | some graph => ((true, { session with graph }),
          putText (.story id .graph) (some graph.toJson.text) records)
      | none => ((false, session), records) := by
  rw [editGraph]
  cases edit session.graph with
  | none => rfl
  | some graph =>
    have hsave := run_saveGraph { session with graph } hstory records
    simp only
    rw [Script.run_bind, hsave, Script.run_pure]

theorem realizes_editNode (hstory : session.story = id.spelling) (key : String)
    (refusal : Failure) (edit : Graph → Option Graph) :
    Realizes id (Command.editNode key refusal edit session) fun _ =>
      session.nodePlan key refusal edit := by
  intro records hrecords
  rw [Command.editNode, Attempt.run_bind, Attempt.run_lift, run_editGraph hstory, nodePlan]
  cases edit session.graph with
  | none => rfl
  | some graph =>
    simp only
    cases graph.node? key <;> rfl

theorem realizes_removeNode (hstory : session.story = id.spelling) (key : String) :
    Realizes id (do
      let (done, _) ← session.editGraph fun graph => graph.removeNode key
      unless done do
        throw (.nodeKept startNodeId)) fun _ => session.removalPlan key := by
  intro records hrecords
  rw [Attempt.run_bind, Attempt.run_lift, run_editGraph hstory, removalPlan]
  cases session.graph.removeNode key <;> rfl

theorem realizes_createNode (hstory : session.story = id.spelling) (hnow : now.millis = .ok time) :
    Realizes id (do
      let (key, _) ← session.createNode now
      return key) fun _ => session.creationPlan time := by
  intro records hrecords
  have hsave := run_saveGraph
    { session with graph := session.graph.addNode (session.graph.freshKey time) } hstory records
  rw [createNode, hnow]
  simp only [bind_assoc]
  rw [Attempt.run_bind, Attempt.run_ofExcept]
  simp only
  rw [Attempt.run_bind, Attempt.run_lift, hsave]
  rfl

theorem realizes_editDefinitions (hstory : session.story = id.spelling)
    (hnow : now.millis = .ok time) (refusal : Failure)
    (edit : Definitions → Option DefinitionsEdit) :
    Realizes id (Command.editDefinitions now refusal edit session) fun _ =>
      session.definitionsPlan time refusal edit := by
  intro records hrecords
  rw [Command.editDefinitions, Attempt.run_bind, Attempt.run_lift, editDefinitions,
    definitionsPlan]
  cases edit session.store.definitions with
  | none => rfl
  | some edit =>
    have hlisted : Listed (putText (.story id .definitions) (some edit.definitions.toJson.text)
        records) id :=
      ({ definitions := some edit.definitions, outcome := .ok () } : Plan Unit).listed_store
        hrecords
    have hdefinitions : (session.installed edit).store.definitions = edit.definitions := by
      unfold installed
      split <;> rfl
    simp only
    rw [Script.run_bind, run_install hstory]
    simp only [Script.run_pure, if_true]
    have hinstalled : (session.installed edit).story = id.spelling := hstory
    rw [Attempt.run_bind, autosave, run_save hlisted hinstalled hnow]
    simp only [Attempt.run_pure, hdefinitions]
    rfl

theorem realizes_patchDefinition (hstory : session.story = id.spelling)
    (hnow : now.millis = .ok time) (category : Category) (name : String)
    (patch : DefinitionPatch) :
    Realizes id (Command.patchDefinition now category name patch session) fun _ =>
      if (session.store.definition? category name).isNone then .refused .noSuchVariable
      else session.definitionsPlan time (.variableTaken (patch.id.getD name) category)
        fun definitions => definitions.patch category name patch := by
  intro records hrecords
  rw [Command.patchDefinition]
  by_cases hmissing : (session.store.definition? category name).isNone
  · simp only [hmissing, if_true]
    rfl
  · simp only [hmissing, Bool.false_eq_true, if_false]
    exact realizes_editDefinitions hstory hnow _ _ records hrecords

theorem storable_of_torn {α : Type} {draft : Schema.Draft α} {points : List ℕ}
    (h : draft.torn = some points) : draft.storable = .error (.unwritableText points) := by
  rw [Schema.Draft.storable, h]

theorem storable_of_not_torn {α : Type} {draft : Schema.Draft α} (h : draft.torn = none) :
    draft.storable = .ok draft.value := by
  rw [Schema.Draft.storable, h]

/-- What is left to be done of an import once its definitions are in force. -/
theorem run_importGraph (session : Session) (hstory : session.story = id.spelling)
    (hnow : now.millis = .ok time) (draft : Schema.Draft Graph) {records : Records}
    (hrecords : Listed records id) :
    Attempt.run (do
      let graph ← Attempt.ofExcept draft.storable
      let session : Session := { session with graph, ownGraph := some session.playedGraph }
      session.saveGraph
      let session := session.reload
      let _ ← session.autosave now
      return session.graph.toJson) records =
      match draft.storable with
      | .error failure => (.error failure, records)
      | .ok graph => (.ok graph.toJson,
          saved id Repository.autosaveSlot ((session.replaced graph none).player.position time)
            (putText (.story id .graph) (some graph.toJson.text) records)) := by
  rw [Attempt.run_bind, Attempt.run_ofExcept]
  cases draft.storable with
  | error failure => rfl
  | ok graph =>
    have hlisted : Listed (putText (.story id .graph) (some graph.toJson.text) records) id :=
      ({ graph := some graph, outcome := .ok () } : Plan Unit).listed_store hrecords
    have hsave := run_saveGraph { session with graph, ownGraph := some session.playedGraph } hstory
      records
    have hreplaced : (({ session with graph, ownGraph := some session.playedGraph } :
        Session).reload.autosave now).run
        (putText (.story id .graph) (some graph.toJson.text) records) =
        (.ok ((session.replaced graph none).player.position time),
          saved id Repository.autosaveSlot ((session.replaced graph none).player.position time)
            (putText (.story id .graph) (some graph.toJson.text) records)) :=
      run_save hlisted (show (session.replaced graph none).story = id.spelling from hstory) hnow _
    simp only
    rw [Attempt.run_bind, Attempt.run_lift, hsave]
    simp only
    rw [Attempt.run_bind, hreplaced]
    rfl

theorem realizes_replaceStory (hstory : session.story = id.spelling)
    (hnow : now.millis = .ok time) (refusal : Failure) (document : Json.Fields) :
    Realizes id (Command.replaceStory now refusal document session) fun _ =>
      session.importPlan time refusal document := by
  intro records hrecords
  rw [Command.replaceStory, importStory, importPlan]
  cases imported (.obj document) with
  | none => rfl
  | some found =>
    obtain ⟨graph, definitions⟩ := found
    cases definitions with
    | none =>
      have hgraph := run_importGraph session hstory hnow graph hrecords
      simp only [bind_assoc, pure_bind] at hgraph ⊢
      simp only [if_true, hgraph]
      cases graph.storable <;> rfl
    | some draft =>
      cases htorn : draft.torn with
      | some points =>
        simp only [storable_of_torn htorn, Option.bind_some, htorn]
        rfl
      | none =>
        have hlisted : Listed (putText (.story id .definitions) (some draft.value.toJson.text)
            records) id :=
          ({ definitions := some draft.value, outcome := .ok () } : Plan Unit).listed_store hrecords
        have hgraph := run_importGraph (session.installed ⟨draft.value, true⟩) hstory hnow graph
          hlisted
        have hinstall := run_install hstory ⟨draft.value, true⟩ records
        simp only [storable_of_not_torn htorn, Option.bind_some, htorn, bind_assoc, pure_bind,
          if_true] at hgraph ⊢
        rw [Attempt.run_bind, Attempt.run_ofExcept]
        simp only
        rw [Attempt.run_bind, Attempt.run_lift, hinstall]
        simp only
        rw [hgraph]
        cases graph.storable <;> rfl

end Session

end Narrative
