import Narrative.Proofs.Service.Choices

/-!
# Keeping the place

Edits of a story do not touch the reader's place.  What a reader finds who comes back is the
position that is saved after the edit, and that can be read again exactly if all its values are
finite.  A position that cannot be read counts as none, and then the reader starts over.
-/

namespace Narrative

variable {records : Records} {id : Identifier} {now later : Instant} {time : ℤ}

/-- An edit of a story, other than to replace it as a whole. -/
inductive Edit where
  /-- Look at the nodes, or at the story as one document. -/
  | look
  /-- Store the graph as it is. -/
  | saveGraph
  | createNode
  | removeNode (node : String)
  | patchNode (node : String) (patch : NodePatch)
  | addChoice (node : String)
  | patchChoice (node : String) (choice : ℤ) (patch : ChoicePatch)
  | removeChoice (node : String) (choice : ℤ)
  | patchCondition (node : String) (choice : ℤ) (patch : ConditionPatch)
  | addOperation (node : String) (choice : ℤ)
  | patchOperation (node : String) (choice operation : ℤ) (patch : OperationPatch)
  | removeOperation (node : String) (choice operation : ℤ)
  | addVariable (category : Category) (definition : VariableDefinition)
  | patchVariable (category : Category) (name : String) (patch : DefinitionPatch)
  | removeVariable (category : Category) (name : String)

namespace Edit

/-- Make an edit, and tell whether it went through. -/
def perform (session : Session) (now : Instant) : Edit → Attempt (Bool × Session)
  | look => return (false, session)
  | saveGraph => do
    session.saveGraph
    return (true, session)
  | createNode => do
    let (_, session) ← session.createNode now
    return (true, session)
  | removeNode node => session.editGraph fun graph => graph.removeNode node
  | patchNode node patch => session.editGraph fun graph => graph.patchNode node patch
  | addChoice node => session.editGraph fun graph => graph.addChoice node
  | patchChoice node choice patch =>
    session.editGraph fun graph => graph.patchChoice node choice patch
  | removeChoice node choice => session.editGraph fun graph => graph.removeChoice node choice
  | patchCondition node choice patch =>
    session.editGraph fun graph => graph.patchCondition node choice patch
  | addOperation node choice => session.editGraph fun graph => graph.addOperation node choice
  | patchOperation node choice operation patch =>
    session.editGraph fun graph => graph.patchOperation node choice operation patch
  | removeOperation node choice operation =>
    session.editGraph fun graph => graph.removeOperation node choice operation
  | addVariable category definition =>
    session.editDefinitions fun definitions => definitions.add category definition
  | patchVariable category name patch =>
    session.editDefinitions fun definitions => definitions.patch category name patch
  | removeVariable category name =>
    session.editDefinitions fun definitions => definitions.remove category name

/-- Make an edit; one that is refused leaves the session as it is. -/
def apply (session : Session) (now : Instant) (edit : Edit) : Attempt Session :=
  Prod.snd <$> edit.perform session now

/-- A story that is opened, edited, and opened again. -/
structure Reopened where
  /-- The session in which the edit is made. -/
  opened : Session
  /-- That session after the edit. -/
  edited : Session
  /-- The session of the story when it is opened again. -/
  reopened : Session

/-- Open a story, edit it, save the position, and open the story again. -/
def reopening (edit : Edit) (now later : Instant) (story : String) : Attempt Reopened := do
  let opened ← Session.openStory story true
  let edited ← edit.apply opened now
  let _ ← edited.autosave later
  return { opened, edited, reopened := ← Session.openStory story true }

end Edit

/-- The numbers of the patch are finite. -/
structure DefinitionPatch.Finite (patch : DefinitionPatch) : Prop where
  initial : ∀ x ∈ patch.initial, Decimal.isFinite x
  min : ∀ x ∈ patch.min, Decimal.isFinite x
  max : ∀ x ∈ patch.max, Decimal.isFinite x

/-- The edit puts finite numbers only into the definitions. -/
def Edit.Finite : Edit → Prop
  | addVariable _ definition => definition.Finite
  | patchVariable _ _ patch => patch.Finite
  | _ => True

theorem DefinitionPatch.Finite.apply {patch : DefinitionPatch} (h : patch.Finite)
    {definition : VariableDefinition} (hdefinition : definition.Finite) :
    (patch.apply definition).Finite := by
  have hgetD {x : Option Float} {default : Float} (hx : ∀ y ∈ x, Decimal.isFinite y)
      (hdefault : Decimal.isFinite default) : Decimal.isFinite (x.getD default) := by
    cases x with
    | none => exact hdefault
    | some y => exact hx y rfl
  exact ⟨hgetD h.initial hdefinition.initial, hgetD h.min hdefinition.min,
    hgetD h.max hdefinition.max⟩

namespace Definitions

variable {definitions : Definitions} {category : Category} {name : String} {edit : DefinitionsEdit}

theorem Finite.setGroup (h : definitions.Finite) {group : List VariableDefinition}
    (hgroup : ∀ definition ∈ group, definition.Finite) :
    Definitions.Finite (definitions.set category group) := by
  intro other definition hdefinition
  rw [Categorized.get_set] at hdefinition
  split at hdefinition
  · exact hgroup definition hdefinition
  · exact h other definition hdefinition

theorem Finite.add (h : definitions.Finite) {definition : VariableDefinition}
    (hdefinition : definition.Finite) (hedit : definitions.add category definition = some edit) :
    edit.definitions.Finite := by
  obtain ⟨-, rfl⟩ := add_eq_some.1 hedit
  refine h.setGroup (List.forall_mem_append.2 ⟨h category, ?_⟩)
  simpa using hdefinition

theorem Finite.patch (h : definitions.Finite) {patch : DefinitionPatch} (hpatch : patch.Finite)
    (hedit : definitions.patch category name patch = some edit) : edit.definitions.Finite := by
  obtain ⟨index, found, -, hfound, -, -, rfl⟩ := patch_eq_some.1 hedit
  refine h.setGroup fun definition hdefinition => ?_
  rcases List.mem_or_eq_of_mem_set hdefinition with hold | rfl
  · exact h category definition hold
  · exact hpatch.apply (h category found (List.mem_of_getElem? hfound))

theorem Finite.remove (h : definitions.Finite)
    (hedit : definitions.remove category name = some edit) : edit.definitions.Finite := by
  obtain ⟨-, rfl⟩ := remove_eq_some.1 hedit
  exact h.setGroup fun definition hdefinition =>
    h category definition (List.mem_of_mem_filter hdefinition)

end Definitions

/-! ## What edits do -/

/-- What an edit makes of a session, and what it stores: nothing changes, or there is another graph,
or there are other definitions. -/
inductive Edit.Makes (edit : Edit) (session : Session) : Session → Plan Unit → Prop where
  | unchanged : Makes edit session session { outcome := .ok () }
  | redrawn (graph : Graph) :
      Makes edit session { session with graph } { graph := some graph, outcome := .ok () }
  | defined (installed : DefinitionsEdit)
      (hfinite : edit.Finite → session.store.definitions.Finite → installed.definitions.Finite) :
      Makes edit session (session.installed installed)
        { definitions := some installed.definitions, outcome := .ok () }

namespace Edit

variable {edit : Edit} {session : Session}

theorem run_editGraph (edit : Edit) (hstory : session.story = id.spelling)
    (change : Graph → Option Graph) (records : Records) :
    ∃ result plan, Attempt.run (Prod.snd <$> (session.editGraph change : Attempt _)) records =
      (.ok result, plan.store id records) ∧ edit.Makes session result plan := by
  rw [Attempt.run_map, Attempt.run_lift, Session.run_editGraph hstory]
  cases change session.graph with
  | none => exact ⟨_, _, rfl, .unchanged⟩
  | some graph => exact ⟨_, _, rfl, .redrawn graph⟩

theorem run_editDefinitions_of_some (hstory : session.story = id.spelling)
    {change : Definitions → Option DefinitionsEdit} {installed : DefinitionsEdit}
    (h : change session.store.definitions = some installed) (records : Records) :
    Attempt.run (Prod.snd <$> (session.editDefinitions change : Attempt _)) records =
      (.ok (session.installed installed),
        ({ definitions := some installed.definitions, outcome := .ok () } : Plan Unit).store id
          records) := by
  rw [Attempt.run_map, Attempt.run_lift, Session.editDefinitions, h]
  simp only
  rw [Script.run_bind, Session.run_install hstory]
  rfl

theorem run_editDefinitions (edit : Edit) (hstory : session.story = id.spelling)
    {change : Definitions → Option DefinitionsEdit}
    (hfinite : ∀ installed, change session.store.definitions = some installed → edit.Finite →
      session.store.definitions.Finite → installed.definitions.Finite) (records : Records) :
    ∃ result plan, Attempt.run (Prod.snd <$> (session.editDefinitions change : Attempt _)) records =
      (.ok result, plan.store id records) ∧ edit.Makes session result plan := by
  cases hchange : change session.store.definitions with
  | none =>
    rw [Attempt.run_map, Attempt.run_lift, Session.editDefinitions, hchange]
    exact ⟨_, _, rfl, .unchanged⟩
  | some installed =>
    exact ⟨_, _, run_editDefinitions_of_some hstory hchange records,
      .defined installed (hfinite installed hchange)⟩

/-- Every edit goes through, one that is refused without any effect. -/
theorem run_apply (edit : Edit) (hstory : session.story = id.spelling)
    (hnow : now.millis = .ok time) (records : Records) :
    ∃ result plan, (edit.apply session now).run records = (.ok result, plan.store id records) ∧
      edit.Makes session result plan := by
  cases edit with
  | look => exact ⟨session, _, rfl, .unchanged⟩
  | saveGraph =>
    rw [apply, perform, Attempt.run_map, Attempt.run_bind, Attempt.run_lift,
      Session.run_saveGraph session hstory]
    exact ⟨session, _, rfl, .redrawn session.graph⟩
  | createNode =>
    have hsave := Session.run_saveGraph
      { session with graph := session.graph.addNode (session.graph.freshKey time) } hstory records
    rw [apply, perform, Attempt.run_map, Attempt.run_bind, Session.createNode, hnow,
      Attempt.run_bind, Attempt.run_ofExcept]
    simp only
    rw [Attempt.run_bind, Attempt.run_lift, hsave]
    exact ⟨_, _, rfl, .redrawn _⟩
  | removeNode | patchNode | addChoice | patchChoice | removeChoice | patchCondition | addOperation
  | patchOperation | removeOperation => exact run_editGraph _ hstory _ records
  | addVariable category definition =>
    exact run_editDefinitions (.addVariable category definition) hstory
      (fun _ hedit hfinite hold => hold.add hfinite hedit) records
  | patchVariable category name patch =>
    exact run_editDefinitions (.patchVariable category name patch) hstory
      (fun _ hedit hfinite hold => hold.patch hfinite hedit) records
  | removeVariable =>
    exact run_editDefinitions _ hstory (fun _ hedit _ hold => hold.remove hedit) records

namespace Makes

variable {result : Session} {plan : Plan Unit}

theorem story (h : edit.Makes session result plan) : result.story = session.story := by
  cases h <;> rfl

theorem place (h : edit.Makes session result plan) : result.place = session.place := by
  cases h <;> rfl

/-- The position saved after an edit is stored on top of what the edit stores. -/
theorem saved_eq_store (h : edit.Makes session result plan) (position : SaveSlot)
    (records : Records) :
    saved id Repository.autosaveSlot position (plan.store id records) =
      { plan with slots := [(Repository.autosaveSlot, position)] }.store id records := by
  cases h <;> rfl

theorem finite (h : edit.Makes session result plan) (hedit : edit.Finite)
    (hsession : session.store.Finite) : result.store.Finite := by
  cases h with
  | unchanged | redrawn => exact hsession
  | defined installed hfinite =>
    exact Session.finite_installed hsession (hfinite hedit hsession.definitions)

end Makes

end Edit

/-! ## Places -/

namespace Session

/-- The reader is where the reader of the other session is, after the same choices. -/
structure SamePlace (session other : Session) : Prop where
  nodeId : session.place.nodeId = other.place.nodeId
  history : session.place.history = other.place.history

/-- The reader has not taken any choice and is where the graph starts. -/
structure AtBeginning (session : Session) : Prop where
  nodeId : session.place.nodeId = session.graph.startPosition
  history : session.place.history = []

end Session

namespace Stored

/-- A saved position can be read again exactly if its values are finite. -/
theorem slot_of_timely {name : String} {position : SaveSlot} (h : position.Timely)
    (htext : records.get? (StoreKey.story id (.slot name)).text = some position.toJson.text) :
    (slot records id name = some position ∧ position.values.Finite) ∨
      (slot records id name = none ∧ ¬position.values.Finite) := by
  by_cases hvalues : position.values.Finite
  · exact Or.inl ⟨slot_of_text ⟨h, hvalues⟩ htext, hvalues⟩
  · refine Or.inr ⟨?_, hvalues⟩
    rw [slot, htext, Option.bind_some, Option.eq_none_iff_forall_ne_some]
    intro found hfound
    exact hvalues (Repository.eq_of_parsedSlot h hfound).2.values

theorem place_of_slot {position : SaveSlot}
    (h : slot records id Repository.autosaveSlot = some position) :
    (session records id).place.nodeId = position.currentNodeId ∧
      (session records id).place.history = position.history := by
  unfold session
  rw [h]
  exact ⟨rfl, rfl⟩

/-- Without a position that can be read the reader starts over. -/
theorem atBeginning_of_slot (h : slot records id Repository.autosaveSlot = none) :
    (session records id).AtBeginning := by
  unfold session
  rw [h]
  exact ⟨rfl, rfl⟩

theorem startPosition_store {edit : Edit} {result : Session} {plan : Plan Unit}
    (h : edit.Makes (session records id) result plan) (slots : List (String × SaveSlot)) :
    (graph ({ plan with slots }.store id records) id).startPosition =
      result.graph.startPosition := by
  rw [graph_store]
  cases h with
  | unchanged => rw [graph_session]; rfl
  | redrawn graph => rfl
  | defined installed => exact congrArg Graph.startPosition (graph_session records id).symm

end Stored

/-- Where the reader is after an edit. -/
theorem samePlace_of_makes (h : Kept records) (htime : ShortTime time) {edit : Edit}
    {result : Session} {plan : Plan Unit}
    (hmakes : edit.Makes (Stored.session records id) result plan) :
    (Stored.session (saved id Repository.autosaveSlot (result.player.position time)
        (plan.store id records)) id).SamePlace (Stored.session records id) ↔
      result.store.snapshot.Finite ∨ result.AtBeginning := by
  have hsound := Stored.sound_session h id
  have htimely : (result.player.position time).Timely :=
    Session.timely_position result (by rw [hmakes.place]; exact hsound.history) htime
  rw [hmakes.saved_eq_store]
  generalize hafter : ({ plan with slots := [(Repository.autosaveSlot,
    result.player.position time)] } : Plan Unit).store id records = after
  have htext : after.get? (StoreKey.story id (.slot Repository.autosaveSlot)).text =
      some (result.player.position time).toJson.text := by
    rw [← hafter]
    exact Plan.get?_store_last _ records (List.nil_append _).symm
  rcases Stored.slot_of_timely htimely htext with ⟨hslot, hfinite⟩ | ⟨hslot, hinfinite⟩
  · obtain ⟨hnode, hhistory⟩ := Stored.place_of_slot hslot
    refine iff_of_true ⟨hnode.trans ?_, hhistory.trans ?_⟩ (Or.inl hfinite)
    · exact congrArg Place.nodeId hmakes.place
    · exact congrArg Place.history hmakes.place
  · have hbeginning := Stored.atBeginning_of_slot hslot
    have hstart : (Stored.session after id).graph.startPosition = result.graph.startPosition := by
      rw [Stored.graph_session, ← hafter, Stored.startPosition_store hmakes]
    constructor
    · intro hsame
      refine Or.inr ⟨?_, ?_⟩
      · rw [hmakes.place, ← hsame.nodeId, hbeginning.nodeId, hstart]
      · rw [hmakes.place, ← hsame.history, hbeginning.history]
    · rintro (hfinite | hresult)
      · exact absurd hfinite hinfinite
      · refine ⟨?_, ?_⟩
        · rw [hbeginning.nodeId, hstart, ← hresult.nodeId, hmakes.place]
        · rw [hbeginning.history, ← hresult.history, hmakes.place]

/-- A story that is edited can be opened again, and the reader is where the reader was before
exactly if all values are finite after the edit, or if the reader was at the beginning anyway. -/
theorem run_reopening (h : Reachable records) (hlisted : Stored.Registered records id)
    {edit : Edit} (hlater : later.millis = .ok time) {result : Session} {plan : Plan Unit}
    (happly : (edit.apply (Stored.session records id) now).run records =
      (.ok result, plan.store id records))
    (hmakes : edit.Makes (Stored.session records id) result plan) :
    ∃ reopened after, (edit.reopening now later id.spelling).run records =
        (.ok ⟨Stored.session records id, result, reopened⟩, after) ∧
      (reopened.SamePlace (Stored.session records id) ↔
        result.store.snapshot.Finite ∨ result.AtBeginning) := by
  have hopened := Stored.story_session records id
  have hshort := shortTime_of_millis hlater
  have hautosave := Session.run_save (plan.listed_store (h.kept.slotList id))
    (hmakes.story.trans hopened) hlater Repository.autosaveSlot
  have hplace := samePlace_of_makes h.kept hshort hmakes
  have hafter : Kept (saved id Repository.autosaveSlot (result.player.position time)
      (plan.store id records)) := by
    rw [hmakes.saved_eq_store]
    refine Plan.kept_store (fun entry hentry => ?_) h.kept
    rw [List.mem_singleton.1 hentry]
    refine Session.timely_position result ?_ hshort
    rw [hmakes.place]
    exact (Stored.sound_session h.kept id).history
  have hstays : Stored.Registered (saved id Repository.autosaveSlot
      (result.player.position time) (plan.store id records)) id := by
    rw [hmakes.saved_eq_store]
    exact (Plan.registered_store _ records id).2 hlisted
  refine ⟨_, saved id Repository.autosaveSlot (result.player.position time) (plan.store id records),
    ?_, hplace⟩
  rw [Edit.reopening, Attempt.run_bind, Session.openStory_of_registered h.kept hlisted]
  simp only
  rw [Attempt.run_bind, happly]
  simp only
  rw [Attempt.run_bind, Session.autosave, hautosave]
  simp only
  rw [Attempt.run_bind, Session.openStory_of_registered hafter hstays]
  rfl

/-- The first visit finds the story as it is stored. -/
theorem opened_of_reopening (h : Reachable records) (hlisted : Stored.Registered records id)
    {edit : Edit} (hnow : now.Readable) (hlater : later.Readable) {visit : Edit.Reopened}
    {after : Records}
    (hrun : (edit.reopening now later id.spelling).run records = (.ok visit, after)) :
    visit.opened = Stored.session records id := by
  obtain ⟨time, htime⟩ := hnow
  obtain ⟨laterTime, hlaterTime⟩ := hlater
  obtain ⟨result, plan, happly, hmakes⟩ :=
    edit.run_apply (Stored.story_session records id) htime records
  obtain ⟨reopened, other, hreopening, -⟩ := run_reopening h hlisted hlaterTime happly hmakes
  obtain ⟨hvisit, -⟩ := Prod.mk.inj (hrun.symm.trans hreopening)
  rw [Except.ok.inj hvisit]

/-- Whatever is edited, the reader who comes back is where the reader was before exactly if all
values are finite after the edit, or if the reader was at the beginning anyway.  All edits but those
that put numbers that are not finite into the definitions keep all values finite. -/
theorem place_of_edit (h : Reachable records) (hlisted : Stored.Registered records id)
    (edit : Edit) (hnow : now.Readable) (hlater : later.Readable) :
    ∃ visit after, (edit.reopening now later id.spelling).run records = (.ok visit, after) ∧
      (visit.reopened.SamePlace visit.opened ↔
        visit.edited.store.snapshot.Finite ∨ visit.edited.AtBeginning) ∧
      (edit.Finite → visit.reopened.SamePlace visit.opened) := by
  obtain ⟨time, htime⟩ := hnow
  obtain ⟨laterTime, hlaterTime⟩ := hlater
  obtain ⟨result, plan, happly, hmakes⟩ :=
    edit.run_apply (Stored.story_session records id) htime records
  obtain ⟨reopened, after, hrun, hplace⟩ := run_reopening h hlisted hlaterTime happly hmakes
  refine ⟨_, after, hrun, hplace, fun hedit => hplace.2 (Or.inl ?_)⟩
  exact (hmakes.finite hedit (Stored.sound_session h.kept id).store).snapshot

/-- A story whose first choice has been taken. -/
theorem exists_played : ∃ records, Reachable records ∧ Stored.Registered records ⟨1⟩ ∧
    (Stored.session records ⟨1⟩).store.definitions = .default ∧
    (Stored.session records ⟨1⟩).place.history ≠ [] := by
  have hchoice : ∃ choice, (Stored.session newStory ⟨1⟩).view.choices[(0 : ℤ).toNat]? =
      some choice ∧ choice.available := by
    rw [Stored.session_newStory]
    exact ⟨_, rfl, rfl⟩
  obtain ⟨choice, hchoice, havailable⟩ := hchoice
  obtain ⟨outcome, after, hdone⟩ := (dispatch_eq_ok reachable_newStory.kept
    (reachable_newStory.not_held ⟨1⟩) registered_newStory Instant.millis_zero .choose
    (choosing 0)).2 ⟨_, PlayAction.outcome_choose.2
      ⟨choice, ⟨le_rfl, hchoice, havailable⟩, rfl, rfl⟩⟩
  have hnow : (Instant.mk 0.0).Readable := ⟨0, Instant.millis_zero⟩
  have hreach := reachable_newStory.dispatch hnow ⟨1⟩ PlayAction.choose.name (choosing 0)
  have hlisted := registered_dispatch reachable_newStory hnow registered_newStory
    PlayAction.choose.name (choosing 0)
  rw [hdone] at hreach hlisted
  obtain ⟨action, result, hname, hplan, -, hsession, -⟩ :=
    opened_of_dispatch reachable_newStory.kept Instant.millis_zero hdone
  rw [PlayAction.ofName?_name] at hname
  cases hname
  obtain ⟨taken, -, rfl, -⟩ := PlayAction.outcome_choose.1 hplan
  refine ⟨after, hreach, hlisted, ?_, ?_⟩
  · rw [hsession, Stored.session_newStory]
    exact VariableStore.definitions_foldl_perform _ _
  · rw [hsession]
    exact List.append_ne_nil_of_right_ne_nil _ (List.cons_ne_nil _ _)

/-- A reader who has taken a choice keeps it when a variable is removed. -/
theorem place_of_edit_played :
    ∃ records visit after, Reachable records ∧ Stored.Registered records ⟨1⟩ ∧
      ((Edit.removeVariable .physiological "health").reopening ⟨0.0⟩ ⟨0.0⟩
        (Identifier.mk 1).spelling).run records = (.ok visit, after) ∧
      visit.reopened.SamePlace visit.opened ∧ visit.reopened.place.history ≠ [] := by
  obtain ⟨records, hreach, hlisted, -, hhistory⟩ := exists_played
  have hnow : (Instant.mk 0.0).Readable := ⟨0, Instant.millis_zero⟩
  obtain ⟨visit, after, hrun, -, hfinite⟩ :=
    place_of_edit hreach hlisted (.removeVariable .physiological "health") hnow hnow
  have hsame := hfinite trivial
  refine ⟨records, visit, after, hreach, hlisted, hrun, hsame, ?_⟩
  rwa [hsame.history, opened_of_reopening hreach hlisted hnow hnow hrun]

/-- A variable that starts at infinity. -/
def endless : VariableDefinition :=
  { VariableDefinition.placeholder "x" "X" with initial := Decimal.infinite false }

/-- Its value is not finite. -/
theorem exists_endless : ∃ edit, Definitions.default.add .physiological endless = some edit ∧
    edit.restarts = true ∧
    ¬(VariableStore.ofDefinitions edit.definitions).snapshot.Finite := by
  refine ⟨_, rfl, rfl, fun hfinite => ?_⟩
  have hgroup := hfinite _ (Table.mem_of_findEntry (VariableStore.get?_snapshot _ .physiological))
  have hinfinite := hgroup ("x", Decimal.infinite false) (.tail _ (.tail _ (.tail _ (.head _))))
  revert hinfinite
  decide +kernel

/-- A variable that starts at infinity takes the reader back to the beginning. -/
theorem not_place_of_edit :
    ¬∀ (records : Records) (id : Identifier) (edit : Edit) (now later : Instant),
      Reachable records → Stored.Registered records id → now.Readable → later.Readable →
      ∃ visit after, (edit.reopening now later id.spelling).run records = (.ok visit, after) ∧
        visit.reopened.SamePlace visit.opened := by
  intro hclaim
  obtain ⟨records, hreach, hlisted, hdefinitions, hhistory⟩ := exists_played
  have hnow : (Instant.mk 0.0).Readable := ⟨0, Instant.millis_zero⟩
  obtain ⟨visit, after, hrun, hsame⟩ :=
    hclaim records ⟨1⟩ (.addVariable .physiological endless) ⟨0.0⟩ ⟨0.0⟩ hreach hlisted hnow hnow
  obtain ⟨installed, hadd, hrestarts, hinfinite⟩ := exists_endless
  rw [← hdefinitions] at hadd
  have happly : ((Edit.addVariable .physiological endless).apply (Stored.session records ⟨1⟩)
      ⟨0.0⟩).run records = (.ok ((Stored.session records ⟨1⟩).installed installed), _) :=
    Edit.run_editDefinitions_of_some (Stored.story_session records ⟨1⟩) hadd records
  obtain ⟨reopened, other, hreopening, hplace⟩ := run_reopening hreach hlisted Instant.millis_zero
    happly (.defined installed fun hfinite hold => hold.add hfinite hadd)
  obtain ⟨hvisit, -⟩ := Prod.mk.inj (hrun.symm.trans hreopening)
  rw [Except.ok.inj hvisit] at hsame
  rcases hplace.1 hsame with hfinite | hbeginning
  · rw [Session.installed, hrestarts] at hfinite
    exact hinfinite hfinite
  · exact hhistory hbeginning.history

end Narrative
