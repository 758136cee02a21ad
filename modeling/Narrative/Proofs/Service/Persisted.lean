import Narrative.Proofs.Service.Places
import Narrative.Proofs.Story.Frames

/-!
# What edits leave in the store

An edit of an open story that is refused changes nothing.  One that goes through changes what it
names, and stores it as part of the whole graph or of all definitions, as they stand in the session
afterwards; nothing else is written.  Creating a node is the only edit that can fail, for want of a
clock, and then nothing has been written either.

Hence a session whose graph and definitions are stored keeps them stored through any run of edits.
This is a statement about one session: the graph that another one has in memory is not updated.
-/

namespace Narrative

variable {session : Session} {now : Instant} {records : Records}

namespace Edit

/-- The graph that an edit of one leads to, if it goes through. -/
def Redraws (now : Instant) (before after : Graph) : Edit → Prop
  | saveGraph => after = before
  | createNode => ∃ time, now.millis = .ok time ∧
      before.NodesChanged
        (fun old new => before.freshKey time ∉ old.map Prod.fst ∧
          new = old ++ [(before.freshKey time, .placeholder (before.freshKey time))]) after
  | removeNode node => node ≠ startNodeId ∧
      before.NodesChanged (fun old new => new = old.filter fun entry => entry.1 ≠ node) after
  | patchNode node patch => before.NodesChanged (Rewritten node (patch.apply · = ·)) after
  | addChoice node => before.ChoicesChanged node (· ++ [.placeholder] = ·) after
  | removeChoice node choice => before.ChoicesChanged node (Removed choice) after
  | patchChoice node choice patch => before.ChoiceChanged node choice (patch.apply · = ·) after
  | patchCondition node choice patch =>
      before.ChoiceChanged node choice
        (fun old new => { old with condition := patch.apply old.condition } = new) after
  | addOperation node choice =>
      before.OperationsChanged node choice (· ++ [.placeholder] = ·) after
  | removeOperation node choice operation =>
      before.OperationsChanged node choice (Removed operation) after
  | patchOperation node choice operation patch =>
      before.OperationsChanged node choice (Replaced (patch.apply · = ·) operation) after
  | look | addVariable .. | patchVariable .. | removeVariable .. => False

/-- The definitions that an edit of some leads to, if it goes through, and whether the variables
start over with them. -/
def Redefines (before : Definitions) (after : DefinitionsEdit) : Edit → Prop
  | addVariable category definition =>
      before.GroupChanged category
        (fun old new => definition.id ∉ old.map VariableDefinition.id ∧ new = old ++ [definition])
        after.definitions ∧ after.restarts
  | patchVariable category name patch =>
      before.GroupChanged category
        (fun old new => FirstReplaced (·.id = name) (patch.apply · = ·) old new ∧
          (patch.id.getD name ≠ name → patch.id.getD name ∉ old.map VariableDefinition.id))
        after.definitions ∧ after.restarts = (patch.id.getD name != name)
  | removeVariable category name =>
      before.GroupChanged category
        (fun old new => name ∈ old.map VariableDefinition.id ∧
          new = old.filter fun definition => definition.id ≠ name)
        after.definitions ∧ after.restarts
  | _ => False

/-- What an edit of an open story answers, what it leaves of the session, and what it leaves in the
store. -/
inductive Leaves (edit : Edit) (session : Session) (now : Instant) (records : Records) :
    Except Failure (Bool × Session) × Records → Prop where
  /-- A node cannot be created at an unknown time. -/
  | untimed {failure : Failure} (hedit : edit = createNode) (hnow : now.millis = .error failure) :
      Leaves edit session now records (.error failure, records)
  /-- There is nothing that the edit could lead to. -/
  | refused (hgraph : ∀ graph, ¬ edit.Redraws now session.graph graph)
      (hdefinitions : ∀ installed, ¬ edit.Redefines session.store.definitions installed) :
      Leaves edit session now records (.ok (false, session), records)
  /-- The session has another graph, and that graph is stored. -/
  | redrawn {graph : Graph} (h : edit.Redraws now session.graph graph) :
      Leaves edit session now records (.ok (true, { session with graph }),
        records.insert (Repository.graphKey session.story) graph.toJson.text)
  /-- The session has other definitions, and these are stored. -/
  | redefined {installed : DefinitionsEdit}
      (h : edit.Redefines session.store.definitions installed) :
      Leaves edit session now records (.ok (true, session.installed installed),
        records.insert (Repository.definitionsKey session.story)
          (session.installed installed).store.definitions.toJson.text)

/-! ## What edits leave -/

variable {edit : Edit}

theorem leaves_editGraph {change : Graph → Option Graph}
    (hgraph : ∀ graph, change session.graph = some graph ↔ edit.Redraws now session.graph graph)
    (hdefinitions : ∀ installed, ¬ edit.Redefines session.store.definitions installed) :
    edit.Leaves session now records (Attempt.run (session.editGraph change) records) := by
  rw [Attempt.run_lift, Session.editGraph]
  cases hchange : change session.graph with
  | none =>
    refine .refused (fun graph h => ?_) hdefinitions
    exact absurd ((hgraph graph).2 h) (by simp [hchange])
  | some graph => exact .redrawn ((hgraph graph).1 hchange)

theorem leaves_editDefinitions {change : Definitions → Option DefinitionsEdit}
    (hgraph : ∀ graph, ¬ edit.Redraws now session.graph graph)
    (hdefinitions : ∀ installed, change session.store.definitions = some installed ↔
      edit.Redefines session.store.definitions installed) :
    edit.Leaves session now records (Attempt.run (session.editDefinitions change) records) := by
  rw [Attempt.run_lift, Session.editDefinitions]
  cases hchange : change session.store.definitions with
  | none =>
    refine .refused hgraph fun installed h => ?_
    exact absurd ((hdefinitions installed).2 h) (by simp [hchange])
  | some installed =>
    have hleaves : edit.Leaves session now records _ :=
      .redefined ((hdefinitions installed).1 hchange)
    rw [Session.definitions_installed] at hleaves
    exact hleaves

theorem leaves_createNode :
    createNode.Leaves session now records ((createNode.perform session now).run records) := by
  rw [perform, Session.createNode]
  cases hnow : now.millis with
  | error failure => exact .untimed rfl hnow
  | ok time => exact .redrawn ⟨time, hnow, session.graph.nodesChanged_addNode time⟩

/-- Whatever is edited at any index, a refused edit leaves the session and the store as they are,
and one that goes through changes what it names and stores the graph or the definitions with it. -/
theorem leaves_perform (edit : Edit) (session : Session) (now : Instant) (records : Records) :
    edit.Leaves session now records ((edit.perform session now).run records) := by
  cases edit with
  | look => exact .refused (fun _ => id) (fun _ => id)
  | saveGraph => exact .redrawn rfl
  | createNode => exact leaves_createNode
  | removeNode node =>
    exact leaves_editGraph (fun _ => Graph.removeNode_iff_nodesChanged) (fun _ => id)
  | patchNode | addChoice | patchChoice | patchCondition | removeChoice | addOperation
  | patchOperation | removeOperation =>
    refine leaves_editGraph (fun graph => ?_) (fun _ => id)
    simp only [Redraws, Graph.patchNode, Graph.addChoice, Graph.patchChoice, Graph.patchCondition,
      Graph.removeChoice, Graph.addOperation, Graph.patchOperation, Graph.removeOperation,
      Graph.editNode_iff_nodesChanged, Graph.editChoices_iff_choicesChanged,
      Graph.editChoice_iff_choiceChanged, Graph.editOperations_iff_operationsChanged,
      editItem_iff_replaced, removeItem_iff_removed, Option.some.injEq]
  | addVariable =>
    exact leaves_editDefinitions (fun _ => id) (fun _ => Definitions.add_iff_groupChanged)
  | patchVariable =>
    exact leaves_editDefinitions (fun _ => id) (fun _ => Definitions.patch_iff_groupChanged)
  | removeVariable =>
    exact leaves_editDefinitions (fun _ => id) (fun _ => Definitions.remove_iff_groupChanged)

end Edit

/-! ## Runs of edits -/

/-- The graph and the definitions of a session are stored. -/
structure Session.Persisted (session : Session) (records : Records) : Prop where
  graph : records.get? (Repository.graphKey session.story) = some session.graph.toJson.text
  definitions : records.get? (Repository.definitionsKey session.story) =
    some session.store.definitions.toJson.text

namespace Edit

/-- Make edits one after the other, each at its time. -/
def performAll (session : Session) : List (Edit × Instant) → Attempt Session
  | [] => return session
  | (edit, now) :: rest => do
    let (_, session) ← edit.perform session now
    performAll session rest

variable {edit : Edit} {done : Bool} {result : Session} {after : Records}

theorem Leaves.story (h : edit.Leaves session now records (.ok (done, result), after)) :
    result.story = session.story := by
  cases h <;> rfl

theorem Leaves.persisted (h : edit.Leaves session now records (.ok (done, result), after))
    (hpersisted : session.Persisted records) : result.Persisted after := by
  have hne := Repository.graphKey_ne_definitionsKey session.story
  cases h with
  | refused => exact hpersisted
  | redrawn h =>
    constructor
    · rw [Table.get?_insert, if_pos rfl]
    · rw [Table.get?_insert, if_neg hne]
      exact hpersisted.definitions
  | redefined h =>
    constructor
    · rw [Table.get?_insert]
      exact (if_neg hne.symm).trans hpersisted.graph
    · rw [Table.get?_insert]
      exact if_pos rfl

theorem Leaves.get?_of_ne (h : edit.Leaves session now records (.ok (done, result), after))
    {key : String} (hgraph : key ≠ Repository.graphKey session.story)
    (hdefinitions : key ≠ Repository.definitionsKey session.story) :
    after.get? key = records.get? key := by
  cases h with
  | refused => rfl
  | redrawn h => rw [Table.get?_insert, if_neg hgraph.symm]
  | redefined h => rw [Table.get?_insert, if_neg hdefinitions.symm]

/-- A session whose graph and definitions are stored keeps them stored through a run of edits, which
writes under no other keys. -/
theorem persisted_performAll {edits : List (Edit × Instant)}
    (hrun : (performAll session edits).run records = (.ok result, after))
    (hpersisted : session.Persisted records) :
    result.Persisted after ∧ ∀ key, key ≠ Repository.graphKey session.story →
      key ≠ Repository.definitionsKey session.story → after.get? key = records.get? key := by
  induction edits generalizing session records with
  | nil =>
    obtain ⟨hresult, rfl⟩ := Prod.mk.inj hrun
    rw [← Except.ok.inj hresult]
    exact ⟨hpersisted, fun _ _ _ => rfl⟩
  | cons head rest ih =>
    obtain ⟨edit, now⟩ := head
    rw [performAll, Attempt.run_bind] at hrun
    have hleaves := edit.leaves_perform session now records
    rcases hstep : (edit.perform session now).run records with ⟨failure | ⟨done, next⟩, between⟩
    · rw [hstep] at hrun
      exact absurd (congrArg Prod.fst hrun) (by simp)
    · rw [hstep] at hrun hleaves
      obtain ⟨hresult, hothers⟩ := ih hrun (hleaves.persisted hpersisted)
      refine ⟨hresult, fun key hgraph hdefinitions => ?_⟩
      rw [hleaves.story] at hothers
      rw [hothers key hgraph hdefinitions, hleaves.get?_of_ne hgraph hdefinitions]

end Edit

/-- Every edit of an open story persists exactly what it changes.  So a session whose graph and
definitions are stored keeps them stored through a run of edits, which writes under no other key. -/
theorem edits_persist (session : Session) (records : Records) :
    (∀ (edit : Edit) now,
      edit.Leaves session now records ((edit.perform session now).run records)) ∧
    (session.Persisted records → ∀ edits result after,
      (Edit.performAll session edits).run records = (.ok result, after) →
      result.Persisted after ∧ ∀ key, key ≠ Repository.graphKey session.story →
        key ≠ Repository.definitionsKey session.story → after.get? key = records.get? key) :=
  ⟨fun edit now => edit.leaves_perform session now records,
    fun hpersisted _ _ _ hrun => Edit.persisted_performAll hrun hpersisted⟩

theorem persisted_newStory : (Stored.session newStory ⟨1⟩).Persisted newStory := by
  rw [Stored.session_newStory]
  exact ⟨rfl, rfl⟩

/-- A choice of a new story is removed, and then it is no longer there to be removed. -/
theorem edits_persist_newStory :
    ∃ result after, (Edit.performAll (Stored.session newStory ⟨1⟩)
        [(.removeChoice startNodeId 0, ⟨0.0⟩), (.removeChoice startNodeId 0, ⟨0.0⟩)]).run newStory =
        (.ok result, after) ∧ result.Persisted after := by
  have hpersisted := persisted_newStory
  rw [Stored.session_newStory] at hpersisted ⊢
  have hdone : ∃ result after, (Edit.performAll
      (Session.fresh (Identifier.mk 1).spelling .default .default)
      [(.removeChoice startNodeId 0, ⟨0.0⟩), (.removeChoice startNodeId 0, ⟨0.0⟩)]).run newStory =
        (.ok result, after) := ⟨_, _, rfl⟩
  obtain ⟨result, after, hrun⟩ := hdone
  exact ⟨result, after, hrun, ((edits_persist _ newStory).2 hpersisted _ _ _ hrun).1⟩

end Narrative
