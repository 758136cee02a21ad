import Narrative.Assets.Demo
import Narrative.Proofs.Service.Reachable
import Narrative.Proofs.Story.Rooted

/-!
# The graphs of a run

A command that changes the graph of a story extends it, removes a node, or replaces it by an
imported one.  What all three keep holds of the graph of every story after every run; so all stories
have rooted graphs.
-/

namespace Narrative

variable {records : Records} {id : Identifier} {time : ℤ} {assets : Option Assets}

/-- The graph that an imported document puts in force. -/
def graphOf (document : Json.Fields) : Option Graph :=
  match Session.imported (.obj document) with
  | some (graph, definitions) =>
    match definitions.bind Schema.Draft.torn with
    | some _ => none
    | none => graph.storable.toOption
  | none => none

/-- The document that a command imports. -/
def Command.document? (assets : Option Assets) : Command → Option Json.Fields
  | importStory document => some document
  | loadDemo => assets.map Assets.demo
  | _ => none

/-- How a command comes to put a graph in the place of another. -/
inductive Command.Redraws (assets : Option Assets) (graph : Graph) : Command → Graph → Prop where
  | extend {command : Command} {result : Graph} (h : graph.Extends result) :
      Redraws assets graph command result
  | remove {key : String} {result : Graph} (h : graph.removeNode key = some result) :
      Redraws assets graph (.removeNode key) result
  | replace {command : Command} {document : Json.Fields} {result : Graph}
      (hdocument : command.document? assets = some document) (h : graphOf document = some result) :
      Redraws assets graph command result

/-! ## Plans -/

section Plans

variable {session : Session}

theorem Session.graph_importPlan (refusal : Failure) (document : Json.Fields) :
    (session.importPlan time refusal document).graph = graphOf document := by
  unfold importPlan graphOf
  cases imported (.obj document) with
  | none => rfl
  | some found =>
    obtain ⟨draft, definitions⟩ := found
    simp only
    cases definitions.bind Schema.Draft.torn with
    | some points => rfl
    | none => cases draft.storable <;> rfl

theorem Session.graph_nodePlan (key : String) (refusal : Failure) (edit : Graph → Option Graph) :
    (session.nodePlan key refusal edit).graph = edit session.graph := by
  unfold nodePlan
  cases edit session.graph <;> rfl

theorem Session.graph_removalPlan (key : String) :
    (session.removalPlan key).graph = session.graph.removeNode key := by
  unfold removalPlan
  cases session.graph.removeNode key <;> rfl

theorem Session.graph_definitionsPlan (refusal : Failure)
    (edit : Definitions → Option DefinitionsEdit) :
    (session.definitionsPlan time refusal edit).graph = none := by
  unfold definitionsPlan
  cases edit session.store.definitions <;> rfl

theorem Command.graph_actionPlan {payload : Json.Fields} {slots : String → Option SaveSlot}
    (action : PlayAction) : (actionPlan time payload slots session action).graph = none := by
  unfold actionPlan PlayAction.autosaved
  split
  · exact (action.plan_only_saves payload slots).2
  · rfl

/-- The graph that a command stores is an extended one, one with a node removed, or an imported
one. -/
theorem Command.redraws_of_plan {slots : String → Option SaveSlot} {command : Command}
    {result : Graph} (h : (command.plan assets time session slots).graph = some result) :
    command.Redraws assets session.graph result := by
  have hextend {key : String} {refusal : Failure} {edit : Graph → Option Graph}
      (h : (session.nodePlan key refusal edit).graph = some result)
      (hedit : ∀ graph result, edit graph = some result → graph.Extends result) :
      command.Redraws assets session.graph result := by
    rw [Session.graph_nodePlan] at h
    exact .extend (hedit _ _ h)
  cases command with
  | importStory document =>
    exact .replace rfl ((Session.graph_importPlan .notStory document).symm.trans h)
  | loadDemo =>
    cases assets with
    | none => exact absurd h (by simp [plan, Assets.require, Plan.refused])
    | some assets =>
      exact .replace rfl ((Session.graph_importPlan .notDemo assets.demo).symm.trans h)
  | createNode =>
    rw [← Option.some.inj h]
    exact .extend (Graph.extends_addNode ..)
  | removeNode node => exact .remove ((Session.graph_removalPlan node).symm.trans h)
  | patchNode => exact hextend h fun _ _ => Graph.extends_patchNode
  | addChoice | removeChoice => exact hextend h fun _ _ => Graph.extends_editChoices
  | patchChoice | patchCondition => exact hextend h fun _ _ => Graph.extends_editChoice
  | addOperation | patchOperation | removeOperation =>
    exact hextend h fun _ _ => Graph.extends_editOperations
  | addVariable | removeVariable =>
    exact absurd ((Session.graph_definitionsPlan _ _).symm.trans h) (by simp)
  | patchVariable category name patch =>
    refine absurd (Eq.trans ?_ h) (by simp : (none : Option Graph) ≠ some result)
    simp only [plan, Plan.map]
    split
    · rfl
    · exact (Session.graph_definitionsPlan _ _).symm
  | play name payload =>
    simp only [plan] at h
    split at h
    · exact absurd ((graph_actionPlan _).symm.trans h) (by simp)
    · exact absurd h (by simp [Plan.refused])
  | savePosition slot => exact absurd ((graph_actionPlan _).symm.trans h) (by simp)

end Plans

namespace Stored

theorem graph_store {α : Type} (plan : Plan α) (records : Records) :
    graph (plan.store id records) id = (plan.graph.map Graph.kept).getD (graph records id) := by
  unfold graph
  rw [Plan.get?_store_graph]
  cases plan.graph with
  | none => rfl
  | some graph => simp [Repository.parsed_graph, Except.toOption]

theorem graph_congr {other : Records}
    (h : other.get? (StoreKey.story id .graph).text =
      records.get? (StoreKey.story id .graph).text) :
    graph other id = graph records id := by
  rw [graph, graph, h]

theorem graph_of_openStory (h : Kept records) (hlisted : Registered records id) {session : Session}
    (hopen : (Session.openStory id.spelling true).run records = (.ok session, records)) :
    session.graph = graph records id := by
  rw [Session.openStory_of_registered h hlisted] at hopen
  rw [← Except.ok.inj (Prod.mk.inj hopen).1, graph_session]

theorem graph_created (id : Identifier) (records : Records) :
    graph (created id records) id = Graph.default.kept := by
  rw [graph_congr (get?_created_of_ne id records (by simp)), graph_store]
  rfl

end Stored

/-! ## Runs -/

/-- A request leaves the graph of a story as it is, makes it the one of a new story, or redraws
it. -/
theorem Step.graph {p : Graph → Prop} {fresh : Identifier} {request : Request}
    {result : Except Failure Reply × Records}
    (h : Step assets fresh time records request result) (hdefault : p .default)
    (hkept : ∀ graph, p graph → p graph.kept) (hgraph : p (Stored.graph records id))
    (hredraws : ∀ command after, request = .command id command → Stored.Registered records id →
      command.Redraws assets (Stored.graph records id) after → p after) :
    p (Stored.graph result.2 id) := by
  cases h with
  | look | refuse => exact hgraph
  | create =>
    -- A story that is created under a used identifier loses its graph.
    by_cases hid : fresh = id
    · rw [hid, Stored.graph_created]
      exact hkept _ hdefault
    · rw [Stored.graph_congr ((get?_created_of_ne _ _ (by simp)).trans
        (Plan.get?_store_story _ _ hid _))]
      exact hgraph
  | change changed command hfree hlisted =>
    by_cases hid : changed = id
    · subst hid
      rw [Stored.graph_store]
      cases hplan : (command.plan assets time (Stored.session records changed)
          (Stored.slot records changed)).graph with
      | none => exact hgraph
      | some after =>
        have hafter := Command.redraws_of_plan hplan
        rw [Stored.graph_session] at hafter
        exact hkept _ (hredraws command after rfl hlisted hafter)
    · rw [Stored.graph_congr (Plan.get?_store_story _ _ hid _)]
      exact hgraph

/-- What requests keep of the graphs of all stories holds after every run. -/
theorem Run.graph {allowed : Records → Occasion → Prop} {p : Graph → Prop} (hdefault : p .default)
    (hkept : ∀ graph, p graph → p graph.kept)
    (hredraws : ∀ records occasion id command after, allowed records occasion →
      occasion.request = .command id command → Stored.Registered records id →
      p (Stored.graph records id) →
      command.Redraws occasion.assets (Stored.graph records id) after → p after)
    (h : Run allowed .empty records) (id : Identifier) : p (Stored.graph records id) := by
  induction h with
  | start => exact hdefault
  | next h occasion hnow hallowed ih =>
    obtain ⟨time, htime⟩ := hnow
    exact (Request.step (h.kept kept_empty) htime occasion.assets occasion.fresh
      occasion.request).graph hdefault hkept ih fun command after hrequest hlisted =>
        hredraws _ occasion id command after hallowed hrequest hlisted ih

theorem Command.graph_of_document {command : Command} {document : Json.Fields}
    (h : command.document? assets = some document) (session : Session)
    (slots : String → Option SaveSlot) :
    (command.plan assets time session slots).graph = graphOf document := by
  cases command with
  | importStory =>
    rw [← Option.some.inj h]
    exact Session.graph_importPlan ..
  | loadDemo =>
    obtain ⟨assets, rfl, rfl⟩ := Option.map_eq_some_iff.1 h
    exact Session.graph_importPlan ..
  | _ => exact absurd h (by simp [document?])

/-- An import that goes through leaves the story in the catalog, with the graph of the document. -/
theorem Occasion.graph_import (occasion : Occasion) (h : Reachable records)
    (hlisted : Stored.Registered records id) (hnow : occasion.now.Readable) {command : Command}
    {document : Json.Fields} {graph : Graph} (hrequest : occasion.request = .command id command)
    (hdocument : command.document? occasion.assets = some document)
    (hgraph : graphOf document = some graph) :
    Stored.Registered (occasion.run records).2 id ∧
      Stored.graph (occasion.run records).2 id = graph.kept := by
  obtain ⟨time, htime⟩ := hnow
  rw [run, hrequest, Request.perform, command.run_perform h.kept (h.not_held id) hlisted htime]
  refine ⟨(Plan.registered_store ..).2 hlisted, ?_⟩
  rw [Stored.graph_store, Command.graph_of_document hdocument, hgraph]
  rfl

/-- A run goes on with an import: its graph is in force afterwards. -/
theorem Run.next_document {allowed : Records → Occasion → Prop} (h : Run allowed .empty records)
    (hlisted : Stored.Registered records id) {now : Instant} (hnow : now.Readable)
    {fresh : Identifier} {command : Command} {document : Json.Fields} {graph : Graph}
    (hallowed : allowed records ⟨.command id command, assets, fresh, now⟩)
    (hdocument : command.document? assets = some document)
    (hgraph : graphOf document = some graph) :
    ∃ after, Run allowed .empty after ∧ Stored.Registered after id ∧
      Stored.graph after id = graph.kept := by
  have hrun := Run.next h ⟨.command id command, assets, fresh, now⟩ hnow hallowed
  have himport := Occasion.graph_import ⟨.command id command, assets, fresh, now⟩
    (h.reachable Run.start) hlisted hnow rfl hdocument hgraph
  exact ⟨_, hrun, himport⟩

/-- A run goes on with a removal: the other nodes are in force afterwards. -/
theorem Run.next_removal {allowed : Records → Occasion → Prop} (h : Run allowed .empty records)
    (hlisted : Stored.Registered records id) {now : Instant} (hnow : now.Readable)
    {fresh : Identifier} {key : String} {graph : Graph}
    (hallowed : allowed records ⟨.command id (.removeNode key), assets, fresh, now⟩)
    (hremoved : (Stored.graph records id).removeNode key = some graph) :
    ∃ after, Run allowed .empty after ∧ Stored.Registered after id ∧
      Stored.graph after id = graph.kept := by
  obtain ⟨time, htime⟩ := hnow
  refine ⟨_, h.command hlisted htime fresh hallowed, (Plan.registered_store ..).2 hlisted, ?_⟩
  have hplan : ((Command.removeNode key).plan assets time (Stored.session records id)
      (Stored.slot records id)).graph = some graph := by
    rw [← hremoved, ← Stored.graph_session]
    exact Session.graph_removalPlan key
  rw [Stored.graph_store, hplan, Option.map_some, Option.getD_some]

/-- An imported graph is what its document says. -/
theorem reader_of_graphOf {document : Json.Fields} {result : Graph}
    (h : graphOf document = some result) :
    ∃ nodes, Json.Fields.get? document "nodes" = some nodes ∧
      Graph.reader .document (Session.importedGraph document nodes) = .valid result ∧
      result.hasNode startNodeId := by
  unfold graphOf at h
  split at h
  case h_2 => exact absurd h (by simp)
  case h_1 draft definitions hfound =>
    split at h
    case h_1 => exact absurd h (by simp)
    case h_2 =>
      obtain ⟨_, nodes, hfields, hrest⟩ :=
        Session.reader_of_imported hfound (Session.toOption_eq_some.1 h)
      cases hfields
      exact ⟨nodes, hrest⟩

/-- An imported graph is rooted. -/
theorem rooted_of_graphOf {document : Json.Fields} {result : Graph}
    (h : graphOf document = some result) : result.Rooted := by
  obtain ⟨_, -, hread, hstart⟩ := reader_of_graphOf h
  exact Session.rooted_of_reader (congrArg Schema.Checked.value? hread) hstart

theorem Command.Redraws.rooted {graph result : Graph} {command : Command}
    (h : command.Redraws assets graph result) (hrooted : graph.Rooted) : result.Rooted := by
  cases h with
  | extend h => exact h.rooted hrooted
  | remove h => exact hrooted.removeNode h
  | replace _ h => exact rooted_of_graphOf h

/-- Every story has a rooted graph. -/
theorem Reachable.rooted (h : Reachable records) (id : Identifier) :
    (Stored.graph records id).Rooted :=
  Run.graph Graph.rooted_default (fun graph hgraph => (Graph.extends_kept graph).rooted hgraph)
    (fun _ _ _ _ _ _ _ _ hrooted hredraws => hredraws.rooted hrooted) h id

/-- The demo story is imported with its nodes, and starts at one of them. -/
theorem exists_demo : ∃ graph, graphOf Demo.story = some graph ∧ graph.Startable ∧
    graph.kept.startPosition = startNodeId ∧ graph.kept.hasNode "find_water" := by
  have hdemo : (graphOf Demo.story).map (fun graph => (graph.hasNode graph.startPosition,
      graph.kept.startPosition, graph.kept.hasNode "find_water")) =
      some (true, startNodeId, true) := by decide +kernel
  obtain ⟨graph, hgraph, hfacts⟩ := Option.map_eq_some_iff.1 hdemo
  simp only [Prod.mk.injEq] at hfacts
  exact ⟨graph, hgraph, hfacts⟩

end Narrative
