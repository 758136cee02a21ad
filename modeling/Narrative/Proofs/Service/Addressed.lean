import Narrative.Proofs.Service.Graphs
import Narrative.Proofs.Story.Keyed

/-!
# Addressed nodes

A client that has listed the nodes of a story can ask for each of them by the identifier that it
shows, as long as no imported graph gives a node another name than its key.  The ways of editing a
story all keep that; an import keeps it only if its graph does.
-/

namespace Narrative

variable {records : Records} {id : Identifier}

/-- A graph that is imported names all nodes by their keys. -/
def Occasion.BringsKeyed (records : Records) (occasion : Occasion) : Prop :=
  ∀ id command document graph, occasion.request = .command id command →
    Stored.Registered records id → command.document? occasion.assets = some document →
    graphOf document = some graph → graph.Keyed

theorem Command.Redraws.keyed {assets : Option Assets} {graph result : Graph} {command : Command}
    (h : command.Redraws assets graph result) (hkeyed : graph.Keyed)
    (hbrings : ∀ document, command.document? assets = some document →
      graphOf document = some result → result.Keyed) : result.Keyed := by
  cases h with
  | extend hextends => exact hextends.keyed hkeyed
  | remove hremoved => exact hkeyed.removeNode hremoved
  | replace hdocument hgraph => exact hbrings _ hdocument hgraph

/-- As long as imports name all nodes by their keys, all stories do. -/
theorem Run.keyed (h : Run Occasion.BringsKeyed .empty records) (id : Identifier) :
    (Stored.graph records id).Keyed := by
  refine Run.graph Graph.keyed_default (fun _ => Graph.Keyed.kept) ?_ h id
  intro records occasion id command after hallowed hrequest hlisted hkeyed hredraws
  exact hredraws.keyed hkeyed fun document =>
    hallowed id command document after hrequest hlisted

/-- An imported graph is keyed if its document names all nodes by their keys. -/
theorem keyed_of_graphOf {document : Json.Fields} {graph : Graph}
    (h : graphOf document = some graph)
    (hnames : ∀ fields, Json.Fields.get? document "nodes" = some (.obj fields) →
      ∀ entry ∈ fields, NamesByKey entry.1 entry.2) : graph.Keyed := by
  obtain ⟨nodes, hnodes, hread, -⟩ := reader_of_graphOf h
  refine Graph.keyed_of_reader (congrArg Schema.Checked.value? hread) fun fields hfields => ?_
  apply hnames fields
  rw [hnodes, hfields]

/-- What is stored of an imported graph is keyed exactly if the graph is. -/
theorem keyed_kept_of_graphOf {document : Json.Fields} {graph : Graph}
    (h : graphOf document = some graph) : graph.kept.Keyed ↔ graph.Keyed := by
  obtain ⟨_, -, hread, -⟩ := reader_of_graphOf h
  exact Graph.keyed_kept_iff (congrArg Schema.Checked.value? hread)

theorem Query.run_node (h : Kept records) (hlisted : Stored.Registered records id) {node : Node}
    (hnode : (Stored.session records id).graph.node? node.id = some node) (now : Instant) :
    ((Query.node node.id).perform now id.spelling).run records =
      (.ok (.document node.toJson), records) := by
  rw [run_perform h hlisted, answer, hnode]
  rfl

/-- As long as no imported graph gives a node another name than its key, every node of a story has
its key for an identifier: it is found by it, no other node is listed with it, and asking for it
answers the node that was listed.  After the next import that is so exactly if its graph names all
nodes by their keys. -/
theorem addressed_of_run (h : Run Occasion.BringsKeyed .empty records)
    (hlisted : Stored.Registered records id) :
    ∃ session, (Session.openStory id.spelling true).run records = (.ok session, records) ∧
      session.graph.Keyed ∧ session.graph.Addressed ∧
      (∀ now, (Query.nodes.perform now id.spelling).run records =
        (.ok (.document (NodeListAnswer.toJson ⟨session.graph.nodesStartFirst⟩)), records)) ∧
      (∀ node ∈ session.graph.nodesStartFirst, ∀ now,
        ((Query.node node.id).perform now id.spelling).run records =
          (.ok (.document node.toJson), records)) ∧
      ∀ (occasion : Occasion) command document graph, occasion.request = .command id command →
        occasion.now.Readable → command.document? occasion.assets = some document →
        graphOf document = some graph → ∃ later,
          (Session.openStory id.spelling true).run (occasion.run records).2 =
            (.ok later, (occasion.run records).2) ∧
          (later.graph.Addressed ↔ graph.Keyed) := by
  have hreach : Reachable records := h.reachable Run.start
  have hkeyed : (Stored.session records id).graph.Keyed := by
    rw [Stored.graph_session]
    exact h.keyed id
  refine ⟨_, Session.openStory_of_registered hreach.kept hlisted, hkeyed, hkeyed.addressed,
    Query.nodes.run_perform hreach.kept hlisted, ?_, ?_⟩
  · exact fun node hnode => Query.run_node hreach.kept hlisted (hkeyed.addressed.found node hnode)
  · intro occasion command document graph hrequest hnow hdocument hgraph
    obtain ⟨hstays, hstored⟩ :=
      occasion.graph_import hreach hlisted hnow hrequest hdocument hgraph
    have hafter : Reachable (occasion.run records).2 := hreach.next occasion hnow trivial
    refine ⟨_, Session.openStory_of_registered hafter.kept hstays, ?_⟩
    rw [← Graph.keyed_iff_addressed, Stored.graph_session, hstored]
    exact keyed_kept_of_graphOf hgraph

/-- The request that loads the demo story into the first story. -/
def demoLoad : Occasion := ⟨.command ⟨1⟩ .loadDemo, some ⟨Demo.story⟩, ⟨1⟩, ⟨0.0⟩⟩

theorem bringsKeyed_demoLoad (records : Records) : demoLoad.BringsKeyed records := by
  intro id command document graph hrequest _ hdocument hgraph
  cases hrequest
  cases hdocument
  refine keyed_of_graphOf hgraph fun fields hfields => ?_
  cases hfields
  exact namesByKey_nodes

theorem bringsKeyed_createStory :
    Occasion.BringsKeyed .empty ⟨.createStory, none, ⟨1⟩, ⟨0.0⟩⟩ := fun _ _ _ _ h => nomatch h

/-- The demo story, loaded into a new one. -/
theorem addressed_of_run_demo :
    Run Occasion.BringsKeyed .empty (demoLoad.run newStory).2 ∧
      Stored.Registered (demoLoad.run newStory).2 ⟨1⟩ ∧
      ∃ session, (Session.openStory (Identifier.mk 1).spelling true).run (demoLoad.run newStory).2 =
          (.ok session, (demoLoad.run newStory).2) ∧
        session.graph.hasNode "find_water" ∧ session.graph.Keyed ∧ session.graph.Addressed := by
  have hnow : (Instant.mk 0.0).Readable := Instant.readable_of_isFinite (by decide)
  have hrun : Run Occasion.BringsKeyed .empty (demoLoad.run newStory).2 :=
    Run.next (Run.newStory bringsKeyed_createStory) demoLoad hnow (bringsKeyed_demoLoad newStory)
  obtain ⟨graph, hgraph, -, -, hnode⟩ := exists_demo
  have hdocument : Command.loadDemo.document? demoLoad.assets = some Demo.story := rfl
  obtain ⟨hlisted, hstored⟩ :=
    demoLoad.graph_import reachable_newStory registered_newStory hnow rfl hdocument hgraph
  obtain ⟨session, hopen, hkeyed, haddressed, -⟩ := addressed_of_run hrun hlisted
  have hopened := Stored.graph_of_openStory (hrun.kept kept_empty) hlisted hopen
  exact ⟨hrun, hlisted, session, hopen, (hopened.trans hstored) ▸ hnode, hkeyed, haddressed⟩

/-! ## A node with another name than its key -/

/-- A document whose only node has another name than its key. -/
def misnamedStory : Json.Fields :=
  [("nodes", .obj [(startNodeId, .obj [("id", .str "elsewhere")])])]

/-- The graph of the document. -/
def misnamedGraph : Graph := { nodes := Table.ofList [(startNodeId, { id := "elsewhere" })] }

theorem graphOf_misnamedStory : graphOf misnamedStory = some misnamedGraph := rfl

/-- The import of the document into the first story. -/
def misnamedImport : Occasion :=
  ⟨.command ⟨1⟩ (.importStory misnamedStory), none, ⟨1⟩, ⟨0.0⟩⟩

/-- After an import a listed node need not be found by the identifier that it shows. -/
theorem not_addressed_of_reachable :
    ¬∀ records, Reachable records → Stored.Registered records ⟨1⟩ →
      ∃ session, (Session.openStory (Identifier.mk 1).spelling true).run records =
          (.ok session, records) ∧
        ∀ node ∈ session.graph.nodesStartFirst, session.graph.node? node.id = some node := by
  intro hclaim
  have hnow : (Instant.mk 0.0).Readable := Instant.readable_of_isFinite (by decide)
  have hreach : Reachable (misnamedImport.run newStory).2 :=
    Run.next reachable_newStory misnamedImport hnow trivial
  obtain ⟨hlisted, hstored⟩ := misnamedImport.graph_import reachable_newStory registered_newStory
    hnow rfl rfl graphOf_misnamedStory
  obtain ⟨session, hopen, hfound⟩ := hclaim _ hreach hlisted
  rw [Stored.graph_of_openStory hreach.kept hlisted hopen, hstored] at hfound
  have hnone : misnamedGraph.kept.node? "elsewhere" = none := rfl
  have hsome := hfound { id := "elsewhere" } (List.mem_singleton.2 rfl)
  exact absurd (hnone.symm.trans hsome) (by simp)

end Narrative
