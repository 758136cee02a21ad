import Narrative.Proofs.Service.Restart
import Narrative.Proofs.Story.Keyed

/-!
# The order of the nodes

The nodes of a story are listed in the order of their creation, but for the one under `start`, which
every story has: it comes before all others.  A graph may name another node as the place where it
starts.  That node is listed like any other, so the first node of the list is the one where the
story starts only if the graph starts at `start`.

The list tells the node under `start` by the identifier that it carries, so nothing is said of a
graph in which that node has another identifier, or another node has that one.
-/

namespace Narrative

variable {records : Records} {id : Identifier}

/-! ## The list of nodes -/

namespace Graph

variable {graph : Graph} {key : String}

/-- The node under the key comes first, and the others come in the order of their creation. -/
def ListedFrom (graph : Graph) (key : String) : Prop :=
  ∃ node, graph.node? key = some node ∧
    graph.nodesStartFirst = node :: (graph.nodes.erase key).values

/-- Of all nodes, just the one under `start` carries that identifier. -/
def NamesStart (graph : Graph) : Prop :=
  ∀ key node, graph.node? key = some node → (node.id = startNodeId ↔ key = startNodeId)

theorem Keyed.namesStart (h : graph.Keyed) : graph.NamesStart := by
  intro key node hnode
  rw [h key node hnode]

/-- Such a graph can be told apart by its keys. -/
theorem NamesStart.filter_values (h : graph.NamesStart) (p : Bool → Bool) :
    graph.nodes.values.filter (fun node => p (node.id = startNodeId)) =
      (graph.nodes.entries.filter fun entry => p (entry.1 = startNodeId)).map Prod.snd := by
  rw [Table.values, List.filter_map]
  refine congrArg _ (List.filter_congr fun entry hentry => ?_)
  rw [Function.comp_apply, decide_eq_decide.2 (h entry.1 entry.2 (mem_entries_iff.1 hentry))]

theorem NamesStart.listedFrom (h : graph.NamesStart) (hstart : graph.hasNode startNodeId) :
    graph.ListedFrom startNodeId := by
  obtain ⟨node, hnode⟩ := Option.isSome_iff_exists.1 hstart
  have hothers : (graph.nodes.entries.filter fun entry => !decide (entry.1 = startNodeId)) =
      (graph.nodes.erase startNodeId).entries :=
    List.filter_congr fun entry _ => (decide_not ..).symm
  refine ⟨node, hnode, ?_⟩
  calc
    graph.nodesStartFirst
    _ = (graph.nodes.entries.filter fun entry => entry.1 = startNodeId).map Prod.snd ++
        (graph.nodes.entries.filter fun entry => !decide (entry.1 = startNodeId)).map Prod.snd :=
      congrArg₂ _ (h.filter_values id) (h.filter_values not)
    _ = node :: (graph.nodes.erase startNodeId).values := by
      rw [Table.filter_key_of_findEntry graph.nodes.nodup_keys hnode, hothers]
      rfl

theorem NamesStart.listedFrom_iff (h : graph.NamesStart) (hstart : graph.hasNode startNodeId) :
    graph.ListedFrom key ↔ key = startNodeId := by
  constructor
  · rintro ⟨node, hnode, hlist⟩
    obtain ⟨start, hfound, hothers⟩ := h.listedFrom hstart
    obtain ⟨rfl, -⟩ := List.cons.inj (hlist.symm.trans hothers)
    exact (h key node hnode).1 ((h startNodeId node hfound).2 rfl)
  · rintro rfl
    exact h.listedFrom hstart

end Graph

/-! ## The listed nodes of a story -/

/-- Every story lists every node once.  If of all nodes just the one under `start` carries that
identifier, it comes first and the others come in the order of their creation; so the node where the
graph starts comes first exactly if the graph starts at `start`. -/
theorem nodes_startFirst (h : Reachable records) (hlisted : Stored.Registered records id) :
    ∃ session, (Session.openStory id.spelling true).run records = (.ok session, records) ∧
      (∀ now, (Query.nodes.perform now id.spelling).run records =
        (.ok (.document (NodeListAnswer.toJson ⟨session.graph.nodesStartFirst⟩)), records)) ∧
      session.graph.nodesStartFirst.Perm session.graph.nodes.values ∧
      (session.graph.NamesStart → session.graph.ListedFrom startNodeId ∧
        (session.graph.ListedFrom session.graph.startNode ↔
          session.graph.startNode = startNodeId)) := by
  have hstart : (Stored.session records id).graph.hasNode startNodeId := by
    rw [Stored.graph_session]
    exact (h.rooted id).hasNode
  exact ⟨_, Session.openStory_of_registered h.kept hlisted, Query.nodes.run_perform h.kept hlisted,
    Graph.perm_nodesStartFirst _, fun hnames =>
      ⟨hnames.listedFrom hstart, hnames.listedFrom_iff hstart⟩⟩

/-- A story that starts at another node than `start`. -/
theorem exists_elsewhere : ∃ records, Reachable records ∧ Stored.Registered records ⟨1⟩ ∧
    Stored.graph records ⟨1⟩ = bareGraph ["elsewhere"] "elsewhere" := by
  obtain ⟨records, hrun, hlisted, hgraph⟩ :=
    @exists_imported (fun _ _ => True) trivial ["elsewhere"] trivial rfl
  exact ⟨records, hrun, hlisted, hgraph.trans rfl⟩

theorem keyed_bareGraph (others : List String) (start : String) :
    (bareGraph others start).Keyed := by
  intro key node hnode
  obtain ⟨other, -, heq⟩ := List.mem_map.1 (Table.mem_of_get?_ofList hnode)
  obtain ⟨rfl, rfl⟩ := Prod.mk.inj heq
  rfl

/-- The node `start` is listed before the one where the story starts. -/
theorem nodes_startFirst_elsewhere : ∃ records, Reachable records ∧
    Stored.Registered records ⟨1⟩ ∧
    ∃ session, (Session.openStory (Identifier.mk 1).spelling true).run records =
        (.ok session, records) ∧
      session.graph.startNode = "elsewhere" ∧ session.graph.ListedFrom startNodeId := by
  obtain ⟨records, hreach, hlisted, hgraph⟩ := exists_elsewhere
  obtain ⟨session, hopen, -, -, hfirst⟩ := nodes_startFirst hreach hlisted
  have hopened := (Stored.graph_of_openStory hreach.kept hlisted hopen).trans hgraph
  have hnames : session.graph.NamesStart := hopened ▸ (keyed_bareGraph _ _).namesStart
  exact ⟨records, hreach, hlisted, session, hopen, hopened ▸ rfl, (hfirst hnames).1⟩

/-- A story need not list the node first at which it starts. -/
theorem not_listedFrom_of_reachable :
    ¬∀ records, Reachable records → Stored.Registered records ⟨1⟩ →
      ∃ session, (Session.openStory (Identifier.mk 1).spelling true).run records =
          (.ok session, records) ∧
        session.graph.ListedFrom session.graph.startNode := by
  intro hclaim
  obtain ⟨records, hreach, hlisted, hgraph⟩ := exists_elsewhere
  obtain ⟨session, hopen, hlist⟩ := hclaim records hreach hlisted
  rw [(Stored.graph_of_openStory hreach.kept hlisted hopen).trans hgraph] at hlist
  have hstart : "elsewhere" = startNodeId :=
    ((keyed_bareGraph _ _).namesStart.listedFrom_iff (by decide)).1 hlist
  exact absurd hstart (by decide)

end Narrative
