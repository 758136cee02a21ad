import Narrative.Proofs.Service.Installed
import Narrative.Proofs.Service.Graphs

/-!
# Starting again

Every story has the node `start`, which can neither be removed nor be left out of an import.  A
graph may start elsewhere, though.  As long as no import names a start that it does not bring, and
no node is removed while the graph starts there, a reader who starts again finds a node.
-/

namespace Narrative

variable {records : Records} {id : Identifier} {now : Instant} {time : ℤ}

/-- A graph that is imported has the node where it starts. -/
def Occasion.BringsStart (records : Records) (occasion : Occasion) : Prop :=
  ∀ id command document graph, occasion.request = .command id command →
    Stored.Registered records id → command.document? occasion.assets = some document →
    graphOf document = some graph → graph.Startable

/-- A node that is removed is not the one where the graph starts. -/
def Occasion.SparesStart (records : Records) (occasion : Occasion) : Prop :=
  ∀ id key graph, occasion.request = .command id (.removeNode key) →
    Stored.Registered records id → (Stored.graph records id).removeNode key = some graph →
    key ≠ (Stored.graph records id).startPosition

/-- Neither an import nor a removal takes away the node where a story starts. -/
structure Occasion.KeepsStart (records : Records) (occasion : Occasion) : Prop where
  brings : occasion.BringsStart records
  spares : occasion.SparesStart records

/-- After careful requests every story has the node where it starts. -/
theorem Run.startable (h : Run Occasion.KeepsStart .empty records) (id : Identifier) :
    (Stored.graph records id).Startable := by
  refine Run.graph Graph.startable_default
    (fun graph hgraph => (Graph.extends_kept graph).startable hgraph) ?_ h id
  intro records occasion id command after hallowed hrequest hlisted hstart hredraws
  cases hredraws with
  | extend hextends => exact hextends.startable hstart
  | remove hremoved =>
    exact hstart.removeNode (hallowed.spares id _ _ hrequest hlisted hremoved) hremoved
  | replace hdocument hgraph =>
    exact hallowed.brings id command _ _ hrequest hlisted hdocument hgraph

/-- An imported document has an entry for the node that every story has. -/
def IncludesStart (data : Json) : Prop :=
  ∃ fields nodes, data = .obj fields ∧ Json.Fields.get? fields "nodes" = some (.obj nodes) ∧
    .text startNodeId ∈ nodes.map Prod.fst

namespace Session

theorem run_importStory_of_not_includesStart (session : Session) {data : Json}
    (h : ¬IncludesStart data) (records : Records) :
    (session.importStory data).run records = (.ok (false, session), records) := by
  have himported : imported data = none := by
    apply imported_of_no_start
    intro fields nodes hdata hnodes hmem
    exact h ⟨fields, nodes, hdata, hnodes, hmem⟩
  rw [importStory, himported]
  rfl

theorem run_removeNode_start (session : Session) (records : Records) :
    (session.editGraph fun graph => graph.removeNode startNodeId).run records =
      ((false, session), records) := by
  rw [editGraph, Graph.removeNode, if_pos rfl]
  rfl

end Session

/-! ## Restarting -/

/-- A reader who starts a story again is at its start. -/
theorem run_dispatch_restart (h : Kept records) (hfree : ¬Held records id)
    (hlisted : Stored.Registered records id) (hnow : now.millis = .ok time)
    (payload : Json.Fields) :
    ∃ later, (PlayAction.dispatch now id.spelling PlayAction.restart.name payload).run records =
      (.ok { view := (Stored.session records id).restart.view, saved := none }, later) := by
  rw [Command.run_dispatch h hfree hlisted hnow (PlayAction.ofName?_name .restart)]
  exact ⟨_, rfl⟩

theorem Session.status_restart {session : Session} (h : session.Sound)
    (hstart : session.graph.Startable) : session.restart.view.status ≠ .stranded := by
  obtain ⟨node, hnode⟩ := Option.isSome_iff_exists.1 hstart
  have hstatus : session.restart.view.status =
      Status.at? (session.playedGraph.node? session.playedGraph.startPosition) := rfl
  rw [hstatus, h.playedGraph, Graph.node?, hnode, Status.at?]
  split <;> simp

/-- Every story opens with the node `start` and a name for its start; no import leaves that node
out, and it cannot be removed.  After careful requests the node where the story starts is there, so
starting again never leaves the reader stranded. -/
theorem start_of_run (h : Reachable records) (hlisted : Stored.Registered records id) :
    ∃ session, (Session.openStory id.spelling true).run records = (.ok session, records) ∧
      session.graph.hasNode startNodeId ∧ session.graph.startNode ≠ "" ∧
      (∀ data, ¬IncludesStart data →
        (session.importStory data).run records = (.ok (false, session), records)) ∧
      (session.editGraph fun graph => graph.removeNode startNodeId).run records =
        ((false, session), records) ∧
      (Run Occasion.KeepsStart .empty records →
        session.graph.hasNode session.graph.startPosition ∧
        ∀ now payload, now.Readable → ∃ outcome later,
          (PlayAction.dispatch now id.spelling PlayAction.restart.name payload).run records =
            (.ok outcome, later) ∧ outcome.view.status ≠ .stranded) := by
  have hgraph := Stored.graph_session records id
  have hrooted : (Stored.session records id).graph.Rooted := hgraph ▸ h.rooted id
  refine ⟨Stored.session records id, Session.openStory_of_registered h.kept hlisted,
    hrooted.hasNode, hrooted.startNode, fun data hdata =>
      Session.run_importStory_of_not_includesStart _ hdata records,
    Session.run_removeNode_start _ records, fun hrun => ?_⟩
  have hstart : (Stored.session records id).graph.Startable := hgraph ▸ hrun.startable id
  refine ⟨hstart, fun now payload hnow => ?_⟩
  obtain ⟨time, htime⟩ := hnow
  obtain ⟨later, hlater⟩ := run_dispatch_restart h.kept (h.not_held id) hlisted htime payload
  exact ⟨_, later, hlater, Session.status_restart (Stored.sound_session h.kept id) hstart⟩

theorem bringsStart_command {assets : Option Assets} {command : Command}
    (h : ∀ document graph, command.document? assets = some document →
      graphOf document = some graph → graph.Startable) (fresh : Identifier) (now : Instant) :
    Occasion.BringsStart records ⟨.command id command, assets, fresh, now⟩ := by
  intro other wanted document graph hrequest _
  cases hrequest
  exact h document graph

theorem sparesStart_command {assets : Option Assets} {command : Command}
    (h : ∀ key, command = .removeNode key → key ≠ (Stored.graph records id).startPosition)
    (fresh : Identifier) (now : Instant) :
    Occasion.SparesStart records ⟨.command id command, assets, fresh, now⟩ := by
  intro other key graph hrequest _ _
  cases hrequest
  exact h key rfl

theorem keepsStart_createStory : Occasion.KeepsStart .empty ⟨.createStory, none, ⟨1⟩, ⟨0.0⟩⟩ where
  brings := fun _ _ _ _ h => nomatch h
  spares := fun _ _ _ h => nomatch h

/-- A document with bare nodes that starts where it says. -/
def bareStory (others : List String) (start : String) : Json.Fields :=
  [("nodes", .obj ((startNodeId :: others).map fun key => (key, .obj []))),
    ("startNode", .str start)]

/-- The graph of such a document. -/
def bareGraph (others : List String) (start : String) : Graph where
  nodes := Table.ofList ((startNodeId :: others).map fun key => (key, { id := key }))
  startNode := start

theorem keepsStart_document {command : Command} {assets : Option Assets} {document : Json.Fields}
    {graph : Graph} (hdocument : command.document? assets = some document)
    (hgraph : graphOf document = some graph) (hstart : graph.Startable) (records : Records) :
    Occasion.KeepsStart records ⟨.command ⟨1⟩ command, assets, ⟨1⟩, ⟨0.0⟩⟩ where
  brings := by
    refine bringsStart_command (fun other result hother hresult => ?_) ⟨1⟩ ⟨0.0⟩
    cases hdocument.symm.trans hother
    cases hgraph.symm.trans hresult
    exact hstart
  spares := by
    refine sparesStart_command (fun key hremove => ?_) ⟨1⟩ ⟨0.0⟩
    rw [hremove] at hdocument
    cases hdocument

theorem keepsStart_removal {key : String} (h : key ≠ (Stored.graph records ⟨1⟩).startPosition) :
    Occasion.KeepsStart records ⟨.command ⟨1⟩ (.removeNode key), none, ⟨1⟩, ⟨0.0⟩⟩ where
  brings := bringsStart_command (by simp [Command.document?]) ⟨1⟩ ⟨0.0⟩
  spares := by
    refine sparesStart_command (fun other hother => ?_) ⟨1⟩ ⟨0.0⟩
    cases hother
    exact h

/-- The demo story is loaded and a node of it removed; then a story is imported that starts
elsewhere, and a node of that is removed. -/
theorem exists_startable : ∃ records, Run Occasion.KeepsStart .empty records ∧
    Stored.Registered records ⟨1⟩ ∧
    Stored.graph records ⟨1⟩ = (bareGraph ["elsewhere"] "elsewhere").kept := by
  have hnow : (Instant.mk 0.0).Readable := Instant.readable_of_isFinite (by decide)
  obtain ⟨demo, hdemo, hstart, hposition, -⟩ := exists_demo
  have hload : Command.loadDemo.document? (some ⟨Demo.story⟩) = some Demo.story := rfl
  obtain ⟨records, hrun, hlisted, hgraph⟩ := (Run.newStory keepsStart_createStory).next_document
    registered_newStory hnow (keepsStart_document hload hdemo hstart _) hload hdemo
  obtain ⟨smaller, hsmaller⟩ : ∃ smaller,
      (Stored.graph records ⟨1⟩).removeNode "find_water" = some smaller := ⟨_, rfl⟩
  have hspares : "find_water" ≠ (Stored.graph records ⟨1⟩).startPosition := by
    rw [hgraph, hposition]
    decide
  obtain ⟨records, hrun, hlisted, -⟩ :=
    hrun.next_removal hlisted hnow (keepsStart_removal hspares) hsmaller
  have hbare : graphOf (bareStory ["elsewhere", "cave"] "elsewhere") =
      some (bareGraph ["elsewhere", "cave"] "elsewhere") := rfl
  have himport :
      (Command.importStory (bareStory ["elsewhere", "cave"] "elsewhere")).document? none =
        some (bareStory ["elsewhere", "cave"] "elsewhere") := rfl
  have helsewhere : (bareGraph ["elsewhere", "cave"] "elsewhere").Startable := by
    unfold Graph.Startable
    decide
  obtain ⟨records, hrun, hlisted, hgraph⟩ := hrun.next_document hlisted hnow
    (keepsStart_document himport hbare helsewhere _) himport hbare
  have hremoved : (Stored.graph records ⟨1⟩).removeNode "cave" =
      some (bareGraph ["elsewhere"] "elsewhere") := by
    rw [hgraph]
    rfl
  have hspares : "cave" ≠ (Stored.graph records ⟨1⟩).startPosition := by
    rw [hgraph]
    decide
  exact hrun.next_removal hlisted hnow (keepsStart_removal hspares) hremoved

/-- That story can be started again, elsewhere. -/
theorem start_of_run_elsewhere : ∃ records session, Run Occasion.KeepsStart .empty records ∧
    Stored.Registered records ⟨1⟩ ∧
    (Session.openStory (Identifier.mk 1).spelling true).run records = (.ok session, records) ∧
    session.graph.startPosition = "elsewhere" ∧ session.graph.hasNode "elsewhere" ∧
    ∃ outcome later, (PlayAction.dispatch ⟨0.0⟩ (Identifier.mk 1).spelling PlayAction.restart.name
      []).run records = (.ok outcome, later) ∧ outcome.view.status ≠ .stranded := by
  have hnow : (Instant.mk 0.0).Readable := Instant.readable_of_isFinite (by decide)
  obtain ⟨records, hrun, hlisted, hgraph⟩ := exists_startable
  have hreach : Reachable records := hrun.reachable Run.start
  obtain ⟨session, hopen, -, -, -, -, hagain⟩ := start_of_run hreach hlisted
  obtain ⟨hnode, hrestart⟩ := hagain hrun
  have hposition : session.graph.startPosition = "elsewhere" := by
    rw [Stored.graph_of_openStory hreach.kept hlisted hopen, hgraph]
    rfl
  exact ⟨records, session, hrun, hlisted, hopen, hposition, hposition ▸ hnode,
    hrestart ⟨0.0⟩ [] hnow⟩

/-! ## Stories that cannot be started -/

/-- A bare story is imported into a new one. -/
theorem exists_imported {allowed : Records → Occasion → Prop}
    (hcreate : allowed .empty ⟨.createStory, none, ⟨1⟩, ⟨0.0⟩⟩) {others : List String}
    (himport : allowed newStory
      ⟨.command ⟨1⟩ (.importStory (bareStory others "elsewhere")), none, ⟨1⟩, ⟨0.0⟩⟩)
    (hgraph : graphOf (bareStory others "elsewhere") = some (bareGraph others "elsewhere")) :
    ∃ records, Run allowed .empty records ∧ Stored.Registered records ⟨1⟩ ∧
      Stored.graph records ⟨1⟩ = (bareGraph others "elsewhere").kept := by
  have hnow : (Instant.mk 0.0).Readable := Instant.readable_of_isFinite (by decide)
  exact (Run.newStory hcreate).next_document registered_newStory hnow himport rfl hgraph

/-- A story that starts at a node it does not bring. -/
theorem exists_stray : ∃ records, Run Occasion.SparesStart .empty records ∧
    Stored.Registered records ⟨1⟩ ∧ ¬(Stored.graph records ⟨1⟩).Startable := by
  have himport := @sparesStart_command newStory ⟨1⟩ none (.importStory (bareStory [] "elsewhere"))
    (by simp) ⟨1⟩ ⟨0.0⟩
  obtain ⟨records, hrun, hlisted, hgraph⟩ :=
    exists_imported keepsStart_createStory.spares himport rfl
  refine ⟨records, hrun, hlisted, ?_⟩
  rw [hgraph, Graph.Startable]
  decide

/-- A story whose start has been removed. -/
theorem exists_removed_start : ∃ records, Run Occasion.BringsStart .empty records ∧
    Stored.Registered records ⟨1⟩ ∧ ¬(Stored.graph records ⟨1⟩).Startable := by
  have hnow : (Instant.mk 0.0).Readable := Instant.readable_of_isFinite (by decide)
  have hbare : graphOf (bareStory ["elsewhere"] "elsewhere") =
      some (bareGraph ["elsewhere"] "elsewhere") := rfl
  have himport : Occasion.BringsStart newStory
      ⟨.command ⟨1⟩ (.importStory (bareStory ["elsewhere"] "elsewhere")), none, ⟨1⟩, ⟨0.0⟩⟩ := by
    refine bringsStart_command (fun document graph hdocument hgraph => ?_) ⟨1⟩ ⟨0.0⟩
    cases hdocument
    cases hbare.symm.trans hgraph
    unfold Graph.Startable
    decide
  obtain ⟨records, hrun, hlisted, hgraph⟩ :=
    exists_imported keepsStart_createStory.brings himport hbare
  -- Only the node named start is spared, and this graph starts at another one.
  have hremove : Occasion.BringsStart records
      ⟨.command ⟨1⟩ (.removeNode "elsewhere"), none, ⟨1⟩, ⟨0.0⟩⟩ :=
    bringsStart_command (by simp [Command.document?]) ⟨1⟩ ⟨0.0⟩
  have hremoved : (Stored.graph records ⟨1⟩).removeNode "elsewhere" =
      some (bareGraph [] "elsewhere") := by
    rw [hgraph]
    rfl
  obtain ⟨after, hrun, hlisted, hgraph⟩ := hrun.next_removal hlisted hnow hremove hremoved
  refine ⟨after, hrun, hlisted, ?_⟩
  rw [hgraph, Graph.Startable]
  decide

/-- A story whose graph cannot be started opens with it. -/
theorem Reachable.not_startable (h : Reachable records) (hlisted : Stored.Registered records id)
    (hgraph : ¬(Stored.graph records id).Startable) :
    ¬∃ session, (Session.openStory id.spelling true).run records = (.ok session, records) ∧
      session.graph.hasNode session.graph.startPosition := by
  rintro ⟨session, hopen, hstart⟩
  rw [Stored.graph_of_openStory h.kept hlisted hopen] at hstart
  exact hgraph hstart

/-- Not every story can be started: one can be imported that starts at a node it does not bring, and
a node can be removed where the graph starts.  Care with removals alone or with imports alone is not
enough. -/
theorem not_startable_of_half_careful :
    (¬∀ records, Run Occasion.SparesStart .empty records → Stored.Registered records ⟨1⟩ →
      ∃ session, (Session.openStory (Identifier.mk 1).spelling true).run records =
        (.ok session, records) ∧ session.graph.hasNode session.graph.startPosition) ∧
    ¬∀ records, Run Occasion.BringsStart .empty records → Stored.Registered records ⟨1⟩ →
      ∃ session, (Session.openStory (Identifier.mk 1).spelling true).run records =
        (.ok session, records) ∧ session.graph.hasNode session.graph.startPosition := by
  constructor
  · intro hclaim
    obtain ⟨records, hrun, hlisted, hgraph⟩ := exists_stray
    exact (hrun.reachable Run.start).not_startable hlisted hgraph (hclaim records hrun hlisted)
  · intro hclaim
    obtain ⟨records, hrun, hlisted, hgraph⟩ := exists_removed_start
    exact (hrun.reachable Run.start).not_startable hlisted hgraph (hclaim records hrun hlisted)

end Narrative
