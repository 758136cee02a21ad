import Narrative.Proofs.Session.Imports
import Narrative.Proofs.Story.Frames

/-!
# Rooted graphs

A graph is rooted if it has the node that every story has and names its start and its version.
Edits, storing and imports lead to rooted graphs only.  Where a rooted graph starts is another
matter: edits and storing keep that node, but it may be removed, and an import need not bring it.
-/

namespace Narrative

namespace Graph

variable {graph result : Graph}

/-- The graph has the node that every story has, and it names its start and its version. -/
structure Rooted (graph : Graph) : Prop where
  hasNode : graph.hasNode startNodeId
  startNode : graph.startNode ≠ ""
  version : graph.version ≠ ""

/-- Playback finds the node where it starts. -/
def Startable (graph : Graph) : Prop := graph.hasNode graph.startPosition

theorem rooted_default : Graph.default.Rooted := ⟨by decide, by decide, by decide⟩

theorem startable_default : Graph.default.Startable := by
  change Graph.default.hasNode startNodeId = true
  decide

/-- The result has all nodes of the graph, perhaps with other contents, and starts where the graph
does.  A node has its key for an identifier or the identifier that it had in the graph. -/
structure Extends (graph result : Graph) : Prop where
  hasNode : ∀ key, graph.hasNode key → result.hasNode key
  startNode : result.startNode = graph.startNode
  version : result.version = graph.version
  id : ∀ key node, result.node? key = some node →
    node.id = key ∨ ∃ old, graph.node? key = some old ∧ node.id = old.id

theorem Extends.refl (graph : Graph) : graph.Extends graph where
  hasNode _ h := h
  startNode := rfl
  version := rfl
  id _ node hnode := Or.inr ⟨node, hnode, rfl⟩

theorem Extends.rooted (h : graph.Extends result) (hrooted : graph.Rooted) : result.Rooted where
  hasNode := h.hasNode _ hrooted.hasNode
  startNode := h.startNode.trans_ne hrooted.startNode
  version := h.version.trans_ne hrooted.version

theorem Extends.startable (h : graph.Extends result) (hstart : graph.Startable) :
    result.Startable := by
  unfold Startable Graph.startPosition at *
  rw [h.startNode]
  exact h.hasNode _ hstart

theorem hasNode_insert (graph : Graph) (key other : String) (node : Node) :
    ({ graph with nodes := graph.nodes.insert key node } : Graph).hasNode other ↔
      graph.hasNode other ∨ other = key :=
  Table.contains_iff_mem_keys.trans
    (Table.mem_keys_insert.trans (or_congr_left Table.contains_iff_mem_keys.symm))

/-- A graph is extended by writing a node that has its key or the identifier of the old node. -/
theorem extends_insert {key : String} {node : Node}
    (hid : node.id = key ∨ ∃ old, graph.node? key = some old ∧ node.id = old.id) :
    graph.Extends { graph with nodes := graph.nodes.insert key node } where
  hasNode other h := (hasNode_insert graph key other node).2 (Or.inl h)
  startNode := rfl
  version := rfl
  id other found hfound := by
    rw [node?, Table.get?_insert] at hfound
    split at hfound
    case isTrue hkey =>
      rw [← hkey, ← Option.some.inj hfound]
      exact hid
    case isFalse => exact Or.inr ⟨found, hfound, rfl⟩

theorem extends_addNode (graph : Graph) (key : String) : graph.Extends (graph.addNode key) :=
  extends_insert (Or.inl rfl)

/-- A change that keeps the identifier of a node extends the graph. -/
theorem extends_of_rewritten {key : String} {change : Node → Node → Prop}
    (hid : ∀ old new, change old new → new.id = old.id)
    (h : graph.NodesChanged (Rewritten key change) result) : graph.Extends result := by
  obtain ⟨hnodes⟩ := h
  obtain ⟨old, new, hold, hchange, rfl⟩ := rewritten_iff_exists_insert.1 hnodes
  exact extends_insert (Or.inr ⟨old, hold, hid old new hchange⟩)

theorem extends_of_choicesChanged {key : String} {change : List Choice → List Choice → Prop}
    (h : graph.ChoicesChanged key change result) : graph.Extends result := by
  refine extends_of_rewritten (fun old new hchange => ?_) h
  cases hchange
  rfl

/-- An edit that keeps the identifier of a node extends the graph. -/
theorem extends_editNode {key : String} {edit : Node → Option Node}
    (hid : ∀ node edited, edit node = some edited → edited.id = node.id)
    (h : graph.editNode key edit = some result) : graph.Extends result :=
  extends_of_rewritten hid (editNode_iff_nodesChanged.1 h)

theorem extends_patchNode {key : String} {patch : NodePatch}
    (h : graph.patchNode key patch = some result) : graph.Extends result := by
  refine extends_editNode (fun node edited hedited => ?_) h
  rw [← Option.some.inj hedited]
  rfl

theorem extends_editChoices {key : String} {edit : List Choice → Option (List Choice)}
    (h : graph.editChoices key edit = some result) : graph.Extends result :=
  extends_of_choicesChanged (editChoices_iff_choicesChanged.1 h)

theorem extends_editChoice {key : String} {choice : Int} {edit : Choice → Option Choice}
    (h : graph.editChoice key choice edit = some result) : graph.Extends result :=
  extends_editChoices h

theorem extends_editOperations {key : String} {choice : Int}
    {edit : List VariableOperation → Option (List VariableOperation)}
    (h : graph.editOperations key choice edit = some result) : graph.Extends result :=
  extends_editChoice h

theorem hasNode_of_removeNode {key other : String} (h : graph.removeNode key = some result)
    (hne : key ≠ other) : result.hasNode other = graph.hasNode other := by
  rw [(removeNode_eq_some.1 h).2, hasNode, hasNode, Table.contains, Table.get?_erase, if_neg hne]
  rfl

theorem Rooted.removeNode (h : graph.Rooted) {key : String}
    (hresult : graph.removeNode key = some result) : result.Rooted := by
  obtain ⟨hkey, heq⟩ := removeNode_eq_some.1 hresult
  refine ⟨?_, heq ▸ h.startNode, heq ▸ h.version⟩
  rw [hasNode_of_removeNode hresult hkey]
  exact h.hasNode

/-- A graph can still be started after the removal of a node where it does not start. -/
theorem Startable.removeNode (h : graph.Startable) {key : String} (hkey : key ≠ graph.startPosition)
    (hresult : graph.removeNode key = some result) : result.Startable := by
  have hposition : result.startPosition = graph.startPosition := by
    rw [(removeNode_eq_some.1 hresult).2]
    rfl
  rw [Startable, hposition, hasNode_of_removeNode hresult hkey]
  exact h

theorem keys_kept (graph : Graph) : graph.kept.nodes.keys = graph.nodes.keys := by
  rw [Table.keys, kept, List.map_map]
  rfl

theorem node?_kept (graph : Graph) (key : String) :
    graph.kept.node? key = (graph.node? key).map (Node.kept key) :=
  Table.findEntry_map Node.kept key graph.nodes.entries

/-- Storing a graph keeps all its nodes. -/
theorem extends_kept (graph : Graph) : graph.Extends graph.kept where
  hasNode key h := by
    rw [hasNode, Table.contains_iff_mem_keys] at h ⊢
    rwa [keys_kept]
  startNode := rfl
  version := rfl
  id key node hnode := by
    rw [node?_kept] at hnode
    obtain ⟨old, hold, rfl⟩ := Option.map_eq_some_iff.1 hnode
    by_cases hblank : old.id.isEmpty
    · exact Or.inl (if_pos hblank)
    · exact Or.inr ⟨old, hold, if_neg hblank⟩

end Graph

/-! ## Imported graphs -/

namespace Schema

theorem mem_of_entries {α : Type} {reader : Reader α} {fields : Json.Fields}
    {result : List (String × α)} (h : (entries string reader fields).value? = some result)
    {key : String} {value : α} (hmem : (key, value) ∈ result) :
    ∃ name item, (name, item) ∈ fields ∧ name.mended = key ∧
      (reader item).value? = some value := by
  induction fields generalizing result with
  | nil => cases h; exact absurd hmem List.not_mem_nil
  | cons field rest ih =>
    obtain ⟨_, more, hfirst, hrest, rfl⟩ := Checked.value?_combine_eq_some.1 h
    obtain ⟨_, hentry, rfl⟩ := Checked.value?_map_eq_some.1 hfirst
    obtain ⟨_, found, hkey, hitem, rfl⟩ := Checked.value?_combine_eq_some.1 hentry
    obtain ⟨_, hname, rfl⟩ := Checked.value?_map_eq_some.1 hkey
    cases hname
    rcases List.mem_cons.1 hmem with heq | hmem
    · obtain ⟨rfl, rfl⟩ := Prod.mk.inj heq
      exact ⟨field.1, field.2, List.mem_cons_self .., rfl, by simpa using hitem⟩
    · obtain ⟨name, item, hmore, hvalue⟩ := ih hrest hmem
      exact ⟨name, item, List.mem_cons_of_mem _ hmore, hvalue⟩

/-- Every value of a table was read from the object of which the table was read. -/
theorem mem_of_table {α : Type} {reader : Reader α} {value : Json} {result : Table String α}
    (h : (table string reader value).value? = some result) :
    ∃ fields, value = .obj fields ∧ ∀ key found, result.get? key = some found →
      ∃ name item, (name, item) ∈ fields ∧ name.mended = key ∧
        (reader item).value? = some found := by
  cases value with
  | obj fields =>
    obtain ⟨found, hfound, rfl⟩ := Checked.value?_map_eq_some.1 h
    exact ⟨fields, rfl, fun key value hvalue =>
      mem_of_entries hfound (Table.mem_of_get?_ofList hvalue)⟩
  | _ => exact absurd h (by simp [table, Checked.fail])

/-- A string that is not left blank is read as one that is not. -/
theorem ne_empty_of_string {value : Json} {text : String} (hvacant : value.isVacant = false)
    (h : (string value).value? = some text) : text ≠ "" := by
  cases value with
  | str =>
    cases h
    simpa [Json.isVacant] using hvacant
  | torn points htorn =>
    cases h
    exact Label.mended_torn_ne_empty htorn
  | _ => exact absurd h (by simp [string, Checked.fail])

end Schema

namespace Graph

/-- The fields of a document from which a graph is read. -/
theorem of_reader {nodes startNode version : Json} {graph : Graph}
    (h : (reader .document (.obj [("nodes", nodes), ("startNode", startNode),
      ("version", version)])).value? = some graph) :
    (∃ fields, nodes = .obj fields ∧ ∀ key node, graph.node? key = some node →
      ∃ name item, (name, item) ∈ fields ∧ name.mended = key ∧
        (Node.reader .document (fillId name item)).value? = some node) ∧
      (Schema.string startNode).value? = some graph.startNode ∧
      (Schema.string version).value? = some graph.version := by
  -- The nodes are given identifiers before they are read; their keys stay.
  have hfilled : ∃ filled,
      fillIds [("nodes", nodes), ("startNode", startNode), ("version", version)] =
        ([("nodes", filled), ("startNode", startNode), ("version", version)] : Json.Fields) ∧
      ∀ entries, filled = .obj entries → ∃ fields, nodes = .obj fields ∧
        entries = fields.map fun entry => (entry.1, fillId entry.1 entry.2) := by
    cases nodes with
    | obj fields => exact ⟨_, rfl, fun _ hentries => ⟨fields, rfl, (Json.obj.inj hentries).symm⟩⟩
    | _ => exact ⟨_, rfl, fun _ hentries => absurd hentries (by simp)⟩
  obtain ⟨filled, hfill, hnodes⟩ := hfilled
  unfold reader Schema.record ofFields at h
  simp only [hfill] at h
  obtain ⟨_, found, hrest, hversion, rfl⟩ := Schema.Checked.value?_combine_eq_some.1 h
  obtain ⟨_, start, hfirst, hstart, rfl⟩ := Schema.Checked.value?_combine_eq_some.1 hrest
  obtain ⟨table, htable, rfl⟩ := Schema.Checked.value?_map_eq_some.1 hfirst
  refine ⟨?_, (Schema.Checked.value?_under ..).symm.trans hstart,
    (Schema.Checked.value?_under ..).symm.trans hversion⟩
  obtain ⟨entries, hentries, hread⟩ :=
    Schema.mem_of_table ((Schema.Checked.value?_under ..).symm.trans htable)
  obtain ⟨fields, rfl, rfl⟩ := hnodes entries hentries
  refine ⟨fields, rfl, fun key node hnode => ?_⟩
  obtain ⟨_, _, hmem, hname, hvalue⟩ := hread key node hnode
  obtain ⟨⟨name, item⟩, hitem, heq⟩ := List.mem_map.1 hmem
  obtain ⟨rfl, rfl⟩ := Prod.mk.inj heq
  exact ⟨name, item, hitem, hname, hvalue⟩

end Graph

namespace Session

/-- A default that is no text left blank never gives way to one that is. -/
theorem ne_of_importField {fields : Json.Fields} {name default found : String}
    (hdefault : default ≠ "")
    (h : (Schema.string (importField fields name default)).value? = some found) : found ≠ "" := by
  unfold importField at h
  split at h
  case h_2 => cases h; exact hdefault
  case h_1 value hvalue =>
    split at h
    case isTrue => cases h; exact hdefault
    case isFalse hvacant => exact Schema.ne_empty_of_string (by simpa using hvacant) h

/-- An imported graph that can be stored is what its document says. -/
theorem reader_of_imported {data : Json} {draft : Schema.Draft Graph}
    {definitions : Option (Schema.Draft Definitions)} {graph : Graph}
    (h : imported data = some (draft, definitions)) (hgraph : draft.storable = .ok graph) :
    ∃ fields nodes, data = .obj fields ∧ Json.Fields.get? fields "nodes" = some nodes ∧
      Graph.reader .document (importedGraph fields nodes) = .valid graph ∧
      graph.hasNode startNodeId := by
  obtain ⟨hnodes, -, hread, -, hstart⟩ := imported_eq_some.1 h
  have hvalid := (Schema.Draft.of_read hread).2 graph hgraph
  have hvalue : draft.value = graph := by
    unfold Schema.Draft.storable at hgraph
    split at hgraph
    · exact Except.ok.inj hgraph
    · exact absurd hgraph (by simp)
  exact ⟨_, _, rfl, hnodes, hvalid, hvalue ▸ hstart⟩

theorem rooted_of_reader {fields : Json.Fields} {nodes : Json} {graph : Graph}
    (h : (Graph.reader .document (importedGraph fields nodes)).value? = some graph)
    (hstart : graph.hasNode startNodeId) : graph.Rooted := by
  obtain ⟨-, hstartNode, hversion⟩ := Graph.of_reader h
  exact ⟨hstart, ne_of_importField (by decide) hstartNode, ne_of_importField (by decide) hversion⟩

/-- A document that does not bring the node that every story has is not imported. -/
theorem imported_of_no_start {data : Json}
    (h : ∀ fields nodes, data = .obj fields → Json.Fields.get? fields "nodes" = some (.obj nodes) →
      .text startNodeId ∉ nodes.map Prod.fst) : imported data = none := by
  cases hfound : imported data with
  | none => rfl
  | some found =>
    obtain ⟨draft, definitions⟩ := found
    obtain @⟨fields, nodes, hnodes, -, hread, -, hstart⟩ := imported_eq_some.1 hfound
    obtain ⟨start, hnode⟩ := Option.isSome_iff_exists.1 hstart
    obtain ⟨⟨entries, rfl, hentries⟩, -⟩ := Graph.of_reader (Schema.Draft.of_read hread).1
    obtain ⟨name, item, hmem, hname, -⟩ := hentries _ _ hnode
    obtain rfl := Label.eq_text_of_mended hname (by decide)
    exact absurd (List.mem_map_of_mem hmem) (h fields entries rfl hnodes)

end Session

end Narrative
