import Narrative.Assets.Demo
import Narrative.Proofs.Story.Rooted

/-!
# Keyed graphs

A graph is keyed if every node has its key for an identifier.  Exactly then the nodes of its list
have distinct identifiers under which they are found.  Edits and storing keep a graph keyed.  An
imported one is keyed if its document names the nodes by their keys or leaves their names open; a
name of its own is taken as it is.
-/

namespace Narrative

namespace Graph

variable {graph result : Graph}

/-- Every node has its key for an identifier. -/
def Keyed (graph : Graph) : Prop := ∀ key node, graph.node? key = some node → node.id = key

/-- Every listed node is found by its identifier, which no other listed node has. -/
structure Addressed (graph : Graph) : Prop where
  found : ∀ node ∈ graph.nodesStartFirst, graph.node? node.id = some node
  nodup : (graph.nodesStartFirst.map Node.id).Nodup

theorem mem_entries_iff {key : String} {node : Node} :
    (key, node) ∈ graph.nodes.entries ↔ graph.node? key = some node :=
  ⟨Table.findEntry_of_mem graph.nodes.nodup_keys, Table.mem_of_findEntry⟩

/-- Moving the start to the front only reorders the nodes. -/
theorem perm_nodesStartFirst (graph : Graph) : graph.nodesStartFirst.Perm graph.nodes.values :=
  List.filter_append_perm _ _

theorem mem_nodesStartFirst {node : Node} :
    node ∈ graph.nodesStartFirst ↔ ∃ key, graph.node? key = some node := by
  rw [graph.perm_nodesStartFirst.mem_iff, Table.values, List.mem_map]
  constructor
  · rintro ⟨⟨key, _⟩, hmem, rfl⟩
    exact ⟨key, mem_entries_iff.1 hmem⟩
  · rintro ⟨key, hnode⟩
    exact ⟨(key, node), mem_entries_iff.2 hnode, rfl⟩

/-- The identifiers of the listed nodes are those in the table, in some order. -/
theorem perm_ids (graph : Graph) :
    (graph.nodesStartFirst.map Node.id).Perm (graph.nodes.entries.map fun entry => entry.2.id) := by
  have hperm := graph.perm_nodesStartFirst.map Node.id
  rwa [Table.values, List.map_map] at hperm

theorem Keyed.addressed (h : graph.Keyed) : graph.Addressed where
  found node hnode := by
    obtain ⟨key, hkey⟩ := mem_nodesStartFirst.1 hnode
    rwa [h key node hkey]
  nodup := by
    have hids : (graph.nodes.entries.map fun entry => entry.2.id) = graph.nodes.keys :=
      List.map_congr_left fun entry hentry => h entry.1 entry.2 (mem_entries_iff.1 hentry)
    rw [graph.perm_ids.nodup_iff, hids]
    exact graph.nodes.nodup_keys

/-- A graph is keyed exactly if its listed nodes are found by their identifiers, no two of which are
the same. -/
theorem keyed_iff_addressed : graph.Keyed ↔ graph.Addressed := by
  refine ⟨Keyed.addressed, fun h key node hnode => ?_⟩
  -- The node is in the table under its key and under its identifier.
  have hkey := mem_entries_iff.2 hnode
  have hid := mem_entries_iff.2 (h.found node (mem_nodesStartFirst.2 ⟨key, hnode⟩))
  have hnodup := graph.perm_ids.nodup_iff.1 h.nodup
  exact (Prod.mk.inj (List.inj_on_of_nodup_map hnodup hid hkey rfl)).1

theorem keyed_default : Graph.default.Keyed := by
  intro key node h
  have hfound := Table.mem_of_findEntry h
  obtain ⟨rfl, rfl⟩ := Prod.mk.inj (List.mem_singleton.1 hfound)
  rfl

theorem Extends.keyed (h : graph.Extends result) (hkeyed : graph.Keyed) : result.Keyed := by
  intro key node hnode
  rcases h.id key node hnode with hid | ⟨old, hold, hid⟩
  · exact hid
  · exact hid.trans (hkeyed key old hold)

theorem Keyed.kept (h : graph.Keyed) : graph.kept.Keyed := (extends_kept graph).keyed h

theorem Keyed.removeNode (h : graph.Keyed) {key : String}
    (hresult : graph.removeNode key = some result) : result.Keyed := by
  rw [(removeNode_eq_some.1 hresult).2]
  intro other node hnode
  rw [node?, Table.get?_erase] at hnode
  split at hnode
  · exact absurd hnode (by simp)
  · exact h other node hnode

/-- A graph without blank identifiers is keyed if what is stored of it is. -/
theorem keyed_of_kept (h : graph.kept.Keyed)
    (hnamed : ∀ key node, graph.node? key = some node → node.id.isEmpty → node.id = key) :
    graph.Keyed := by
  intro key node hnode
  by_cases hblank : node.id.isEmpty
  · exact hnamed key node hnode hblank
  · have hkept := h key (node.kept key) (by rw [node?_kept, hnode, Option.map_some])
    rwa [Node.kept, if_neg hblank] at hkept

end Graph

/-! ## Documents -/

/-- The entry of a document names a node by its key, or leaves its name open. -/
def NamesByKey (key : Label) (item : Json) : Prop :=
  ∀ fields name, item = .obj fields → Json.Fields.get? fields "id" = some name →
    name.isVacant ∨ name = .ofLabel key

theorem Schema.of_required {α : Type} {fields : Json.Fields} {name : String} {reader : Reader α}
    {value : Json} {result : α} (hvalue : fields.get? name = some value)
    (h : (required fields name reader).value? = some result) :
    (reader value).value? = some result := by
  unfold required lookup at h
  rw [hvalue] at h
  exact (Checked.value?_under ..).symm.trans h

theorem Schema.value?_string_ofLabel (name : Label) :
    (string (.ofLabel name)).value? = some name.mended := by
  cases name <;> rfl

/-- A node has its key for an identifier, or its entry gives it another one, which is not blank. -/
theorem Node.id_of_reader {key : Label} {item : Json} {node : Node}
    (h : (reader .document (Graph.fillId key item)).value? = some node) :
    node.id = key.mended ∨ ∃ fields name, item = .obj fields ∧
      Json.Fields.get? fields "id" = some name ∧ name.isVacant = false ∧
      (Schema.string name).value? = some node.id := by
  have hread {fields : Json.Fields} {name : Json} (hname : Json.Fields.get? fields "id" = some name)
      (h : (reader .document (.obj fields)).value? = some node) :
      (Schema.string name).value? = some node.id := by
    obtain ⟨_, choices, htexts, -, rfl⟩ := Schema.Checked.value?_combine_eq_some.1 h
    obtain ⟨_, text, htitles, -, rfl⟩ := Schema.Checked.value?_combine_eq_some.1 htexts
    obtain ⟨_, title, hids, -, rfl⟩ := Schema.Checked.value?_combine_eq_some.1 htitles
    obtain ⟨id, hid, rfl⟩ := Schema.Checked.value?_map_eq_some.1 hids
    exact Schema.of_required hname hid
  have hfilled (fields : Json.Fields)
      (h : (reader .document (.obj (Json.Fields.set fields "id" (.ofLabel key)))).value? =
        some node) : node.id = key.mended := by
    have hset : Json.Fields.get? (Json.Fields.set fields "id" (.ofLabel key)) "id" =
        some (.ofLabel key) := by
      rw [Json.Fields.get?, Json.Fields.set, Table.findEntry_setEntry, if_pos rfl]
    have hid := hread hset h
    rw [Schema.value?_string_ofLabel] at hid
    exact (Option.some.inj hid).symm
  cases item with
  | obj fields =>
    unfold Graph.fillId at h
    simp only at h
    split at h
    case h_1 name hname =>
      split at h
      case isTrue => exact Or.inl (hfilled fields h)
      case isFalse hvacant =>
        exact Or.inr ⟨fields, name, rfl, hname, by simpa using hvacant, hread hname h⟩
    case h_2 => exact Or.inl (hfilled fields h)
  | _ => exact absurd h (by simp [reader, Graph.fillId, Schema.record, Schema.Checked.fail])

theorem NamesByKey.id_eq {key : Label} {item : Json} {node : Node} (hnames : NamesByKey key item)
    (h : (Node.reader .document (Graph.fillId key item)).value? = some node) :
    node.id = key.mended := by
  rcases Node.id_of_reader h with hid | ⟨fields, name, rfl, hname, hblank, hid⟩
  · exact hid
  · rcases hnames fields _ rfl hname with hvacant | rfl
    · exact absurd (hvacant.symm.trans hblank) (by decide)
    · rw [Schema.value?_string_ofLabel] at hid
      exact (Option.some.inj hid).symm

namespace Graph

variable {nodes startNode version : Json} {graph : Graph}

/-- A graph is keyed if its document names all nodes by their keys. -/
theorem keyed_of_reader (h : (reader .document (.obj [("nodes", nodes), ("startNode", startNode),
      ("version", version)])).value? = some graph)
    (hnames : ∀ fields, nodes = .obj fields → ∀ entry ∈ fields, NamesByKey entry.1 entry.2) :
    graph.Keyed := by
  intro key node hnode
  obtain ⟨⟨fields, hfields, hread⟩, -⟩ := of_reader h
  obtain ⟨name, item, hmem, rfl, hitem⟩ := hread key node hnode
  exact (hnames fields hfields (name, item) hmem).id_eq hitem

/-- What is stored of a graph that was read from a document is keyed exactly if the graph is. -/
theorem keyed_kept_iff (h : (reader .document (.obj [("nodes", nodes), ("startNode", startNode),
      ("version", version)])).value? = some graph) :
    graph.kept.Keyed ↔ graph.Keyed := by
  refine ⟨fun hkept => keyed_of_kept hkept fun key node hnode hblank => ?_, Keyed.kept⟩
  obtain ⟨⟨fields, -, hread⟩, -⟩ := of_reader h
  obtain ⟨name, item, -, rfl, hitem⟩ := hread key node hnode
  rcases Node.id_of_reader hitem with hid | ⟨_, _, -, -, hvacant, hid⟩
  · exact hid
  · exact absurd (by simpa using hblank) (Schema.ne_empty_of_string hvacant hid)

end Graph

/-! ## The demo story -/

theorem namesByKey_node (id title text : String) (choices : List Json) :
    NamesByKey (Demo.node id title text choices).1 (Demo.node id title text choices).2 := by
  rintro fields name ⟨⟩ ⟨⟩
  exact Or.inr rfl

theorem namesByKey_nodes : ∀ entry ∈ Demo.nodes, NamesByKey entry.1 entry.2 := by
  simp only [Demo.nodes, List.forall_mem_cons, namesByKey_node, true_and]
  simp

end Narrative
