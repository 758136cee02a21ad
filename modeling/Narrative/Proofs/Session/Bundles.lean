import Narrative.Proofs.Session.Sound
import Narrative.Proofs.Story.Rooted

/-!
# Bundles

What has once been stored is stored and read without any change from then on.  So an exported story
says exactly what its graph and its definitions are, and an import takes it, as long as the graph is
rooted.
-/

namespace Narrative

open Json (settled keptNumber Fits)
open Decimal (isFinite)

namespace Json

theorem settled_keptNumber {default : Float} (h : isFinite default) (x : Float) :
    settled (.num (keptNumber default x)) = .num (keptNumber default x) :=
  settled_num (isFinite_keptNumber h x)

theorem keptNumber_keptNumber {default : Float} (h : isFinite default) (x : Float) :
    keptNumber default (keptNumber default x) = keptNumber default x :=
  if_pos (isFinite_keptNumber h x)

theorem settled_list {α : Type} {write : α → Json} {items : List α}
    (h : ∀ item ∈ items, settled (write item) = write item) :
    settled (.arr (items.map write)) = .arr (items.map write) := by
  rw [settled_arr_map]
  exact congrArg Json.arr (List.map_congr_left h)

theorem settled_table {α : Type} {write : α → Label × Json} {items : List α}
    (h : ∀ item ∈ items, settled (write item).2 = (write item).2) :
    settled (.obj (items.map write)) = .obj (items.map write) := by
  rw [settled_obj_map]
  exact congrArg Json.obj (List.map_congr_left fun item hitem => by rw [h item hitem])

end Json

theorem Definitions.settled_toJson {definitions : Definitions} (h : definitions.Finite) :
    settled definitions.toJson = definitions.toJson := by
  apply Json.settled_table
  intro group hgroup
  obtain ⟨category, -, rfl⟩ := List.mem_map.1 hgroup
  apply Json.settled_list
  intro definition hdefinition
  have hfinite := h category definition hdefinition
  unfold VariableDefinition.toJson
  rw [settled]
  simp only [Json.settledFields, Json.settled_num hfinite.initial, Json.settled_num hfinite.min,
    Json.settled_num hfinite.max]
  rfl

/-- Finite definitions are read as they are. -/
theorem Definitions.reader_toJson (origin : Schema.Origin) {definitions : Definitions}
    (h : definitions.Finite) : reader origin definitions.toJson = .valid definitions := by
  rw [← settled_toJson h, reader_settled, kept_of_finite h]

/-! ## Graphs -/

theorem Condition.settled_kept (condition : Condition) :
    settled condition.kept.toJson = condition.kept.toJson := by
  unfold toJson kept
  rw [settled]
  simp only [Json.settledFields, Json.settled_keptNumber (by decide : isFinite 0.0)]
  rfl

theorem VariableOperation.settled_kept (operation : VariableOperation) :
    settled operation.kept.toJson = operation.kept.toJson := by
  unfold toJson kept
  rw [settled]
  simp only [Json.settledFields, Json.settled_keptNumber (by decide : isFinite 0.0)]
  rfl

theorem Choice.settled_kept (choice : Choice) :
    settled choice.kept.toJson = choice.kept.toJson := by
  have hoperations : settled (.arr (choice.kept.operations.map VariableOperation.toJson)) =
      .arr (choice.kept.operations.map VariableOperation.toJson) := by
    apply Json.settled_list
    intro operation hoperation
    obtain ⟨operation, -, rfl⟩ := List.mem_map.1 hoperation
    exact operation.settled_kept
  have hcondition : settled choice.kept.condition.toJson = choice.kept.condition.toJson :=
    choice.condition.settled_kept
  unfold toJson toFields
  rw [settled]
  simp only [Json.settledFields, hoperations, hcondition]
  rfl

theorem Node.settled_kept (key : String) (node : Node) :
    settled (node.kept key).toJson = (node.kept key).toJson := by
  have hchoices : settled (.arr ((node.kept key).choices.map Choice.toJson)) =
      .arr ((node.kept key).choices.map Choice.toJson) := by
    apply Json.settled_list
    intro choice hchoice
    obtain ⟨choice, -, rfl⟩ := List.mem_map.1 hchoice
    exact choice.settled_kept
  unfold toJson
  rw [settled]
  simp only [Json.settledFields, hchoices]
  rfl

theorem Node.settled_tableToJson (graph : Graph) :
    settled (tableToJson graph.kept.nodes) = tableToJson graph.kept.nodes := by
  apply Json.settled_table
  intro entry hentry
  obtain ⟨entry, -, rfl⟩ := List.mem_map.1 hentry
  exact entry.2.settled_kept entry.1

theorem Graph.settled_kept (graph : Graph) : settled graph.kept.toJson = graph.kept.toJson := by
  unfold toJson
  rw [settled]
  simp only [Json.settledFields, Node.settled_tableToJson]
  rfl

theorem Choice.kept_kept (choice : Choice) : choice.kept.kept = choice.kept := by
  have hoperations : choice.kept.operations.map VariableOperation.kept =
      choice.kept.operations := by
    rw [kept, List.map_map]
    apply List.map_congr_left
    intro operation _
    simp only [Function.comp_apply, VariableOperation.kept,
      Json.keptNumber_keptNumber (by decide : isFinite 0.0)]
  have hcondition : choice.kept.condition.kept = choice.kept.condition := by
    simp only [kept, Condition.kept, Json.keptNumber_keptNumber (by decide : isFinite 0.0)]
  calc choice.kept.kept
      = { choice.kept with
          condition := choice.kept.condition.kept
          operations := choice.kept.operations.map VariableOperation.kept } := rfl
    _ = choice.kept := by rw [hoperations, hcondition]

theorem Node.kept_kept (key : String) (node : Node) :
    (node.kept key).kept key = node.kept key := by
  have hid : (if (node.kept key).id.isEmpty then key else (node.kept key).id) =
      (node.kept key).id := by
    by_cases h : node.id.isEmpty <;> simp [kept, h]
  have hchoices : (node.kept key).choices.map Choice.kept = (node.kept key).choices := by
    rw [kept, List.map_map]
    exact List.map_congr_left fun choice _ => choice.kept_kept
  calc (node.kept key).kept key
      = { node.kept key with
          id := if (node.kept key).id.isEmpty then key else (node.kept key).id
          choices := (node.kept key).choices.map Choice.kept } := rfl
    _ = node.kept key := by rw [hid, hchoices]

/-- A graph that has been stored is stored as it is. -/
theorem Graph.kept_kept (graph : Graph) : graph.kept.kept = graph.kept := by
  have hnodes : graph.kept.kept.nodes = graph.kept.nodes := by
    apply Table.ext_entries
    change (graph.nodes.entries.map _).map _ = graph.nodes.entries.map _
    rw [List.map_map]
    apply List.map_congr_left
    intro entry _
    simp only [Function.comp_apply, Node.kept_kept]
  calc graph.kept.kept = { graph.kept with nodes := graph.kept.kept.nodes } := rfl
    _ = graph.kept := by rw [hnodes]

/-- A graph that is stored as it is reads back as it is. -/
theorem Graph.reader_toJson (origin : Schema.Origin) {graph : Graph} (h : graph.kept = graph) :
    reader origin graph.toJson = .valid graph := by
  have hsettled := graph.settled_kept
  rw [h] at hsettled
  rw [← hsettled, reader_settled, h]

/-! ## Bundles -/

namespace Session

variable {session : Session}

/-- The bundle of a session, made at a date. -/
def exported (session : Session) (date : String) : ExportBundle where
  nodes := session.graph.nodes
  startNode := session.graph.startNode
  definitions := session.store.definitions
  version := session.graph.version
  exportDate := date

theorem bundle_eq_exported {now : Instant} {date : String} (h : now.text = .ok date) :
    session.bundle now = .ok (session.exported date) := by
  rw [bundle, h]
  rfl

theorem fits_exported (session : Session) (date : String) :
    Fits 7 (session.exported date).toJson := by
  refine Fits.obj (by simp [ExportBundle.toFields]) (by simp [ExportBundle.toFields]) ?_
  simp only [ExportBundle.toFields, List.forall_mem_cons]
  exact ⟨Node.fits_table 0 _, .str .., Definitions.fits 3 _, .str .., .str .., by simp⟩

/-- A bundle reads back from its text as it is. -/
theorem read_exported (hgraph : session.graph.kept = session.graph)
    (hdefinitions : session.store.definitions.Finite) (date : String) :
    Json.read .exchanged (session.exported date).toJson.text =
      .ok (session.exported date).toJson := by
  have hnodes := Node.settled_tableToJson session.graph
  rw [hgraph] at hnodes
  have hsettled : settled (session.exported date).toJson = (session.exported date).toJson := by
    unfold ExportBundle.toJson ExportBundle.toFields exported
    rw [settled]
    simp only [Json.settledFields, hnodes, Definitions.settled_toJson hdefinitions]
    rfl
  rw [Json.read_text (session.fits_exported date) (by decide), hsettled]

/-- A bundle with a rooted graph is imported as it is. -/
theorem imported_exported (hgraph : session.graph.kept = session.graph)
    (hrooted : session.graph.Rooted) (hdefinitions : session.store.definitions.Finite)
    (date : String) : imported (session.exported date).toJson =
      some (⟨session.graph, none⟩, some ⟨session.store.definitions, none⟩) := by
  have hdocument : importedGraph (session.exported date).toFields
      (Node.tableToJson session.graph.nodes) = session.graph.toJson := by
    have hstart : session.graph.startNode.isEmpty = false := by simpa using hrooted.startNode
    have hversion : session.graph.version.isEmpty = false := by simpa using hrooted.version
    simp [importedGraph, importField, ExportBundle.toFields, exported, Json.Fields.get?,
      Table.findEntry, Json.isVacant, hstart, hversion, Graph.toJson]
  have hread := Schema.Draft.read_of_valid (Graph.reader_toJson .document hgraph)
  have hdefined := Schema.Draft.read_of_valid (Definitions.reader_toJson .document hdefinitions)
  have hbrought : importedDefinitions (session.exported date).toFields =
      some (some ⟨session.store.definitions, none⟩) := by
    change (Schema.Draft.read (Definitions.reader .document)
      session.store.definitions.toJson).toOption.map some = _
    rw [hdefined]
    rfl
  change ((Schema.Draft.read (Graph.reader .document) (importedGraph
    (session.exported date).toFields (Node.tableToJson session.graph.nodes))).toOption.bind
    fun graph => (importedDefinitions (session.exported date).toFields).bind fun definitions =>
      if graph.value.hasNode startNodeId then some (graph, definitions) else none) = _
  rw [hdocument, hread, hbrought]
  simp [Except.toOption, hrooted.hasNode]

end Session

theorem Graph.kept_default : Graph.default.kept = Graph.default := by
  rfl

/-- The graph of a story is stored as it is. -/
theorem Stored.kept_graph {records : Records} (h : Kept records) (id : Identifier) :
    (graph records id).kept = graph records id := by
  unfold graph
  cases htext : records.get? (StoreKey.story id .graph).text with
  | none => exact Graph.kept_default
  | some text =>
    obtain ⟨stored, rfl⟩ := h.graph id text htext
    simp [Repository.parsed_graph, Except.toOption, Graph.kept_kept]

end Narrative
