import Narrative.Proofs.Wire.Readers
import Narrative.Wire.Answer

/-!
# Stored documents of a story

Definitions and graphs read back from their stored texts with nothing changed but the numbers that
are not finite, which give way to the defaults, and the identifiers of nodes that are left blank,
which give way to the keys of the nodes.  So whatever definitions or graph are stored, they can be
read again.
-/

namespace Narrative

open Json (settled keptNumber Fits)
open Schema

theorem Category.reader_settled (category : Category) :
    reader (settled category.toJson) = .valid category := by
  change Checked.ofOption .notListed (ofName? category.name) = _
  rw [ofName?_name]
  rfl

theorem Comparison.reader_settled (comparison : Comparison) :
    reader (settled comparison.toJson) = .valid comparison := by
  change Checked.ofOption .notListed (ofName? comparison.name) = _
  rw [ofName?_name]
  rfl

theorem OperationKind.reader_settled (kind : OperationKind) :
    reader (settled kind.toJson) = .valid kind := by
  change Checked.ofOption .notListed (ofName? kind.name) = _
  rw [ofName?_name]
  rfl

/-! ## Definitions -/

namespace VariableDefinition

/-- The definition that is left when one is stored. -/
def kept (definition : VariableDefinition) : VariableDefinition :=
  { definition with
    initial := keptNumber 0.0 definition.initial
    min := keptNumber 0.0 definition.min
    max := keptNumber 100.0 definition.max }

theorem reader_settled (origin : Origin) (definition : VariableDefinition) :
    reader origin (settled definition.toJson) = .valid definition.kept := by
  have hinitial := Json.nullAs_settled_num 0.0 definition.initial
  have hmin := Json.nullAs_settled_num 0.0 definition.min
  have hmax := Json.nullAs_settled_num 100.0 definition.max
  unfold toJson reader record ofFields
  rw [settled]
  simp only [Json.settledFields]
  rw [required_of_get? Schema.string definition.id rfl rfl,
    optional_of_get? Schema.string definition.name rfl rfl,
    optional_of_get? _ _ rfl hinitial, optional_of_get? _ _ rfl hmin, optional_of_get? _ _ rfl hmax]
  rfl

theorem fits (levels : ℕ) (definition : VariableDefinition) :
    Fits (levels + 1) definition.toJson := by
  refine Fits.obj (by simp) (by simp) ?_
  simp only [List.forall_mem_cons]
  exact ⟨.str .., .str .., .num .., .num .., .num .., by simp⟩

end VariableDefinition

namespace Definitions

/-- The definitions that are left when some are stored. -/
def kept (definitions : Definitions) : Definitions :=
  .ofFn fun category => (definitions.get category).map VariableDefinition.kept

theorem reader_settled (origin : Origin) (definitions : Definitions) :
    reader origin (settled definitions.toJson) = .valid definitions.kept := by
  have hgroup (group : List VariableDefinition) :
      Schema.list (VariableDefinition.reader origin)
        (settled (.arr (group.map VariableDefinition.toJson))) =
        .valid (group.map VariableDefinition.kept) := by
    rw [Json.settled_arr_map]
    exact list_map _ fun definition _ => VariableDefinition.reader_settled origin definition
  unfold toJson reader record ofFields
  rw [Json.settled_obj_map]
  simp only
  rw [optional_of_get? _ _ rfl (hgroup definitions.physiological),
    optional_of_get? _ _ rfl (hgroup definitions.emotional),
    optional_of_get? _ _ rfl (hgroup definitions.difficulty)]
  rfl

theorem fits (levels : ℕ) (definitions : Definitions) : Fits (levels + 3) definitions.toJson := by
  have hnames : (definitions.toList.map fun group => group.1.name).Nodup := by
    show (Category.all.map Category.name).Nodup
    decide
  exact Json.fits_table hnames fun group _ =>
    Json.fits_list fun definition _ => definition.fits levels

end Definitions

namespace Condition

/-- The condition that is left when one is stored. -/
def kept (condition : Condition) : Condition :=
  { condition with value := keptNumber 0.0 condition.value }

theorem reader_settled (origin : Origin) (condition : Condition) :
    reader origin (settled condition.toJson) = .valid condition.kept := by
  unfold toJson reader record ofFields
  rw [settled]
  simp only [Json.settledFields]
  rw [optional_of_get? truth condition.enabled rfl rfl,
    optional_of_get? _ _ rfl condition.category.reader_settled,
    optional_of_get? Schema.string condition.target rfl rfl,
    optional_of_get? _ _ rfl condition.comparison.reader_settled,
    optional_of_get? _ _ rfl (Json.nullAs_settled_num 0.0 condition.value)]
  rfl

theorem fits (levels : ℕ) (condition : Condition) : Fits (levels + 1) condition.toJson := by
  refine Fits.obj (by simp) (by simp) ?_
  simp only [List.forall_mem_cons]
  exact ⟨.bool .., .str .., .str .., .str .., .num .., by simp⟩

end Condition

namespace VariableOperation

/-- The operation that is left when one is stored. -/
def kept (operation : VariableOperation) : VariableOperation :=
  { operation with value := keptNumber 0.0 operation.value }

theorem reader_settled (origin : Origin) (operation : VariableOperation) :
    reader origin (settled operation.toJson) = .valid operation.kept := by
  unfold toJson reader record ofFields
  rw [settled]
  simp only [Json.settledFields]
  rw [optional_of_get? _ _ rfl operation.category.reader_settled,
    optional_of_get? Schema.string operation.target rfl rfl,
    optional_of_get? _ _ rfl operation.kind.reader_settled,
    optional_of_get? _ _ rfl (Json.nullAs_settled_num 0.0 operation.value)]
  rfl

theorem fits (levels : ℕ) (operation : VariableOperation) :
    Fits (levels + 1) operation.toJson := by
  refine Fits.obj (by simp) (by simp) ?_
  simp only [List.forall_mem_cons]
  exact ⟨.str .., .str .., .str .., .num .., by simp⟩

end VariableOperation

namespace Choice

/-- The choice that is left when one is stored. -/
def kept (choice : Choice) : Choice :=
  { choice with
    condition := choice.condition.kept
    operations := choice.operations.map VariableOperation.kept }

theorem reader_settled (origin : Origin) (choice : Choice) :
    reader origin (settled choice.toJson) = .valid choice.kept := by
  have hcondition : nullAs {} (Condition.reader origin) (settled choice.condition.toJson) =
      .valid choice.condition.kept := by
    rw [nullAs_of_ne _ _ (by simp [Condition.toJson, settled]), Condition.reader_settled]
  have hoperations : nullAs [] (Schema.list (VariableOperation.reader origin))
      (settled (.arr (choice.operations.map VariableOperation.toJson))) =
      .valid (choice.operations.map VariableOperation.kept) := by
    rw [Json.settled_arr_map]
    exact list_map _ fun operation _ => operation.reader_settled origin
  unfold toJson toFields reader record ofFields
  rw [settled]
  simp only [Json.settledFields]
  rw [optional_of_get? Schema.string choice.text rfl rfl,
    optional_of_get? (nullAs "" Schema.string) choice.nextNode rfl rfl,
    optional_of_get? _ _ rfl hcondition, optional_of_get? _ _ rfl hoperations]
  rfl

theorem fits (levels : ℕ) (choice : Choice) : Fits (levels + 3) choice.toJson := by
  refine Fits.obj (by simp [toFields]) (by simp [toFields]) ?_
  simp only [toFields, List.forall_mem_cons]
  exact ⟨.str .., .str .., choice.condition.fits _,
    Json.fits_list fun operation _ => operation.fits levels, by simp⟩

end Choice

namespace Node

/-- The node that is left when one is stored under a key. -/
def kept (key : String) (node : Node) : Node :=
  { node with
    id := if node.id.isEmpty then key else node.id
    choices := node.choices.map Choice.kept }

theorem reader_fillId (origin : Origin) (key : String) (node : Node) :
    reader origin (Graph.fillId key (settled node.toJson)) = .valid (node.kept key) := by
  have hchoices : Schema.list (Choice.reader origin)
      (settled (.arr (node.choices.map Choice.toJson))) =
      .valid (node.choices.map Choice.kept) := by
    rw [Json.settled_arr_map]
    exact list_map _ fun choice _ => choice.reader_settled origin
  have hfilled : Graph.fillId key (settled node.toJson) =
      settled { node with id := if node.id.isEmpty then key else node.id : Node }.toJson := by
    unfold toJson Graph.fillId
    rw [settled, settled]
    by_cases h : node.id.isEmpty
    · simp [h, Json.settledFields, settled, Json.Fields.get?, Table.findEntry, Json.isVacant,
        Json.Fields.set, Table.setEntry, Json.ofLabel]
    · simp [h, Json.settledFields, settled, Json.Fields.get?, Table.findEntry, Json.isVacant]
  rw [hfilled]
  unfold toJson reader record ofFields
  rw [settled]
  simp only [Json.settledFields]
  rw [required_of_get? Schema.string (if node.id.isEmpty then key else node.id) rfl rfl,
    optional_of_get? Schema.string node.title rfl rfl,
    optional_of_get? Schema.string node.text rfl rfl,
    optional_of_get? _ _ rfl hchoices]
  rfl

theorem fits (levels : ℕ) (node : Node) : Fits (levels + 5) node.toJson := by
  refine Fits.obj (by simp) (by simp) ?_
  simp only [List.forall_mem_cons]
  exact ⟨.str .., .str .., .str .., Json.fits_list fun choice _ => choice.fits levels, by simp⟩

theorem fits_table (levels : ℕ) (nodes : Table String Node) :
    Fits (levels + 6) (tableToJson nodes) := by
  apply Json.fits_table nodes.nodup_keys
  intro entry _
  exact entry.2.fits levels

end Node

namespace Graph

/-- The graph that is left when one is stored. -/
def kept (graph : Graph) : Graph :=
  { graph with
    nodes := ⟨graph.nodes.entries.map fun entry => (entry.1, entry.2.kept entry.1), by
      rw [List.map_map]
      exact graph.nodes.nodup_keys⟩ }

theorem reader_settled (origin : Origin) (graph : Graph) :
    reader origin (settled graph.toJson) = .valid graph.kept := by
  have hnodes : Schema.table Schema.string (Node.reader origin)
      (.obj (graph.nodes.entries.map fun entry =>
        (.text entry.1, fillId entry.1 (settled entry.2.toJson)))) =
        .valid graph.kept.nodes := by
    rw [table_map (fun key => key) (fun (key : String) node => fillId key (settled node.toJson))
      Node.kept
      (fun _ _ => rfl) fun entry _ => entry.2.reader_fillId origin entry.1]
    exact congrArg Checked.valid (Table.ofList_entries graph.kept.nodes)
  have hfilled : fillIds (Json.settledFields
      [("nodes", Node.tableToJson graph.nodes), ("startNode", .str graph.startNode),
        ("version", .str graph.version)]) =
      ([("nodes", .obj (graph.nodes.entries.map fun entry =>
        (.text entry.1, fillId entry.1 (settled entry.2.toJson)))),
        ("startNode", .str graph.startNode), ("version", .str graph.version)] : Json.Fields) := by
    have htable : settled (Node.tableToJson graph.nodes) =
        .obj (graph.nodes.entries.map fun entry => (.text entry.1, settled entry.2.toJson)) :=
      Json.settled_obj_map _ _
    simp [Json.settledFields, htable, settled, fillIds, Json.Fields.get?, Table.findEntry,
      Json.Fields.set, Table.setEntry]
  unfold toJson reader record ofFields
  rw [settled]
  simp only [hfilled]
  rw [optional_of_get? _ _ rfl hnodes,
    optional_of_get? Schema.string graph.startNode rfl rfl,
    optional_of_get? Schema.string graph.version rfl rfl]
  rfl

theorem fits (levels : ℕ) (graph : Graph) : Fits (levels + 7) graph.toJson := by
  refine Fits.obj (by simp) (by simp) ?_
  simp only [List.forall_mem_cons]
  exact ⟨Node.fits_table levels graph.nodes, .str .., .str .., by simp⟩

end Graph

theorem Schema.ofText_text {α : Type} {reader : Origin → Reader α} {value : Json} {levels : ℕ}
    (h : Fits levels value) (hlevels : levels ≤ 200) :
    ofText reader value.text = reader .text (settled value) := by
  rw [ofText, Json.read_text h hlevels]

/-- Stored definitions are read as what is kept of them. -/
theorem Definitions.ofText_text (definitions : Definitions) :
    ofText reader definitions.toJson.text = .valid definitions.kept := by
  rw [Schema.ofText_text (definitions.fits 0) (by decide), reader_settled]

/-- A stored graph is read as what is kept of it. -/
theorem Graph.ofText_text (graph : Graph) :
    ofText reader graph.toJson.text = .valid graph.kept := by
  rw [Schema.ofText_text (graph.fits 0) (by decide), reader_settled]

end Narrative
