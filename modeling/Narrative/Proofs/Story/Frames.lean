import Narrative.Proofs.Story.FreshKeys
import Narrative.Proofs.Variable.Within

/-!
# What edits leave alone

An edit of a graph or of definitions touches the item it names.  The relations here put the list
before an edit next to the list after it, with the same items ahead of the touched one and behind it
in both: so they say of every other item that it stays, and in which order.  An edit leads exactly
where its relation says; it is refused only where nothing is so related to what is edited.
-/

namespace Narrative

section Lists

variable {α : Type}

/-- The item at an index is changed, and the others stay. -/
inductive Replaced (change : α → α → Prop) : ℤ → List α → List α → Prop where
  | between (ahead behind : List α) {old new : α} (h : change old new) :
      Replaced change ahead.length (ahead ++ old :: behind) (ahead ++ new :: behind)

/-- The item at an index is taken out, and those behind it move up. -/
inductive Removed : ℤ → List α → List α → Prop where
  | between (ahead : List α) (item : α) (behind : List α) :
      Removed ahead.length (ahead ++ item :: behind) (ahead ++ behind)

theorem exists_eq_append_of_getElem? {items : List α} {n : ℕ} {item : α}
    (h : items[n]? = some item) :
    ∃ ahead behind, items = ahead ++ item :: behind ∧ ahead.length = n := by
  obtain ⟨hlt, rfl⟩ := List.getElem?_eq_some_iff.1 h
  refine ⟨items.take n, items.drop (n + 1), ?_, List.length_take_of_le hlt.le⟩
  rw [List.getElem_cons_drop, List.take_append_drop]

theorem editItem_iff_replaced {edit : α → Option α} {items result : List α} {index : ℤ} :
    editItem edit items index = some result ↔
      Replaced (fun old new => edit old = some new) index items result := by
  constructor
  · intro h
    cases index with
    | negSucc n => exact absurd h (by simp [editItem])
    | ofNat n =>
      obtain ⟨old, hold, hrest⟩ := Option.bind_eq_some_iff.1 h
      obtain ⟨new, hnew, hresult⟩ := Option.bind_eq_some_iff.1 hrest
      obtain ⟨ahead, behind, rfl, rfl⟩ := exists_eq_append_of_getElem? hold
      have hset : (ahead ++ old :: behind).set ahead.length new = ahead ++ new :: behind := by
        simp
      rw [← Option.some.inj hresult, hset]
      exact .between ahead behind hnew
  · rintro ⟨ahead, behind, hnew⟩
    simp [editItem, hnew]

theorem removeItem_iff_removed {items result : List α} {index : ℤ} :
    removeItem items index = some result ↔ Removed index items result := by
  constructor
  · intro h
    cases index with
    | negSucc n => exact absurd h (by simp [removeItem])
    | ofNat n =>
      rw [removeItem, Option.ite_none_right_eq_some] at h
      obtain ⟨hlt, hresult⟩ := h
      obtain ⟨item, hitem⟩ : ∃ item, items[n]? = some item := ⟨_, List.getElem?_eq_getElem hlt⟩
      obtain ⟨ahead, behind, rfl, rfl⟩ := exists_eq_append_of_getElem? hitem
      have herase : (ahead ++ item :: behind).eraseIdx ahead.length = ahead ++ behind := by
        simp [List.eraseIdx_append_of_length_le]
      rw [← Option.some.inj hresult, herase]
      exact .between ahead item behind
  · rintro ⟨ahead, item, behind⟩
    simp [removeItem, List.eraseIdx_append_of_length_le]

/-- The first item with a property is changed, and the others stay. -/
inductive FirstReplaced (p : α → Prop) (change : α → α → Prop) : List α → List α → Prop where
  | between {ahead : List α} (behind : List α) {old new : α} (hahead : ∀ item ∈ ahead, ¬ p item)
      (hold : p old) (h : change old new) :
      FirstReplaced p change (ahead ++ old :: behind) (ahead ++ new :: behind)

theorem firstReplaced_iff_exists_set {p : α → Prop} [DecidablePred p] {change : α → α → Prop}
    {items result : List α} :
    FirstReplaced p change items result ↔
      ∃ n old new, items.findIdx? (fun item => p item) = some n ∧ items[n]? = some old ∧
        change old new ∧ result = items.set n new := by
  constructor
  · rintro ⟨behind, hahead, hold, hchange⟩
    rename_i ahead old new
    have hnone : ahead.findIdx? (fun item => p item) = none :=
      List.findIdx?_eq_none_iff.2 (by simpa using hahead)
    refine ⟨ahead.length, old, new, ?_, by simp, hchange, by simp⟩
    rw [List.findIdx?_append, hnone, List.findIdx?_cons, if_pos (decide_eq_true hold)]
    simp
  · rintro ⟨n, old, new, hfirst, hold, hchange, rfl⟩
    obtain ⟨hlt, hp, hbefore⟩ := List.findIdx?_eq_some_iff_getElem.1 hfirst
    obtain ⟨ahead, behind, rfl, rfl⟩ := exists_eq_append_of_getElem? hold
    have hset : (ahead ++ old :: behind).set ahead.length new = ahead ++ new :: behind := by
      simp
    rw [hset]
    refine .between behind (fun item hitem => ?_) (by simpa using hp) hchange
    obtain ⟨place, hplace, rfl⟩ := List.getElem_of_mem hitem
    simpa [List.getElem_append_left hplace] using hbefore place hplace

end Lists

/-- The value under a key is changed, and the entries under other keys stay. -/
inductive Rewritten {α : Type} (key : String) (change : α → α → Prop) :
    List (String × α) → List (String × α) → Prop where
  | between (ahead behind : List (String × α)) {old new : α} (h : change old new) :
      Rewritten key change (ahead ++ (key, old) :: behind) (ahead ++ (key, new) :: behind)

theorem rewritten_iff_exists_insert {α : Type} {key : String} {change : α → α → Prop}
    {table result : Table String α} :
    Rewritten key change table.entries result.entries ↔
      ∃ old new, table.get? key = some old ∧ change old new ∧ result = table.insert key new := by
  constructor
  · intro h
    generalize hbefore : table.entries = before at h
    generalize hafter : result.entries = after at h
    obtain ⟨ahead, behind, hchange⟩ := h
    refine ⟨_, _, ?_, hchange, ?_⟩
    · exact Table.findEntry_of_mem table.nodup_keys (by simp [hbefore])
    · exact Table.ext_entries (hafter.trans (Table.entries_insert_of_entries hbefore _).symm)
  · rintro ⟨old, new, hold, hchange, rfl⟩
    obtain ⟨ahead, behind, hentries⟩ := List.append_of_mem (Table.mem_of_findEntry hold)
    rw [Table.entries_insert_of_entries hentries, hentries]
    exact .between ahead behind hchange

/-! ## Graphs -/

/-- Only the choices of a node are changed. -/
inductive Node.ChoicesChanged (change : List Choice → List Choice → Prop) (node : Node) :
    Node → Prop where
  | choices {choices : List Choice} (h : change node.choices choices) :
      ChoicesChanged change node { node with choices }

/-- Only the operations of a choice are changed. -/
inductive Choice.OperationsChanged
    (change : List VariableOperation → List VariableOperation → Prop) (choice : Choice) :
    Choice → Prop where
  | operations {operations : List VariableOperation} (h : change choice.operations operations) :
      OperationsChanged change choice { choice with operations }

theorem Node.map_choices_iff_choicesChanged {edit : List Choice → Option (List Choice)}
    {node result : Node} :
    ((edit node.choices).map fun choices => { node with choices }) = some result ↔
      node.ChoicesChanged (fun old new => edit old = some new) result := by
  rw [Option.map_eq_some_iff]
  constructor
  · rintro ⟨choices, hchoices, rfl⟩
    exact .choices hchoices
  · rintro ⟨hchoices⟩
    exact ⟨_, hchoices, rfl⟩

theorem Choice.map_operations_iff_operationsChanged
    {edit : List VariableOperation → Option (List VariableOperation)} {choice result : Choice} :
    ((edit choice.operations).map fun operations => { choice with operations }) = some result ↔
      choice.OperationsChanged (fun old new => edit old = some new) result := by
  rw [Option.map_eq_some_iff]
  constructor
  · rintro ⟨operations, hoperations, rfl⟩
    exact .operations hoperations
  · rintro ⟨hoperations⟩
    exact ⟨_, hoperations, rfl⟩

namespace Graph

/-- Only the nodes of a graph are changed. -/
inductive NodesChanged (change : List (String × Node) → List (String × Node) → Prop)
    (graph : Graph) : Graph → Prop where
  | nodes {nodes : Table String Node} (h : change graph.nodes.entries nodes.entries) :
      NodesChanged change graph { graph with nodes }

/-- Only the choices of one node of a graph are changed. -/
def ChoicesChanged (key : String) (change : List Choice → List Choice → Prop) :
    Graph → Graph → Prop :=
  NodesChanged (Rewritten key (Node.ChoicesChanged change))

/-- Only one choice of one node of a graph is changed. -/
def ChoiceChanged (key : String) (choice : ℤ) (change : Choice → Choice → Prop) :
    Graph → Graph → Prop :=
  ChoicesChanged key (Replaced change choice)

/-- Only the operations of one choice of one node of a graph are changed. -/
def OperationsChanged (key : String) (choice : ℤ)
    (change : List VariableOperation → List VariableOperation → Prop) : Graph → Graph → Prop :=
  ChoiceChanged key choice (Choice.OperationsChanged change)

variable {graph result : Graph} {key : String}

/-- A created node comes behind the others, under a key that none of them has. -/
theorem nodesChanged_addNode (graph : Graph) (millis : ℤ) :
    graph.NodesChanged
      (fun old new => graph.freshKey millis ∉ old.map Prod.fst ∧
        new = old ++ [(graph.freshKey millis, .placeholder (graph.freshKey millis))])
      (graph.addNode (graph.freshKey millis)) := by
  have hfresh : graph.nodes.get? (graph.freshKey millis) = none := by
    simpa [hasNode, Table.contains] using graph.hasNode_freshKey millis
  exact .nodes ⟨Table.findEntry_eq_none.1 hfresh, Table.entries_insert_of_notMem _ hfresh⟩

theorem removeNode_eq_some :
    graph.removeNode key = some result ↔
      key ≠ startNodeId ∧ result = { graph with nodes := graph.nodes.erase key } := by
  simp only [removeNode, Option.ite_none_left_eq_some, Option.some.injEq, eq_comm (a := result),
    ne_eq]

theorem editNode_eq_some {edit : Node → Option Node} :
    graph.editNode key edit = some result ↔
      ∃ old new, graph.node? key = some old ∧ edit old = some new ∧
        result = { graph with nodes := graph.nodes.insert key new } := by
  simp only [editNode, Option.bind_eq_bind, Option.bind_eq_some_iff, Option.pure_def,
    Option.some.injEq, eq_comm (a := result), exists_and_left]

theorem removeNode_iff_nodesChanged :
    graph.removeNode key = some result ↔ key ≠ startNodeId ∧
      graph.NodesChanged (fun old new => new = old.filter fun entry => entry.1 ≠ key) result := by
  rw [removeNode_eq_some]
  refine and_congr_right fun _ => ⟨?_, ?_⟩
  · rintro rfl
    exact .nodes rfl
  · rintro ⟨hnodes⟩
    have herase : _ = graph.nodes.erase key := Table.ext_entries hnodes
    rw [herase]

theorem editNode_iff_nodesChanged {edit : Node → Option Node} :
    graph.editNode key edit = some result ↔
      graph.NodesChanged (Rewritten key fun old new => edit old = some new) result := by
  rw [editNode_eq_some]
  constructor
  · rintro ⟨old, new, hold, hnew, rfl⟩
    exact .nodes (rewritten_iff_exists_insert.2 ⟨old, new, hold, hnew, rfl⟩)
  · rintro ⟨hnodes⟩
    obtain ⟨old, new, hold, hnew, rfl⟩ := rewritten_iff_exists_insert.1 hnodes
    exact ⟨old, new, hold, hnew, rfl⟩

theorem editChoices_iff_choicesChanged {edit : List Choice → Option (List Choice)} :
    graph.editChoices key edit = some result ↔
      graph.ChoicesChanged key (fun old new => edit old = some new) result := by
  simp only [editChoices, editNode_iff_nodesChanged, Node.map_choices_iff_choicesChanged,
    ChoicesChanged]

theorem editChoice_iff_choiceChanged {choice : ℤ} {edit : Choice → Option Choice} :
    graph.editChoice key choice edit = some result ↔
      graph.ChoiceChanged key choice (fun old new => edit old = some new) result := by
  simp only [editChoice, editChoices_iff_choicesChanged, editItem_iff_replaced, ChoiceChanged]

theorem editOperations_iff_operationsChanged {choice : ℤ}
    {edit : List VariableOperation → Option (List VariableOperation)} :
    graph.editOperations key choice edit = some result ↔
      graph.OperationsChanged key choice (fun old new => edit old = some new) result := by
  simp only [editOperations, editChoice_iff_choiceChanged,
    Choice.map_operations_iff_operationsChanged, OperationsChanged]

end Graph

/-! ## Definitions -/

namespace Definitions

/-- Only the definitions of one category are changed. -/
inductive GroupChanged (category : Category)
    (change : List VariableDefinition → List VariableDefinition → Prop)
    (definitions : Definitions) : Definitions → Prop where
  | group {group : List VariableDefinition} (h : change (definitions.get category) group) :
      GroupChanged category change definitions (definitions.set category group)

theorem groupChanged_iff {category : Category}
    {change : List VariableDefinition → List VariableDefinition → Prop}
    {definitions after : Definitions} :
    definitions.GroupChanged category change after ↔
      ∃ group, change (definitions.get category) group ∧
        after = definitions.set category group := by
  constructor
  · rintro ⟨h⟩
    exact ⟨_, h, rfl⟩
  · rintro ⟨group, h, rfl⟩
    exact .group h

variable {definitions : Definitions} {category : Category} {name : String}
  {result : DefinitionsEdit}

theorem add_iff_groupChanged {definition : VariableDefinition} :
    definitions.add category definition = some result ↔
      definitions.GroupChanged category
        (fun old new => definition.id ∉ old.map VariableDefinition.id ∧ new = old ++ [definition])
        result.definitions ∧ result.restarts := by
  cases result with | mk after restarts =>
  rw [add_eq_some, DefinitionsEdit.mk.injEq, groupChanged_iff]
  simp only [and_assoc, exists_and_left, exists_eq_left]

theorem remove_iff_groupChanged :
    definitions.remove category name = some result ↔
      definitions.GroupChanged category
        (fun old new => name ∈ old.map VariableDefinition.id ∧
          new = old.filter fun definition => definition.id ≠ name)
        result.definitions ∧ result.restarts := by
  cases result with | mk after restarts =>
  rw [remove_eq_some, DefinitionsEdit.mk.injEq, groupChanged_iff]
  simp only [and_assoc, exists_and_left, exists_eq_left]

theorem patch_iff_groupChanged {patch : DefinitionPatch} :
    definitions.patch category name patch = some result ↔
      definitions.GroupChanged category
        (fun old new => FirstReplaced (·.id = name) (patch.apply · = ·) old new ∧
          (patch.id.getD name ≠ name → patch.id.getD name ∉ old.map VariableDefinition.id))
        result.definitions ∧ result.restarts = (patch.id.getD name != name) := by
  cases result with | mk after restarts =>
  -- The patched definition has the identifier that the patch gives it, or else the old one.
  have hupdated {found : VariableDefinition} (hid : found.id = name) :
      (patch.apply found).id = patch.id.getD name := by
    rw [DefinitionPatch.apply, hid]
  rw [patch_eq_some, groupChanged_iff]
  constructor
  · rintro ⟨index, found, hindex, hfound, hid, hfree, hedit⟩
    rw [hupdated hid] at hfree hedit
    obtain ⟨rfl, rfl⟩ := DefinitionsEdit.mk.inj hedit
    refine ⟨⟨_, ⟨?_, hfree⟩, rfl⟩, rfl⟩
    exact firstReplaced_iff_exists_set.2 ⟨index, found, _, hindex, hfound, rfl, rfl⟩
  · rintro ⟨⟨group, ⟨hreplaced, hfree⟩, rfl⟩, rfl⟩
    obtain ⟨index, found, -, hindex, hfound, rfl, rfl⟩ :=
      firstReplaced_iff_exists_set.1 hreplaced
    have hid : found.id = name := by simpa [hfound] using List.of_findIdx?_eq_some hindex
    refine ⟨index, found, hindex, hfound, hid, ?_, ?_⟩ <;> rw [hupdated hid]
    exact hfree

end Definitions

end Narrative
