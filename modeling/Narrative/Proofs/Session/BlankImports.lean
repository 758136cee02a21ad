import Narrative.Proofs.Session.Imports
import Narrative.Proofs.Wire.BlankReaders

/-!
# Imports of older files

An imported document in which older files have left fields blank says the same story as one without
these fields.  The import comes to the same end, whether it goes through, is refused, or breaks off;
the same graph, definitions and values are in force afterwards, and the same texts are stored.
-/

namespace Narrative

open Schema (Step Reader Draft spelledOut)

namespace Session

variable {blanks : Blanks} {fields : Json.Fields}

/-- A blank field of a document counts as a missing one. -/
theorem importField_blanked (h : blanks.Fit .story (.obj fields)) {name : String}
    (hother : Part.story.sub (.field name) = .other) (default : String) :
    importField (Json.editedFields blanks.write fields) name default =
      importField (Json.editedFields blanks.drop fields) name default := by
  unfold importField
  rw [Json.get?_blankedFields, Json.get?_prunedFields]
  cases hchosen : blanks [.field name] with
  | some blank =>
    obtain rfl : blank = .null := (h.leavesBlank hchosen).2
    cases Json.Fields.get? fields name <;> rfl
  | none =>
    cases hvalue : Json.Fields.get? fields name with
    | none => rfl
    | some value =>
      have hfit := h.field hchosen (Table.mem_of_findEntry hvalue)
      rw [hother] at hfit
      simp only [Option.map_some, hfit.blanked_eq_pruned]

theorem importedDefinitions_blanked (h : blanks.Fit .story (.obj fields)) :
    importedDefinitions (Json.editedFields blanks.write fields) =
      importedDefinitions (Json.editedFields blanks.drop fields) := by
  unfold importedDefinitions
  rw [Json.get?_blankedFields, Json.get?_prunedFields]
  cases hchosen : blanks [.field "variableDefinitions"] with
  | some blank =>
    obtain rfl : blank = .null := (h.leavesBlank hchosen).2
    cases Json.Fields.get? fields "variableDefinitions" <;> rfl
  | none =>
    cases hvalue : Json.Fields.get? fields "variableDefinitions" with
    | none => rfl
    | some value =>
      have hfit := h.field hchosen (Table.mem_of_findEntry hvalue)
      have hread := (Definitions.overlooks_reader .document).read hfit
      cases value with
      | null => rfl
      | bool | int | num | str | torn | arr | obj =>
        exact congrArg (fun draft => (Except.toOption draft).map some) hread

/-- Where nothing but the nodes is edited, the graph of a document has the edited nodes. -/
theorem edited_importedGraph {edits : FieldEdits} (hnodes : edits [.field "nodes"] = none)
    (hothers : ∀ name rest, name ≠ "nodes" → edits (.field name :: rest) = none)
    (fields : Json.Fields) (nodes : Json) :
    (importedGraph fields nodes).edited edits =
      importedGraph fields (nodes.edited (edits.below (.field "nodes"))) := by
  have hkept (name : String) (hname : name ≠ "nodes") (value : Json) :
      value.edited (edits.below (.field name)) = value :=
    Json.edited_of_none (fun rest => hothers name rest hname) value
  simp only [importedGraph, Json.edited, Json.editedFields, hnodes,
    hothers "startNode" [] (by decide), hothers "version" [] (by decide),
    hkept "startNode" (by decide), hkept "version" (by decide)]

/-- The graph of a document is read in the same way whether the fields of its nodes are blank or
left out. -/
theorem read_importedGraph (h : blanks.Fit .story (.obj fields)) {nodes : Json}
    (hnodes : (.text "nodes", nodes) ∈ fields) :
    Draft.read (Graph.reader .document) (importedGraph (Json.editedFields blanks.write fields)
        (nodes.blanked (blanks.below (.field "nodes")))) =
      Draft.read (Graph.reader .document) (importedGraph (Json.editedFields blanks.drop fields)
        (nodes.pruned (blanks.below (.field "nodes")))) := by
  have hnone : blanks [.field "nodes"] = none := h.eq_none fun _ hno => absurd hno.1 (by decide)
  have hfit := h.field hnone hnodes
  have hsame (shown : Json) : importedGraph (Json.editedFields blanks.write fields) shown =
      importedGraph (Json.editedFields blanks.drop fields) shown := by
    unfold importedGraph
    rw [importField_blanked h (rfl : Part.story.sub (.field "startNode") = .other),
      importField_blanked h (rfl : Part.story.sub (.field "version") = .other)]
  rw [hsame]
  generalize Json.editedFields blanks.drop fields = others
  have hinner : (Blanks.within (.field "nodes") (blanks.below (.field "nodes"))).Fit .graph
      (importedGraph others nodes) := by
    refine Blanks.Fit.within hfit fun front found hholds => ?_
    obtain ⟨value, hvalue, hrest⟩ := hholds
    obtain rfl : value = nodes := by simpa using hvalue
    exact hrest
  have hread := (Graph.overlooks_reader .document).read hinner
  have hinside : Blanks.within (.field "nodes") (blanks.below (.field "nodes"))
      [.field "nodes"] = none := hnone
  have houtside (name : String) (rest : List Step) (hname : name ≠ "nodes") :
      Blanks.within (.field "nodes") (blanks.below (.field "nodes")) (.field name :: rest) =
        none := by simp [Blanks.within, hname]
  unfold Json.blanked Json.pruned at hread ⊢
  rwa [edited_importedGraph (by rw [Blanks.write, hinside]; rfl)
      fun name rest hname => by rw [Blanks.write, houtside name rest hname]; rfl,
    edited_importedGraph (by rw [Blanks.drop, hinside]; rfl)
      fun name rest hname => by rw [Blanks.drop, houtside name rest hname]; rfl] at hread

/-! ## Imports -/

/-- A document says the same story whether its fields are blank or left out. -/
theorem imported_blanked {document : Json} (h : blanks.Fit .story document) :
    imported (document.blanked blanks) = imported (document.pruned blanks) := by
  cases document with
  | null | bool | int | num | str | torn | arr => rfl
  | obj fields =>
    have hnone : blanks [.field "nodes"] = none := h.eq_none fun _ hno => absurd hno.1 (by decide)
    have hdefinitions := importedDefinitions_blanked h
    rw [Json.blanked, Json.pruned, Json.edited, Json.edited]
    simp only [imported, Json.get?_blankedFields, Json.get?_prunedFields, hnone]
    cases hnodes : Json.Fields.get? fields "nodes" with
    | none => rfl
    | some nodes =>
      have hread := read_importedGraph h (Table.mem_of_findEntry hnodes)
      rw [hdefinitions]
      cases nodes with
      | null => rfl
      | bool | int | num | str | torn | arr | obj =>
        exact congrArg (fun draft => do
          let graph ← Except.toOption draft
          let definitions ← importedDefinitions (Json.editedFields blanks.drop fields)
          if graph.value.hasNode startNodeId then some (graph, definitions) else none) hread

/-- Fields that older files leave blank count as missing: whichever of them are chosen, importing
the document with these fields blank and importing it without them are the same, in what is
answered, in what is in force afterwards, and in what is stored.  The two documents say the same
stories. -/
theorem importStory_blanked (session : Session) {document : Json} {blanks : Blanks}
    (h : blanks.Fit .story document) :
    session.importStory (document.blanked blanks) =
        session.importStory (document.pruned blanks) ∧
      ∀ graph definitions, Says graph definitions (document.blanked blanks) ↔
        Says graph definitions (document.pruned blanks) := by
  have hsame := imported_blanked h
  constructor
  · unfold importStory
    rw [hsame]
  · intro graph definitions
    rw [← imported_eq_some, ← imported_eq_some, hsame]

/-- A story of an older editor, which has left a field of every kind blank. -/
def olderStory : Json :=
  .obj [("nodes", .obj [("start", .obj [("id", .null), ("choices", .arr [.obj [("text", .str "go"),
      ("nextNode", .null), ("condition", .obj [("enabled", .bool true), ("value", .null)]),
      ("variableOperations", .arr [.obj [("value", .null)]])]])])]),
    ("startNode", .null),
    ("variableDefinitions", .obj [("physiological", .arr [.obj [("id", .str "energy"),
      ("initial", .null), ("max", .null)]])])]

/-- The same story without the fields that are left blank. -/
def plainStory : Json :=
  .obj [("nodes", .obj [("start", .obj [("choices", .arr [.obj [("text", .str "go"),
      ("condition", .obj [("enabled", .bool true)]),
      ("variableOperations", .arr [.obj []])]])])]),
    ("variableDefinitions", .obj [("physiological", .arr [.obj [("id", .str "energy")]])])]

/-- The blank fields of the story, by the places where they are. -/
def olderFields : List (List Step × String) :=
  let choice : List Step := [.field "nodes", .field "start", .field "choices", .item 0]
  let definition : List Step :=
    [.field "variableDefinitions", .field "physiological", .item 0]
  [([.field "nodes", .field "start"], "id"), (choice, "nextNode"),
    (choice ++ [.field "condition"], "value"),
    (choice ++ [.field "variableOperations", .item 0], "value"),
    ([], "startNode"), (definition, "initial"), (definition, "max")]

/-- The blank fields of the story. -/
def olderBlanks : Blanks := fun path =>
  if path ∈ olderFields.map fun place => place.1 ++ [.field place.2] then some .null else none

theorem mem_olderFields {path : List Step} {value : Json} (h : olderBlanks path = some value) :
    value = .null ∧ ∃ place ∈ olderFields, place.1 ++ [.field place.2] = path := by
  unfold olderBlanks at h
  split at h
  case isFalse => exact absurd h (by simp)
  case isTrue hpath => exact ⟨(Option.some.inj h).symm, List.mem_map.1 hpath⟩

theorem fit_olderBlanks : olderBlanks.Fit .story olderStory where
  places := by
    intro path value hvalue
    have hleaves : ∀ place ∈ olderFields,
        (Part.story.follow place.1).LeavesBlank place.2 .null := by
      simp [olderFields, Part.follow, Part.sub, Part.LeavesBlank]
    obtain ⟨rfl, place, hplace, rfl⟩ := mem_olderFields hvalue
    exact ⟨place.1, place.2, rfl, hleaves place hplace⟩
  spellings := by
    intro front name fields hchosen hholds hname
    obtain ⟨value, hvalue⟩ := Option.isSome_iff_exists.1 hchosen
    obtain ⟨-, place, hplace, hpath⟩ := mem_olderFields hvalue
    obtain ⟨hfront, hlast⟩ := List.append_inj' hpath rfl
    obtain rfl : place.2 = name := by simpa using hlast
    subst hfront
    have hspelled : ∀ place ∈ olderFields, spelledOut place.2 = place.2 ∨
        spelledOut place.2 = "next_node" ∨ spelledOut place.2 = "start_node" := by decide
    have hnone : ∀ place ∈ olderFields, ∀ fields, Json.Holds place.1 olderStory (.obj fields) →
        Json.Fields.get? fields "next_node" = none ∧
          Json.Fields.get? fields "start_node" = none := by
      simp [olderFields, Json.Holds, olderStory, Json.Fields.get?, Table.findEntry]
    have hmissing := hnone place hplace fields hholds
    rcases hspelled place hplace with hsame | hnext | hstart
    · exact absurd hsame hname
    · rw [hnext]
      exact hmissing.1
    · rw [hstart]
      exact hmissing.2

/-- The story of the older editor is imported like the one without the blank fields, and there is
something to import. -/
theorem importStory_olderStory : olderBlanks.Fit .story olderStory ∧
    Session.importStory { story := "", graph := {}, store := {}, place := {} } olderStory =
      Session.importStory { story := "", graph := {}, store := {}, place := {} } plainStory ∧
    ∃ graph definitions, Says graph definitions olderStory ∧ Says graph definitions plainStory := by
  obtain ⟨hsame, hstories⟩ := importStory_blanked
    { story := "", graph := {}, store := {}, place := {} } fit_olderBlanks
  obtain ⟨graph, definitions, himported⟩ : ∃ graph definitions,
      imported plainStory = some (graph, definitions) := ⟨_, _, rfl⟩
  have hplain := imported_eq_some.1 himported
  exact ⟨fit_olderBlanks, hsame, graph, definitions, (hstories graph definitions).2 hplain, hplain⟩

end Session
end Narrative
