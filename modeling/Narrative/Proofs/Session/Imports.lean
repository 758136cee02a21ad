import Narrative.Proofs.Storage.Stored
import Narrative.Session.Edit

/-!
# Imports

An import replaces the graph by the one that the document says, and the definitions if it brings
any; a document that does not say what a story is leaves everything as it is.  Whether it is a story
is settled before anything is stored.  Only a string that is no text is found out later, when the
document has been accepted and is to be stored: then the import breaks off, perhaps with the
definitions stored already.
-/

namespace Narrative

open Schema (Draft)

namespace Repository

theorem graphKey_ne_definitionsKey (story : String) : graphKey story ≠ definitionsKey story := by
  intro h
  exact absurd (StoreKey.key_right_injective h) (by decide)

end Repository

namespace Session

/-! ## What documents say -/

/-- The definitions that the fields of a document bring. -/
inductive Brings (fields : Json.Fields) : Option (Draft Definitions) → Prop where
  | missing (h : fields.get? "variableDefinitions" = none) : Brings fields none
  | blank (h : fields.get? "variableDefinitions" = some .null) : Brings fields none
  | given {value : Json} {definitions : Draft Definitions}
      (h : fields.get? "variableDefinitions" = some value) (hgiven : value ≠ .null)
      (hread : Draft.read (Definitions.reader .document) value = .ok definitions) :
      Brings fields (some definitions)

/-- The document says what a story is: it is an object with nodes, which together with the start and
the version make a graph with the node that every story has, and the definitions, if it brings any,
are in order. -/
inductive Says (graph : Draft Graph) (definitions : Option (Draft Definitions)) : Json → Prop where
  | intro {fields : Json.Fields} {nodes : Json} (hnodes : fields.get? "nodes" = some nodes)
      (hgiven : nodes ≠ .null)
      (hread : Draft.read (Graph.reader .document) (importedGraph fields nodes) = .ok graph)
      (hbrings : Brings fields definitions) (hstart : graph.value.hasNode startNodeId) :
      Says graph definitions (.obj fields)

theorem toOption_eq_some {ε α : Type} {x : Except ε α} {a : α} :
    x.toOption = some a ↔ x = .ok a := by
  cases x <;> simp [Except.toOption]

theorem importedDefinitions_eq_some {fields : Json.Fields}
    {definitions : Option (Draft Definitions)} :
    importedDefinitions fields = some definitions ↔ Brings fields definitions := by
  unfold importedDefinitions
  constructor
  · intro h
    split at h
    case h_1 hnone => cases h; exact .missing hnone
    case h_2 hnull => cases h; exact .blank hnull
    case h_3 value hne hvalue =>
      obtain ⟨draft, hdraft, rfl⟩ := Option.map_eq_some_iff.1 h
      exact .given hvalue hne (toOption_eq_some.1 hdraft)
  · intro h
    cases h with
    | missing h => rw [h]
    | blank h => rw [h]
    | given h hgiven hread =>
      rw [h]
      simp only [hread]
      rfl

/-- A document is imported exactly if it says what a story is. -/
theorem imported_eq_some {data : Json} {graph : Draft Graph}
    {definitions : Option (Draft Definitions)} :
    imported data = some (graph, definitions) ↔ Says graph definitions data := by
  unfold imported
  constructor
  · intro h
    split at h
    case h_2 => exact absurd h (by simp)
    case h_1 fields =>
      split at h
      case h_1 | h_2 => exact absurd h (by simp)
      case h_3 nodes hne hnodes =>
        obtain ⟨found, hfound, hrest⟩ := Option.bind_eq_some_iff.1 h
        obtain ⟨brought, hbrought, hresult⟩ := Option.bind_eq_some_iff.1 hrest
        split at hresult
        case isFalse => exact absurd hresult (by simp)
        case isTrue hstart =>
          obtain ⟨rfl, rfl⟩ := Prod.mk.inj (Option.some.inj hresult)
          exact .intro hnodes hne (toOption_eq_some.1 hfound)
            (importedDefinitions_eq_some.1 hbrought) hstart
  · rintro ⟨hnodes, hgiven, hread, hbrings, hstart⟩
    simp only [hnodes, hread, importedDefinitions_eq_some.2 hbrings]
    simp [Except.toOption, hstart]

/-! ## What imports do -/

/-- The store with the definitions that a document brings. -/
def broughtIn (story : String) (definitions : Option Definitions) (records : Records) : Records :=
  match definitions with
  | some definitions =>
    records.insert (Repository.definitionsKey story) definitions.toJson.text
  | none => records

/-- The session with what a document says in force; playback keeps its graph. -/
def withImported (session : Session) (graph : Graph) (definitions : Option Definitions) : Session :=
  { session with
    graph
    ownGraph := some session.playedGraph
    store := (definitions.map VariableStore.ofDefinitions).getD session.store }

variable {session : Session} {data : Json} {graph : Draft Graph}
  {definitions : Option (Draft Definitions)}

theorem run_importStory_of_none (session : Session) (h : imported data = none)
    (records : Records) :
    (session.importStory data).run records = (.ok (false, session), records) := by
  rw [importStory, h]
  rfl

/-- A document that says what a story is is stored piece by piece, up to the first piece that cannot
be. -/
theorem run_importStory_of_some (session : Session)
    (h : imported data = some (graph, definitions)) (records : Records) :
    (session.importStory data).run records =
      match definitions.bind Draft.torn, graph.torn with
      | some points, _ => (.error (.unwritableText points), records)
      | none, some points =>
        (.error (.unwritableText points),
          broughtIn session.story (definitions.map Draft.value) records)
      | none, none =>
        (.ok (true, session.withImported graph.value (definitions.map Draft.value)),
          (broughtIn session.story (definitions.map Draft.value) records).insert
            (Repository.graphKey session.story) graph.value.toJson.text) := by
  rw [importStory, h]
  obtain ⟨graph, torn⟩ := graph
  rcases definitions with _ | ⟨definitions, _ | points⟩ <;> cases torn <;> rfl

end Session
end Narrative
