import Narrative.Proofs.Session.Bundles
import Narrative.Proofs.Service.Looking

/-!
# Reading what was stored

A graph and definitions that are stored and loaded again have changed in one way only: numbers that
are not finite have given way to the defaults, and identifiers left blank to the keys of the nodes.
Once that has happened, storing and loading changes nothing.  A saved position is not mended: it is
loaded as it was, or not at all if one of its values is not finite.
-/

namespace Narrative

theorem Definitions.kept_kept (definitions : Definitions) : definitions.kept.kept =
    definitions.kept := kept_of_finite (finite_kept definitions)

namespace Repository

variable {story slot : String} {records : Records}

theorem run_loadGraph_saveGraph (story : String) (graph : Graph) (records : Records) :
    (loadGraph story).run ((saveGraph story graph).run records).2 =
      (.ok (some graph.kept), ((saveGraph story graph).run records).2) := by
  have htext : ((saveGraph story graph).run records).2.get? (graphKey story) =
      some graph.toJson.text := by
    rw [saveGraph, run_put, Table.get?_insert, if_pos rfl]
  rw [loadGraph, run_load_some htext Json.text_isEmpty, parsed_graph]
  rfl

theorem run_loadDefinitions_saveDefinitions (story : String) (definitions : Definitions)
    (records : Records) :
    (loadDefinitions story).run ((saveDefinitions story definitions).run records).2 =
      (.ok (some definitions.kept), ((saveDefinitions story definitions).run records).2) := by
  have htext : ((saveDefinitions story definitions).run records).2.get? (definitionsKey story) =
      some definitions.toJson.text := by
    rw [saveDefinitions, run_put, Table.get?_insert, if_pos rfl]
  rw [loadDefinitions, run_load_some htext Json.text_isEmpty, parsed_definitions]
  rfl

/-- No slot is kept where the names of the slots are. -/
theorem slotListKey_ne_slotKey (story slot : String) : slotListKey story ≠ slotKey story slot := by
  intro h
  have hchars := congrArg String.toList (StoreKey.key_right_injective h)
  simp at hchars

/-- The store with a position in a save slot, and with the name of the slot behind those in the
list. -/
def withSlot (story slot : String) (position : SaveSlot) (names : List Label) (records : Records) :
    Records :=
  let stored := records.insert (slotKey story slot) position.toJson.text
  if Label.text slot ∈ names then stored
  else stored.insert (slotListKey story) (Json.listText (names ++ [.text slot]))

/-- A position is stored before the list of slots is looked at, so it is there even if the list
cannot be read. -/
theorem run_saveSlot_eq (story slot : String) (position : SaveSlot) (records : Records) :
    (saveSlot story slot position).run records =
      match ((listSlots story).run records).1 with
      | .ok names => (.ok (), withSlot story slot position names records)
      | .error failure =>
        (.error failure, records.insert (slotKey story slot) position.toJson.text) := by
  have hlist : (listSlots story).run
      (records.insert (slotKey story slot) position.toJson.text) =
        (((listSlots story).run records).1,
          records.insert (slotKey story slot) position.toJson.text) := by
    refine Prod.ext ?_ (onlyReads_loadNames _ _)
    rw [listSlots, loadNames, Attempt.run_bind, Attempt.run_bind, Attempt.run_lift,
      Attempt.run_lift, run_get, run_get, Table.get?_insert,
      if_neg (slotListKey_ne_slotKey story slot).symm]
    cases records.get? (slotListKey story) with
    | none => rfl
    | some text => simp only [Attempt.run_ofExcept]
  rw [saveSlot, Attempt.run_bind, Attempt.run_lift, run_put]
  simp only
  rw [Attempt.run_bind, hlist]
  cases ((listSlots story).run records).1 with
  | error failure => rfl
  | ok names =>
    simp only [withSlot]
    by_cases hlisted : Label.text slot ∈ names
    · rw [if_pos hlisted, if_pos hlisted]
      rfl
    · rw [if_neg hlisted, if_neg hlisted]
      rfl

theorem get?_run_saveSlot (story slot : String) (position : SaveSlot) (records : Records) :
    ((saveSlot story slot position).run records).2.get? (slotKey story slot) =
      some position.toJson.text := by
  have hne := slotListKey_ne_slotKey story slot
  rw [run_saveSlot_eq]
  cases ((listSlots story).run records).1 with
  | error failure => rw [Table.get?_insert, if_pos rfl]
  | ok names =>
    simp only [withSlot]
    split
    · rw [Table.get?_insert, if_pos rfl]
    · rw [Table.get?_insert, if_neg hne, Table.get?_insert, if_pos rfl]

theorem run_loadSlot_saveSlot (story slot : String) (position : SaveSlot) (records : Records) :
    (loadSlot story slot).run ((saveSlot story slot position).run records).2 =
      (parsedSlot position.toJson.text, ((saveSlot story slot position).run records).2) := by
  rw [loadSlot, Script.run_bind, run_get, get?_run_saveSlot, Script.run_pure, Option.bind_some]

/-- A stored position with a value that is not finite cannot be read. -/
theorem parsedSlot_text_eq_none {position : SaveSlot} (h : position.Timely)
    (hvalues : ¬position.values.Finite) : parsedSlot position.toJson.text = none := by
  cases hfound : parsedSlot position.toJson.text with
  | none => rfl
  | some found => exact absurd (eq_of_parsedSlot h hfound).2.values hvalues

/-! ## What is left of what was stored -/

/-- What is stored and loaded again.  A graph or a set of definitions comes back as what is kept of
it, and what is kept comes back as it is when it is stored and loaded once more.  A position comes
back as it was if all its values are finite, and not at all otherwise; its times are assumed to be
short enough to be read.  Saving it goes through as long as the list of slots can be read. -/
theorem reread_of_stored (story : String) (records : Records) :
    (∀ graph : Graph,
      let stored := ((saveGraph story graph).run records).2
      let again := ((saveGraph story graph.kept).run stored).2
      (loadGraph story).run stored = (.ok (some graph.kept), stored) ∧
      (loadGraph story).run again = (.ok (some graph.kept), again)) ∧
    (∀ definitions : Definitions,
      let stored := ((saveDefinitions story definitions).run records).2
      let again := ((saveDefinitions story definitions.kept).run stored).2
      (loadDefinitions story).run stored = (.ok (some definitions.kept), stored) ∧
      (loadDefinitions story).run again = (.ok (some definitions.kept), again)) ∧
    ∀ (slot : String) (position : SaveSlot), position.Timely →
      let saving := (saveSlot story slot position).run records
      let stored := saving.2
      saving.1 = ((listSlots story).run records).1.map (fun _ => ()) ∧
      (position.values.Finite → (loadSlot story slot).run stored = (some position, stored)) ∧
      (¬position.values.Finite → (loadSlot story slot).run stored = (none, stored)) := by
  refine ⟨fun graph => ⟨run_loadGraph_saveGraph .., ?_⟩,
    fun definitions => ⟨run_loadDefinitions_saveDefinitions .., ?_⟩,
    fun slot position htimely => ⟨?_, fun hfinite => ?_, fun hinfinite => ?_⟩⟩
  · rw [run_loadGraph_saveGraph, Graph.kept_kept]
  · rw [run_loadDefinitions_saveDefinitions, Definitions.kept_kept]
  · rw [run_saveSlot_eq]
    cases ((listSlots story).run records).1 <;> rfl
  · rw [run_loadSlot_saveSlot, parsedSlot_text ⟨htimely, hfinite⟩]
  · rw [run_loadSlot_saveSlot, parsedSlot_text_eq_none htimely hinfinite]

/-- A position at the start with one value. -/
def positionWith (value : Float) : SaveSlot where
  currentNodeId := startNodeId
  values := Table.empty.insert .physiological (Table.empty.insert "health" value)
  history := []
  timestamp := 0

/-- A saved minus zero is loaded, and a saved infinity is lost. -/
theorem reread_of_stored_positions :
    (∀ value, (positionWith value).Timely) ∧
    (positionWith (-0.0)).values.Finite ∧ ¬(positionWith (1.0 / 0.0)).values.Finite ∧
    (let stored := ((saveSlot "tale" "one" (positionWith (-0.0))).run .empty).2;
      (loadSlot "tale" "one").run stored = (some (positionWith (-0.0)), stored)) ∧
    (let stored := ((saveSlot "tale" "one" (positionWith (1.0 / 0.0))).run .empty).2;
      (loadSlot "tale" "one").run stored = (none, stored)) := by
  have htimely (value : Float) : (positionWith value).Timely :=
    ⟨fun _ h => absurd h List.not_mem_nil, Nat.pow_pos (by decide)⟩
  have hfinite : (positionWith (-0.0)).values.Finite := by
    unfold ValueTable.Finite
    decide
  have hinfinite : ¬(positionWith (1.0 / 0.0)).values.Finite := by
    unfold ValueTable.Finite
    decide
  obtain ⟨-, -, hslots⟩ := reread_of_stored "tale" .empty
  exact ⟨htimely, hfinite, hinfinite, (hslots "one" _ (htimely _)).2.1 hfinite,
    (hslots "one" _ (htimely _)).2.2 hinfinite⟩

end Repository

end Narrative
